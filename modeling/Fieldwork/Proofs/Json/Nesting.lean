import Fieldwork.Document.Basic
import Fieldwork.Proofs.Ordered
import Fieldwork.Proofs.Text.Bytes

/-!
# Nesting

What the limit on nesting decides, and what holds of a value at any depth.

A reader with a limit either refuses a tree or gives the value that any reader
gives whose limit is high enough: the limit decides whether there is a value,
never which one. So a text has at most one value, and the least limit that
finds it is the depth of the tree.

Two conditions on a value are conditions on its parts, its depth and that no
object names a key twice. For the members of an object they are stated pair by
pair here, since that is how a merge brings members together, and of a document
in the same way. Both can be computed, and a value that a reader gives meets
both.

## Main definitions

* `Json.decideDistinctKeys`: Whether a value has each key once.
* `Json.Fits`: A value that a reader with a limit can give.
* `Json.nested`: A value within so many arrays.

## Theorems

* `depth_le_of_json?`: A value that is found nests no deeper than the limit.
* `json?_of_depth_le`: Under any limit that is high enough the value is the
  same.
* `depthOfMembers_le_iff`, `distinctKeysInMembers_iff`: Member by member.
* `fits_of_parse?`: A value that a text is read as fits the limit of reading.
* `Document.distinctKeys_toJson_iff`, `Document.depth_toJson_le_iff`: Pair by
  pair.
-/

namespace Fieldwork

namespace Written

mutual

/-- A value that is found nests no deeper than the limit. -/
theorem depth_le_of_json? (tree : Written) {limit : Nat} {value : Json}
    (h : json? limit tree = some value) : tree.depth ≤ limit := by
  match tree with
  | null | bool _ | number _ | string _ => exact Nat.zero_le limit
  | array items =>
    -- One level of the limit is used up here, which is why it is not zero.
    rw [json?, Option.ite_none_left_eq_some] at h
    rcases Option.map_eq_some_iff.1 h.2 with ⟨values, hitems, -⟩
    have hdepth := depthOfItems_le_of_jsonItems? items hitems
    rw [depth]
    omega
  | object members =>
    rw [json?, Option.ite_none_left_eq_some] at h
    rcases Option.map_eq_some_iff.1 h.2 with ⟨values, hmembers, -⟩
    have hdepth := depthOfMembers_le_of_jsonMembers? members hmembers
    rw [depth]
    omega

theorem depthOfItems_le_of_jsonItems? (items : List Written) {limit : Nat}
    {done values : List Json} (h : jsonItems? limit done items = some values) :
    depthOfItems items ≤ limit := by
  match items with
  | [] => exact Nat.zero_le limit
  | item :: rest =>
    rw [jsonItems?] at h
    rcases Option.bind_eq_some_iff.1 h with ⟨value, hvalue, hrest⟩
    rw [depthOfItems]
    exact Nat.max_le.2 ⟨depth_le_of_json? item hvalue, depthOfItems_le_of_jsonItems? rest hrest⟩

theorem depthOfMembers_le_of_jsonMembers? (members : List (String × Written)) {limit : Nat}
    {done values : List (String × Json)} (h : jsonMembers? limit done members = some values) :
    depthOfMembers members ≤ limit := by
  match members with
  | [] => exact Nat.zero_le limit
  | (key, tree) :: rest =>
    rw [jsonMembers?] at h
    -- How a key is spelled does not count for the depth.
    rcases Option.bind_eq_some_iff.1 h with ⟨key, -, h⟩
    rcases Option.bind_eq_some_iff.1 h with ⟨value, hvalue, hrest⟩
    rw [depthOfMembers]
    exact Nat.max_le.2
      ⟨depth_le_of_json? tree hvalue, depthOfMembers_le_of_jsonMembers? rest hrest⟩

end

mutual

/-- Under any limit that is high enough the value is the same. -/
theorem json?_of_depth_le (tree : Written) {limit other : Nat} {value : Json}
    (h : json? limit tree = some value) (hd : tree.depth ≤ other) :
    json? other tree = some value := by
  match tree with
  | null | bool _ | number _ | string _ => exact h
  | array items =>
    rw [json?, Option.ite_none_left_eq_some] at h
    rcases Option.map_eq_some_iff.1 h.2 with ⟨values, hitems, rfl⟩
    rw [depth] at hd
    rw [json?, if_neg (by omega), jsonItems?_of_depth_le items hitems (by omega)]
    rfl
  | object members =>
    rw [json?, Option.ite_none_left_eq_some] at h
    rcases Option.map_eq_some_iff.1 h.2 with ⟨values, hmembers, rfl⟩
    rw [depth] at hd
    rw [json?, if_neg (by omega), jsonMembers?_of_depth_le members hmembers (by omega)]
    rfl

theorem jsonItems?_of_depth_le (items : List Written) {limit other : Nat}
    {done values : List Json} (h : jsonItems? limit done items = some values)
    (hd : depthOfItems items ≤ other) : jsonItems? other done items = some values := by
  match items with
  | [] =>
    rw [jsonItems?] at h ⊢
    exact h
  | item :: rest =>
    rw [jsonItems?] at h
    rcases Option.bind_eq_some_iff.1 h with ⟨value, hvalue, hrest⟩
    rw [depthOfItems] at hd
    rw [jsonItems?, json?_of_depth_le item hvalue (by omega), Option.bind_some,
      jsonItems?_of_depth_le rest hrest (by omega)]

theorem jsonMembers?_of_depth_le (members : List (String × Written)) {limit other : Nat}
    {done values : List (String × Json)} (h : jsonMembers? limit done members = some values)
    (hd : depthOfMembers members ≤ other) : jsonMembers? other done members = some values := by
  match members with
  | [] =>
    rw [jsonMembers?] at h ⊢
    exact h
  | (key, tree) :: rest =>
    rw [jsonMembers?] at h
    rcases Option.bind_eq_some_iff.1 h with ⟨text, htext, h⟩
    rcases Option.bind_eq_some_iff.1 h with ⟨value, hvalue, hrest⟩
    rw [depthOfMembers] at hd
    rw [jsonMembers?, htext, Option.bind_some, json?_of_depth_le tree hvalue (by omega),
      Option.bind_some, jsonMembers?_of_depth_le rest hrest (by omega)]

end

end Written

namespace Json

mutual

/-- Whether a value has each key once. -/
def decideDistinctKeys : (value : Json) → Decidable value.DistinctKeys
  | null | bool _ | number _ | string _ => isTrue trivial
  | array items => decideDistinctKeysInItems items
  | object members =>
    have := decideDistinctKeysInMembers members
    inferInstanceAs (Decidable (Ordered.Distinct members ∧ DistinctKeysInMembers members))

/-- Whether items have each key once. -/
def decideDistinctKeysInItems : (items : List Json) → Decidable (DistinctKeysInItems items)
  | [] => isTrue trivial
  | item :: rest =>
    have := decideDistinctKeys item
    have := decideDistinctKeysInItems rest
    inferInstanceAs (Decidable (item.DistinctKeys ∧ DistinctKeysInItems rest))

/-- Whether the values of members have each key once. -/
def decideDistinctKeysInMembers :
    (members : List (String × Json)) → Decidable (DistinctKeysInMembers members)
  | [] => isTrue trivial
  | (_, value) :: rest =>
    have := decideDistinctKeys value
    have := decideDistinctKeysInMembers rest
    inferInstanceAs (Decidable (value.DistinctKeys ∧ DistinctKeysInMembers rest))

end

instance (value : Json) : Decidable value.DistinctKeys :=
  decideDistinctKeys value

/-- The depth of members, pair by pair. -/
theorem depthOfMembers_le_iff {members : List (String × Json)} {limit : Nat} :
    depthOfMembers members ≤ limit ↔ ∀ entry ∈ members, entry.2.depth ≤ limit := by
  induction members with
  | nil => simp [depthOfMembers]
  | cons entry rest ih =>
    rcases entry with ⟨key, value⟩
    rw [depthOfMembers, Nat.max_le, ih, List.forall_mem_cons]

/-- Different keys in the values of members, pair by pair. -/
theorem distinctKeysInMembers_iff {members : List (String × Json)} :
    DistinctKeysInMembers members ↔ ∀ entry ∈ members, entry.2.DistinctKeys := by
  induction members with
  | nil => simp [DistinctKeysInMembers]
  | cons entry rest ih =>
    rcases entry with ⟨key, value⟩
    rw [DistinctKeysInMembers, ih, List.forall_mem_cons]

theorem depthOfItems_le_iff {items : List Json} {limit : Nat} :
    depthOfItems items ≤ limit ↔ ∀ item ∈ items, item.depth ≤ limit := by
  induction items with
  | nil => simp [depthOfItems]
  | cons item rest ih => rw [depthOfItems, Nat.max_le, ih, List.forall_mem_cons]

theorem distinctKeysInItems_iff {items : List Json} :
    DistinctKeysInItems items ↔ ∀ item ∈ items, item.DistinctKeys := by
  induction items with
  | nil => simp [DistinctKeysInItems]
  | cons item rest ih => rw [DistinctKeysInItems, ih, List.forall_mem_cons]

/-- A value that a reader with a limit can give: each key once, and nested
    within the limit. -/
structure Fits (limit : Nat) (value : Json) : Prop where
  /-- No object has a key twice. -/
  distinct : value.DistinctKeys
  /-- It nests within the limit. -/
  depth_le : value.depth ≤ limit

/-- An array fits a limit when its items fit one that is less by one. -/
theorem fits_array {items : List Json} {limit : Nat} (hlimit : limit ≠ 0)
    (h : ∀ item ∈ items, item.Fits (limit - 1)) : (array items).Fits limit := by
  have hdepth : depthOfItems items ≤ limit - 1 :=
    depthOfItems_le_iff.2 fun item hitem => (h item hitem).depth_le
  refine ⟨distinctKeysInItems_iff.2 fun item hitem => (h item hitem).distinct, ?_⟩
  rw [depth]
  omega

/-- An object fits a limit when its values fit one that is less by one. -/
theorem fits_object {members : List (String × Json)} {limit : Nat} (hlimit : limit ≠ 0)
    (hkeys : Ordered.Distinct members) (h : ∀ entry ∈ members, entry.2.Fits (limit - 1)) :
    (object members).Fits limit := by
  have hdepth : depthOfMembers members ≤ limit - 1 :=
    depthOfMembers_le_iff.2 fun entry hentry => (h entry hentry).depth_le
  refine ⟨⟨hkeys, distinctKeysInMembers_iff.2 fun entry hentry => (h entry hentry).distinct⟩, ?_⟩
  rw [depth]
  omega

end Json

namespace Written

mutual

/-- A value that is found fits the limit. -/
theorem fits_of_json? (tree : Written) {limit : Nat} {value : Json}
    (h : json? limit tree = some value) : value.Fits limit := by
  match tree with
  | null | bool _ =>
    cases h
    exact ⟨trivial, Nat.zero_le limit⟩
  | number _ | string _ =>
    rw [json?] at h
    rcases Option.map_eq_some_iff.1 h with ⟨scalar, -, rfl⟩
    exact ⟨trivial, Nat.zero_le limit⟩
  | array items =>
    rw [json?, Option.ite_none_left_eq_some] at h
    rcases Option.map_eq_some_iff.1 h.2 with ⟨values, hitems, rfl⟩
    exact Json.fits_array h.1 (fits_of_jsonItems? items (fun _ hmem => by cases hmem) hitems)
  | object members =>
    rw [json?, Option.ite_none_left_eq_some] at h
    rcases Option.map_eq_some_iff.1 h.2 with ⟨values, hmembers, rfl⟩
    -- No key is known when the object opens.
    have hnone : Ordered.Distinct ([] : List (String × Json)) := List.nodup_nil
    rcases fits_of_jsonMembers? members hnone (fun _ hmem => by cases hmem) hmembers with
      ⟨hkeys, hvalues⟩
    exact Json.fits_object h.1 hkeys hvalues

theorem fits_of_jsonItems? (items : List Written) {limit : Nat} {done values : List Json}
    (hdone : ∀ value ∈ done, value.Fits limit) (h : jsonItems? limit done items = some values) :
    ∀ value ∈ values, value.Fits limit := by
  match items with
  | [] =>
    cases h
    exact fun value hvalue => hdone value (List.mem_reverse.1 hvalue)
  | item :: rest =>
    rw [jsonItems?] at h
    rcases Option.bind_eq_some_iff.1 h with ⟨value, hvalue, hrest⟩
    -- What has been read so far fits, so the induction carries it along.
    have hmore := List.forall_mem_cons.2 ⟨fits_of_json? item hvalue, hdone⟩
    exact fits_of_jsonItems? rest hmore hrest

theorem fits_of_jsonMembers? (members : List (String × Written)) {limit : Nat}
    {done values : List (String × Json)} (hkeys : Ordered.Distinct done)
    (hdone : ∀ entry ∈ done, entry.2.Fits limit)
    (h : jsonMembers? limit done members = some values) :
    Ordered.Distinct values ∧ ∀ entry ∈ values, entry.2.Fits limit := by
  match members with
  | [] =>
    cases h
    exact ⟨hkeys, hdone⟩
  | (key, tree) :: rest =>
    rw [jsonMembers?] at h
    rcases Option.bind_eq_some_iff.1 h with ⟨text, -, h⟩
    rcases Option.bind_eq_some_iff.1 h with ⟨value, hvalue, hrest⟩
    -- A key that comes again has its value replaced, so no key comes twice.
    have hmore : ∀ entry ∈ Ordered.insert text value done, entry.2.Fits limit :=
      Ordered.forall_mem_insert value (fits_of_json? tree hvalue) hdone
    exact fits_of_jsonMembers? rest (Ordered.distinct_insert hkeys) hmore hrest

end

end Written

namespace Json

/-- A value that a text is read as fits the limit of reading. -/
theorem fits_of_parse? {text : String} {value : Json} (h : parse? text = some value) :
    value.Fits depthLimit := by
  rcases Option.bind_eq_some_iff.1 h with ⟨tree, -, hvalue⟩
  exact Written.fits_of_json? tree hvalue

/-- A value within so many arrays. -/
def nested : Nat → Json → Json
  | 0, core => core
  | count + 1, core => array [nested count core]

theorem depth_nested (count : Nat) (core : Json) :
    (nested count core).depth = count + core.depth := by
  induction count with
  | zero => rw [nested, Nat.zero_add]
  | succ count ih =>
    rw [nested, depth, depthOfItems, depthOfItems, ih]
    omega

theorem distinctKeys_nested {core : Json} (h : core.DistinctKeys) (count : Nat) :
    (nested count core).DistinctKeys := by
  induction count with
  | zero => exact h
  | succ count ih => exact ⟨ih, trivial⟩

/-- Each array has two brackets. -/
theorem utf8ByteSize_compact_nested (count : Nat) (core : Json) :
    (nested count core).compact.utf8ByteSize = 2 * count + core.compact.utf8ByteSize := by
  induction count with
  | zero => rw [nested, Nat.mul_zero, Nat.zero_add]
  | succ count ih =>
    have hone : '['.utf8Size = 1 ∧ (String.ofList [']']).utf8ByteSize = 1 := by decide
    rw [compact, Written.text] at ih
    rw [nested, compact, toWritten, toWrittenItems, toWrittenItems, Written.text, Written.render,
      Written.renderItems, List.cons_append, utf8ByteSize_ofList_cons,
      utf8ByteSize_ofList_append, ih, hone.1, hone.2]
    omega

end Json

namespace Document

/-- A document has each key once at any depth just if its values have. -/
theorem distinctKeys_toJson_iff {document : Document} :
    document.toJson.DistinctKeys ↔ ∀ entry ∈ document.fields, entry.2.DistinctKeys := by
  rw [toJson, Json.DistinctKeys, and_iff_right document.distinct, Json.distinctKeysInMembers_iff]

/-- A document nests one level more than its values. -/
theorem depth_toJson_le_iff {document : Document} {limit : Nat} :
    document.toJson.depth ≤ limit + 1 ↔ ∀ entry ∈ document.fields, entry.2.depth ≤ limit := by
  rw [toJson, Json.depth, Nat.add_le_add_iff_right, Json.depthOfMembers_le_iff]

/-- A document is the one that its object holds. -/
theorem ofJson?_toJson (document : Document) : ofJson? document.toJson = some document := by
  have hfields : Ordered.ofList document.fields = document.fields :=
    Ordered.merge_of_distinct_append [] document.distinct
  rw [toJson, ofJson?, Option.some.injEq]
  exact Document.ext hfields

end Document

end Fieldwork
