import Fieldwork.Proofs.Extended.RoundTrip
import Fieldwork.Proofs.Submission.Meaning
import Fieldwork.Proofs.Submission.Verdict

/-!
# Queries as Requests

A query that is written down and sent again is the same query.

A query in JSON has the names and the forms of parameters, so it can be sent
as a request. What was a numeral is a number then, what was a text of JSON is
a value, and a word for a direction is a number; validation gives the same
query for either. Three things need a reason. A filter was decoded, so it is
written in a form that is decoded to it again. An order was a plain object,
so its fields are not the keys of a wrapper, and they are not taken for one
when it is written. And a bound or a number of a submission is a word, so it
is written as an integer that is read as that word.

A filter that is a text, or `null`, is the exception: as a parameter it would
be taken for a text of JSON, or for no filter.

## Theorems

* `extendedOf_toJson`: A value that was decoded is decoded again.
* `sortOf_sortJson`, `startOf_ofUInt64`, `limitOf_map`, `fieldsOf_strings`,
  `instanceIdsOf_instanceIdsJson`: Each part of a query is read back.
* `validate_toJson`: A query is validated to itself.
-/

namespace Fieldwork

namespace Extended

theorem itemsToJson_eq_map (items : List Extended) : itemsToJson items = items.map toJson := by
  induction items with
  | nil => rfl
  | cons item rest ih => rw [itemsToJson, ih, List.map_cons]

theorem membersToJson_eq_map (members : List (String × Extended)) :
    membersToJson members = members.map fun member => (member.1, member.2.toJson) := by
  induction members with
  | nil => rfl
  | cons member rest ih => rw [membersToJson, ih, List.map_cons]

theorem canonicalItems_of_forall {items : List Extended} (h : ∀ item ∈ items, item.Canonical) :
    CanonicalItems items := by
  induction items with
  | nil => trivial
  | cons item rest ih =>
    rw [List.forall_mem_cons] at h
    exact ⟨h.1, ih h.2⟩

theorem canonicalMembers_of_forall {members : List (String × Extended)}
    (h : ∀ member ∈ members, member.2.Canonical) : CanonicalMembers members := by
  induction members with
  | nil => trivial
  | cons member rest ih =>
    rw [List.forall_mem_cons] at h
    exact ⟨h.1, ih h.2⟩

theorem not_shaped_nil : ¬ WrapperShape.Shaped [] := by
  rintro (⟨wrapper, h⟩ | h | h) <;> cases h

theorem canonical_empty : empty.Canonical :=
  ⟨not_shaped_nil, trivial⟩

end Extended

namespace Submission

section Numbers

theorem coerce?_ofUInt64 (n : UInt64) : coerce? (.ofUInt64 n) = some n :=
  coerce?_eq_some_iff.2 (.integer rfl)

theorem startOf_ofUInt64 (n : UInt64) : startOf (some (.ofUInt64 n)) = .ok n := by
  rw [startOf, coerce?_ofUInt64]

theorem limitOf_map (limit : Option PageLimit) :
    limitOf (limit.map fun limit => .ofUInt64 limit.count) = .ok limit := by
  cases limit with
  | none => rfl
  | some limit =>
    have hcount : PageLimit.ofCount? limit.count = some limit := dif_pos limit.count_ne_zero
    rw [Option.map_some, limitOf.eq_3 _ (fun h => by cases h), coerce?_ofUInt64, Option.bind_some,
      hcount]

theorem instanceIdsOf_instanceIdsJson (scope : Scope) :
    instanceIdsOf (some (Query.instanceIdsJson scope)) = .ok scope.instanceIds := by
  rw [Query.instanceIdsJson, instanceIdsOf]
  induction scope.instanceIds with
  | nil => rfl
  | cons id rest ih =>
    rw [List.map_cons, instanceIdsOfItems, SubmissionId.toJson, coerce?_ofUInt64]
    simp only [ih]
    rfl

end Numbers

section Values

variable {parameter : Parameter}

/-- What was decoded is in its canonical form. -/
theorem canonical_of_extendedOf {value : Json} {v : Extended}
    (h : extendedOf parameter value = .ok v) : v.Canonical := by
  rcases extendedOf_eq_ok_iff.1 h with ⟨j, -, hj⟩
  exact Extended.canonical_of_ofJson (Extended.decode_eq_ok_iff.1 hj)

/-- A value that was decoded is decoded again from what it is written as. -/
theorem extendedOf_toJson {v : Extended} (hv : v.Canonical) (hstring : ∀ text, v ≠ .string text) :
    extendedOf parameter v.toJson = .ok v := by
  refine extendedOf_eq_ok_iff.2 ⟨v.toJson, ?_, ?_⟩
  · cases v with
    | string text => exact absurd rfl (hstring text)
    | _ => rfl
  · exact Extended.decode_eq_ok_iff.2 (Extended.ofJson_toJson hv)

theorem canonical_of_filterOf {sent : Option Json} {filter : Extended}
    (h : filterOf sent = .ok filter) : filter.Canonical := by
  unfold filterOf at h
  split at h
  · cases h
    exact Extended.canonical_empty
  · cases h
    exact Extended.canonical_empty
  · exact canonical_of_extendedOf h

theorem filterOf_toJson {filter : Extended} (hfilter : filter.Canonical)
    (hnull : filter ≠ .null) (hstring : ∀ text, filter ≠ .string text) :
    filterOf (some filter.toJson) = .ok filter := by
  have hsent : filter.toJson ≠ .null := by
    cases filter with
    | null => exact absurd rfl hnull
    | _ => exact fun h => by cases h
  rw [filterOf.eq_3 _ hsent, extendedOf_toJson hfilter hstring]

theorem fieldsOfItems_strings (names : List String) :
    fieldsOfItems (names.map .string) = .ok names := by
  induction names with
  | nil => rfl
  | cons name rest ih =>
    rw [List.map_cons, fieldsOfItems, Extended.string?]
    simp only [ih]
    rfl

theorem fieldsOf_strings (names : List String) :
    fieldsOf (some (.array (names.map .string))) = .ok names := by
  -- The list is written as a list of texts, and texts have no wrappers in them.
  have hjson : Json.array (names.map .string) = (Extended.array (names.map .string)).toJson := by
    rw [Extended.toJson_array, Extended.itemsToJson_eq_map, List.map_map]
    rfl
  have hcanonical : (Extended.array (names.map .string)).Canonical := by
    refine Extended.canonicalItems_of_forall fun item hitem => ?_
    rcases List.mem_map.1 hitem with ⟨name, -, rfl⟩
    trivial
  rw [fieldsOf.eq_3 _ (fun h => by cases h), hjson,
    extendedOf_toJson hcanonical (fun text h => by cases h)]
  exact fieldsOfItems_strings names

end Values

section Orders

theorem direction?_number (direction : Direction) :
    direction? (.number (.integer (.ofInt64 direction.number))) = some direction := by
  cases direction <;> rfl

/-- The value of an order. -/
def orderValue (sort : List SortKey) : List (String × Extended) :=
  sort.map fun key => (key.field, .number (.integer (.ofInt64 key.direction.number)))

theorem sortOfMembers_orderValue (sort : List SortKey) :
    sortOfMembers (orderValue sort) = .ok sort := by
  induction sort with
  | nil => rfl
  | cons key rest ih =>
    rw [orderValue, List.map_cons, ← orderValue, sortOfMembers, direction?_number]
    simp only [ih]
    rfl

theorem keys_orderValue (sort : List SortKey) :
    Ordered.keys (orderValue sort) = sort.map SortKey.field := by
  rw [orderValue, Ordered.keys, List.map_map]
  rfl

/-- The fields of an order are the keys of the object that it came from. -/
theorem fields_of_sortOfMembers {members : List (String × Extended)} {sort : List SortKey}
    (h : sortOfMembers members = .ok sort) : sort.map SortKey.field = Ordered.keys members := by
  induction members generalizing sort with
  | nil =>
    cases h
    rfl
  | cons member rest ih =>
    rcases member with ⟨field, value⟩
    rw [sortOfMembers] at h
    cases hdirection : direction? value with
    | none =>
      rw [hdirection] at h
      cases h
    | some direction =>
      rw [hdirection] at h
      cases hrest : sortOfMembers rest with
      | error e =>
        simp only [hrest] at h
        cases h
      | ok keys =>
        simp only [hrest] at h
        cases h
        exact congrArg (field :: ·) (ih hrest)

/-- An order came from a plain object, so its fields are no keys of a wrapper. -/
theorem not_shaped_of_sortOf {sent : Option Json} {sort : List SortKey}
    (h : sortOf sent = .ok sort) : ¬ WrapperShape.Shaped (sort.map SortKey.field) := by
  unfold sortOf at h
  -- Nothing sent and a null are no keys at all, and no wrapper is empty.
  split at h
  · cases h
    exact Extended.not_shaped_nil
  · cases h
    exact Extended.not_shaped_nil
  · rcases Fallible.bind_eq_ok_iff.1 h with ⟨v, hv, hsort⟩
    cases hmembers : v.object? with
    | none =>
      rw [hmembers] at hsort
      cases hsort
    | some members =>
      rw [hmembers] at hsort
      rw [fields_of_sortOfMembers hsort]
      have hcanonical := canonical_of_extendedOf hv
      rw [object?_eq_some_iff.1 hmembers] at hcanonical
      exact hcanonical.1

theorem sortOf_sortJson {sort : List SortKey}
    (h : ¬ WrapperShape.Shaped (sort.map SortKey.field)) :
    sortOf (some (Query.sortJson sort)) = .ok sort := by
  have hjson : Query.sortJson sort = (Extended.object (orderValue sort)).toJson := by
    rw [Extended.toJson_object, Extended.membersToJson_eq_map, orderValue, List.map_map]
    rfl
  have hcanonical : (Extended.object (orderValue sort)).Canonical := by
    refine ⟨by rwa [keys_orderValue], Extended.canonicalMembers_of_forall fun member hmem => ?_⟩
    rcases List.mem_map.1 hmem with ⟨key, -, rfl⟩
    trivial
  rw [sortOf.eq_3 _ (fun h => by cases h), hjson,
    extendedOf_toJson hcanonical (fun text h => by cases h)]
  exact sortOfMembers_orderValue sort

end Orders

end Submission

namespace Request

open Submission

/-- A query in JSON is a record of parameters. Only a list has those of a
    list, and the constraint of the provider is none of them. -/
theorem exists_params_toJson (q : Query) :
    ∃ params, Params.ofJson? q.toJson = some params ∧
      params.value? .count = none ∧
      params.value? .query = some q.scope.filter.toJson ∧
      params.value? .instanceIds = some (Query.instanceIdsJson q.scope) ∧
      ∀ listing, q.listing? = some listing →
        params.value? .sort = some (Query.sortJson listing.sort) ∧
        params.value? .start = some (.ofUInt64 listing.start) ∧
        params.value? .limit = listing.limit.map (fun limit => .ofUInt64 limit.count) ∧
        params.value? .fields = some (.array (listing.fields.map .string)) := by
  -- A count has no listing, and a list may have no limit.
  cases q with
  | count scope =>
    refine ⟨_, rfl, rfl, rfl, rfl, fun listing h => by cases h⟩
  | list scope listing =>
    rcases listing with ⟨start, limit, sort, fields⟩
    cases limit with
    | none =>
      refine ⟨_, rfl, rfl, rfl, rfl, fun listing h => ?_⟩
      cases h
      exact ⟨rfl, rfl, rfl, rfl⟩
    | some limit =>
      refine ⟨_, rfl, rfl, rfl, rfl, fun listing h => ?_⟩
      cases h
      exact ⟨rfl, rfl, rfl, rfl⟩

section Again

variable {r : Request} {params : Params}

theorem screen_again {filter : Extended} {ids : List SubmissionId}
    (hscreen : r.screen = .ok (filter, ids)) (hnull : filter ≠ .null)
    (hstring : ∀ text, filter ≠ .string text) (hcount : params.value? .count = none)
    (hquery : params.value? .query = some filter.toJson)
    (hids : instanceIdsOf (params.value? .instanceIds) = .ok ids) :
    { r with format := .structured, params := params }.screen = .ok (filter, ids) := by
  -- The normal form names no count, and its filter is not read as a text.
  rcases screen_eq_ok_iff.1 hscreen with ⟨-, hfilter, -⟩
  refine screen_eq_ok_iff.2 ⟨?_, ?_, hids⟩
  · have htext : ¬ (r.mode = .list ∧ Format.structured = .text) := fun h => by cases h.2
    rw [screenSupport, hcount, Option.isSome_none, if_neg Bool.false_ne_true, if_neg htext]
  · rw [hquery]
    exact filterOf_toJson (canonical_of_filterOf hfilter) hnull hstring

theorem listing_again {listing : Listing} (hlisting : r.listing = .ok listing)
    (hsort : params.value? .sort = some (Query.sortJson listing.sort))
    (hstart : params.value? .start = some (.ofUInt64 listing.start))
    (hlimit : params.value? .limit = listing.limit.map fun limit => .ofUInt64 limit.count)
    (hfields : params.value? .fields = some (.array (listing.fields.map .string))) :
    { r with format := .structured, params := params }.listing = .ok listing := by
  refine listing_eq_ok_iff.2 ⟨?_, ?_, ?_, ?_⟩
  · rw [hsort]
    exact sortOf_sortJson (not_shaped_of_sortOf (listing_eq_ok_iff.1 hlisting).1)
  · rw [hstart, startOf_ofUInt64]
  · rw [hlimit, limitOf_map]
  · rw [hfields, fieldsOf_strings]

end Again

/-- A query that was accepted is accepted again when it is sent as it is
    written, and it is the same query then. -/
theorem validate_toJson (provider : PermissionProvider Id) (r : Request) {q : Query}
    (h : (r.validate provider).run = .ok q) (hnull : q.scope.filter ≠ .null)
    (hstring : ∀ text, q.scope.filter ≠ .string text) :
    ∃ params, Params.ofJson? q.toJson = some params ∧
      ({ r with format := .structured, params := params }.validate provider).run = .ok q := by
  rw [validate_eq_verdict] at h
  rcases verdict_eq_ok_iff.1 h with ⟨filter, ids, permission, hscreen, hasked, hcomplete⟩
  have hscope : q.scope = ⟨filter, ids, permission⟩ := (scope_of_complete hcomplete).1
  -- The permission is asked for again, and the answer depends on the asset and the
  -- principal alone.
  rcases exists_params_toJson q with ⟨params, hparams, hcount, hquery, hids, hlist⟩
  refine ⟨params, hparams, ?_⟩
  rw [validate_eq_verdict]
  refine verdict_eq_ok_iff.2 ⟨filter, ids, permission, ?_, hasked, ?_⟩
  · rw [hscope] at hnull hstring hquery hids
    refine screen_again hscreen hnull hstring hcount hquery ?_
    rw [hids, instanceIdsOf_instanceIdsJson]
  · rcases complete_eq_ok_iff.1 hcomplete with hcounts | ⟨hmode, listing, hlisting, rfl⟩
    · exact complete_eq_ok_iff.2 (.inl hcounts)
    · rcases hlist listing rfl with ⟨hsort, hstart, hlimit, hfields⟩
      have hagain := listing_again hlisting hsort hstart hlimit hfields
      exact complete_eq_ok_iff.2 (.inr ⟨hmode, listing, hagain, rfl⟩)

/-- A list with numerals, a word for a direction and a wrapped number. -/
def looselyTyped : Request :=
  { asset := ⟨"aX"⟩, principal := ⟨"7"⟩, format := .structured, mode := .list,
    params := ((Params.empty.set .query (.object [("a", Wrapper.long.wrap (.string "-5"))])).set
      .sort (.object [("b", .string "DESC"), ("$type", .ofUInt64 1)])).set .limit (.string " +3 ") }

theorem validate_toJson_looselyTyped :
    let provider : PermissionProvider Id := fun _ _ => .ok Scope.unconstrained
    let q : Query := .list ⟨.object [("a", .long (-5))], [], Scope.unconstrained⟩
      ⟨0, some ⟨3, by decide⟩, [⟨"b", .descending⟩, ⟨"$type", .ascending⟩], []⟩
    (looselyTyped.validate provider).run = .ok q ∧
      ∃ params, Params.ofJson? q.toJson = some params ∧
        ({ looselyTyped with format := .structured, params := params }.validate provider).run =
          .ok q := by
  intro provider q
  have h : (looselyTyped.validate provider).run = .ok q := rfl
  exact ⟨h, validate_toJson provider looselyTyped h (fun hnull => by cases hnull)
    (fun text hstring => by cases hstring)⟩

end Request

end Fieldwork
