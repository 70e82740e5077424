import Fieldwork.Proofs.Json.RoundTrip
import Fieldwork.Submission.Params

/-!
# Parameters Come Through

Parameters are what they are, in whichever way they come.

Pairs of strings are taken one after the other, and a later one replaces what
an earlier one has set. A record names a parameter once and is looked up by
name. They mean the same: an object that holds the last string of every known
name among the pairs is read as what the pairs are, in any order of its members
and as a value or as a text.

In the other direction a set of parameters is written without those that are
absent, and `null` is written as it is. So the record shows the difference, and
a reader gets back what was there, parameter by parameter. A value is always
read back. A text is if it nests no deeper than a reader of texts goes, but for
numbers that are read as their neighbours, and is refused otherwise; a member
under a name that is not known may nest as it likes.

## Main definitions

* `Params.reread`: The parameters that a text is read as.
* `Params.IsLast`: What pairs give a name last.
* `Params.Restates`: An object that holds the last values of pairs.

## Theorems

* `recordMembers?_toWrittenMembers`: The fields that a record is read with.
* `fieldValues?_toWritten`: Their values, unless one nests too deep.
* `parse?_compact_object`: A text is read like the object that it is of.
* `value?_ofPairs`: The last value of a name counts.
* `ofMembers_of_restates`: An object is read as the pairs.
* `ofJson?_toJson`: Parameters that are written as a record are read back.
* `transports_faithful`: Both ways in, and the way out and in again.
-/

namespace Fieldwork

/-- The fields of an object without a key that comes twice are its members with
    known names, in their order. -/
theorem Written.recordMembers?_toWrittenMembers (names : List String)
    {done : List (String × Written)} {members : List (String × Json)}
    (h : Ordered.Distinct members)
    (hdone : ∀ key ∈ Ordered.keys members, key ∉ Ordered.keys done) :
    recordMembers? names false done (Json.toWrittenMembers members) =
      some (done ++ (members.filter fun entry => names.contains entry.1).map
        fun entry => (entry.1, entry.2.toWritten)) := by
  -- What has been read so far grows, and its keys are none of those to come.
  induction members generalizing done with
  | nil => exact congrArg some (List.append_nil done).symm
  | cons entry rest ih =>
    rcases entry with ⟨key, value⟩
    rcases List.nodup_cons.1 h with ⟨hkey, hrest⟩
    rcases List.forall_mem_cons.1 hdone with ⟨hnew, hothers⟩
    rw [Json.toWrittenMembers, recordMembers?, unquote?_escape, Option.bind_some]
    by_cases hname : names.contains key = true
    · -- The key is none of those before it, and none of the later ones is the key.
      have hlater : ∀ other ∈ Ordered.keys rest,
          other ∉ Ordered.keys (done ++ [(key, value.toWritten)]) := by
        intro other hother hmem
        rw [Ordered.keys, List.map_append, List.mem_append] at hmem
        rcases hmem with hmem | hmem
        · exact hothers other hother hmem
        · exact hkey (List.mem_singleton.1 hmem ▸ hother)
      rw [if_pos hname, Ordered.lookup_eq_none_iff.2 hnew, Option.isSome_none,
        if_neg Bool.false_ne_true, ih hrest hlater, List.filter_cons, if_pos hname, List.map_cons,
        List.append_assoc]
      rfl
    · rw [if_neg hname, if_neg Bool.false_ne_true, ih hrest hothers, List.filter_cons,
        if_neg hname]

namespace Parameter

theorem mem_all (parameter : Parameter) : parameter ∈ all := by
  cases parameter <;> decide

theorem name_mem_names (parameter : Parameter) : parameter.name ∈ all.map name :=
  List.mem_map_of_mem parameter.mem_all

/-- What is found under a name has the name. -/
theorem name_of_ofName? {name : String} {parameter : Parameter}
    (h : ofName? name = some parameter) : parameter.name = name := by
  have hname := List.find?_some h
  exact of_decide_eq_true hname

end Parameter

namespace Params

section Records

variable {members : List (String × Json)}

/-- The members of an object that are parameters. -/
def known (members : List (String × Json)) : List (String × Json) :=
  members.filter fun entry => (Parameter.all.map Parameter.name).contains entry.1

/-- Members that are no parameters do not count. -/
theorem ofMembers_known (members : List (String × Json)) :
    ofMembers (known members) = ofMembers members := by
  refine Params.ext (funext fun parameter => ?_)
  have hname : (Parameter.all.map Parameter.name).contains parameter.name = true :=
    List.contains_iff_mem.2 parameter.name_mem_names
  show (known members).lookup parameter.name = members.lookup parameter.name
  rw [known]
  -- What is kept has the same first entry under every known name.
  induction members with
  | nil => rfl
  | cons entry rest ih =>
    rcases entry with ⟨key, value⟩
    by_cases hkey : parameter.name = key
    · subst hkey
      rw [List.filter_cons, if_pos hname, List.lookup_cons_self, List.lookup_cons_self]
    · have hbeq : (parameter.name == key) = false := beq_false_of_ne hkey
      rw [List.filter_cons, List.lookup_cons, hbeq, ← ih]
      split
      · rw [List.lookup_cons, hbeq]
      · rfl

/-- The value of a field is read, unless it nests too deep within a record. -/
theorem fieldValue?_toWritten {value : Json} (h : value.DistinctKeys) :
    value.toWritten.fieldValue? =
      if value.depth < Json.depthLimit then some value.reread else none := by
  have hlimit : value.depth < Json.depthLimit ↔ value.depth ≤ Json.depthLimit - 1 :=
    Nat.lt_iff_le_pred (by decide)
  rw [Written.fieldValue?]
  split
  · rename_i hdepth
    exact Json.json?_toWritten value h _ (hlimit.1 hdepth)
  · -- What a reader finds nests within its limit, so it finds nothing here.
    rename_i hdepth
    rw [Option.eq_none_iff_forall_ne_some]
    intro found hfound
    have hfits := Written.depth_le_of_json? _ hfound
    rw [Json.depth_toWritten] at hfits
    exact hdepth (hlimit.2 hfits)

/-- The values of fields are read, unless one of them nests too deep. -/
theorem fieldValues?_toWritten (h : Json.DistinctKeysInMembers members) :
    fieldValues? (members.map fun entry => (entry.1, entry.2.toWritten)) =
      if Json.depthOfMembers members < Json.depthLimit then some (Json.rereadMembers members)
      else none := by
  induction members with
  | nil => rfl
  | cons entry rest ih =>
    rcases entry with ⟨key, value⟩
    rw [List.map_cons, fieldValues?, ih h.2, fieldValue?_toWritten h.1]
    -- The members nest as deep as the deepest of them, so one that is refused refuses
    -- all.
    by_cases hvalue : value.depth < Json.depthLimit
    · rw [if_pos hvalue]
      by_cases hrest : Json.depthOfMembers rest < Json.depthLimit
      · rw [if_pos hrest, Json.depthOfMembers, if_pos (Nat.max_lt.2 ⟨hvalue, hrest⟩)]
        rfl
      · rw [if_neg hrest, Json.depthOfMembers, if_neg fun hboth => hrest (Nat.max_lt.1 hboth).2]
        rfl
    · rw [if_neg hvalue, Json.depthOfMembers, if_neg fun hboth => hvalue (Nat.max_lt.1 hboth).1]
      rfl

/-- The parameters that the text of a record is read as. -/
def reread (params : Params) : Params :=
  ⟨fun parameter => (params.value? parameter).map Json.reread⟩

theorem ofMembers_rereadMembers (members : List (String × Json)) :
    ofMembers (Json.rereadMembers members) = (ofMembers members).reread := by
  refine Params.ext (funext fun parameter => ?_)
  show (Json.rereadMembers members).lookup parameter.name = _
  rw [Json.rereadMembers_eq, Ordered.lookup_mapValues]
  rfl

/-- The text of an object is read like the object and with its numbers as they
    are read, unless a parameter nests too deep. -/
theorem parse?_compact_object (h : (Json.object members).DistinctKeys) :
    parse? (Json.object members).compact =
      if Json.depthOfMembers (known members) < Json.depthLimit then
        some (ofMembers members).reread
      else none := by
  -- Only the members under known names are read as values.
  have hknown : Json.DistinctKeysInMembers (known members) := by
    rw [Json.distinctKeysInMembers_iff]
    intro entry hentry
    exact Json.distinctKeysInMembers_iff.1 h.2 entry (List.mem_of_mem_filter hentry)
  rw [parse?, Json.read?_compact, Option.bind_some, Json.toWritten_object, ofWritten?,
    Written.record?, Written.recordMembers?_toWrittenMembers _ h.1 fun _ _ => List.not_mem_nil]
  show (fieldValues? ((known members).map fun entry => (entry.1, entry.2.toWritten))).bind
    (fun values => some (ofMembers values)) = _
  rw [fieldValues?_toWritten hknown, ← ofMembers_known members]
  split
  · rw [Option.bind_some, ofMembers_rereadMembers]
  · rfl

end Records

section Pairs

variable {pairs : List (String × String)}

/-- What pairs give a name last. -/
def IsLast (pairs : List (String × String)) (name text : String) : Prop :=
  ∃ before after, pairs = before ++ (name, text) :: after ∧ name ∉ Ordered.keys after

theorem lookup_reverse_eq_some_iff {name text : String} :
    pairs.reverse.lookup name = some text ↔ IsLast pairs name text := by
  rw [List.lookup_eq_some_iff]
  -- What comes first in the reversed list comes last in the list.
  constructor
  · rintro ⟨after, before, hpairs, hafter⟩
    refine ⟨before.reverse, after.reverse, ?_, fun hmem => ?_⟩
    · rw [← List.reverse_reverse pairs, hpairs, List.reverse_append, List.reverse_cons,
        List.append_assoc, List.singleton_append]
    · rcases List.mem_map.1 hmem with ⟨pair, hpair, rfl⟩
      exact bne_iff_ne.1 (hafter pair (List.mem_reverse.1 hpair)) rfl
  · rintro ⟨before, after, rfl, hafter⟩
    refine ⟨after.reverse, before.reverse, ?_, fun pair hpair => ?_⟩
    · rw [List.reverse_append, List.reverse_cons, List.append_assoc, List.singleton_append]
    · rw [bne_iff_ne]
      rintro rfl
      exact hafter (List.mem_map_of_mem (List.mem_reverse.1 hpair))

/-- A pair sets the parameter that it names, and no other. -/
theorem value?_setNamed (params : Params) (name value : String) (parameter : Parameter) :
    (params.setNamed name value).value? parameter =
      if parameter.name = name then some (.string value) else params.value? parameter := by
  rw [setNamed]
  split
  · rename_i found hfound
    rw [value?_set]
    -- Two parameters do not share a name.
    by_cases h : parameter = found
    · rw [if_pos h, if_pos (h ▸ Parameter.name_of_ofName? hfound)]
    · refine (if_neg h).trans (if_neg fun hname => h (Parameter.name_inj ?_)).symm
      exact hname.trans (Parameter.name_of_ofName? hfound).symm
  · rename_i hnone
    rw [if_neg]
    rintro rfl
    rw [Parameter.ofName?_name] at hnone
    cases hnone

/-- The last value of a name counts, whatever came before it and between. -/
theorem value?_ofPairs (pairs : List (String × String)) (parameter : Parameter) :
    (ofPairs pairs).value? parameter = (pairs.reverse.lookup parameter.name).map Json.string := by
  -- The fold sets pairs from the front, so what was set before counts only where
  -- none of them does.
  have hfold : ∀ params : Params,
      (pairs.foldl (fun params pair => params.setNamed pair.1 pair.2) params).value? parameter =
        ((pairs.reverse.lookup parameter.name).map Json.string).or (params.value? parameter) := by
    induction pairs with
    | nil => exact fun _ => rfl
    | cons pair rest ih =>
      intro params
      rcases pair with ⟨name, value⟩
      rw [List.foldl_cons, ih, value?_setNamed, List.reverse_cons, List.lookup_append,
        List.lookup_cons, List.lookup_nil]
      by_cases hname : parameter.name = name
      · rw [if_pos hname, beq_iff_eq.2 hname]
        cases rest.reverse.lookup parameter.name <;> rfl
      · rw [if_neg hname, beq_false_of_ne hname, Option.or_none]
  rw [ofPairs, hfold, empty, Option.or_none]

/-- Strings are read back. -/
theorem reread_ofPairs (pairs : List (String × String)) :
    (ofPairs pairs).reread = ofPairs pairs := by
  refine Params.ext (funext fun parameter => ?_)
  show ((ofPairs pairs).value? parameter).map Json.reread = _
  rw [value?_ofPairs, Option.map_map]
  rfl

/-- An object that says what pairs say: every known name among them once, with
    its last value as a string, and nothing else. Its members may come in any
    order. -/
structure Restates (pairs : List (String × String)) (members : List (String × Json)) : Prop where
  /-- No name comes twice. -/
  distinct : Ordered.Distinct members
  /-- What is in it. -/
  mem_iff : ∀ name value, (name, value) ∈ members ↔
    (∃ parameter : Parameter, parameter.name = name) ∧
      ∃ text, IsLast pairs name text ∧ value = .string text

/-- Such an object is read as the pairs are. -/
theorem ofMembers_of_restates {members : List (String × Json)} (h : Restates pairs members) :
    ofMembers members = ofPairs pairs := by
  refine Params.ext (funext fun parameter => Option.ext fun value => ?_)
  show members.lookup parameter.name = some value ↔ _
  rw [Ordered.lookup_eq_some_iff_mem h.distinct, h.mem_iff, value?_ofPairs,
    Option.map_eq_some_iff, and_iff_right ⟨parameter, rfl⟩]
  simp only [lookup_reverse_eq_some_iff, @eq_comm _ value]

end Pairs

section Members

variable {params : Params}

theorem mem_members_iff {name : String} {value : Json} :
    (name, value) ∈ params.members ↔
      ∃ parameter : Parameter, parameter.name = name ∧ params.value? parameter = some value := by
  rw [members, List.mem_filterMap]
  constructor
  · rintro ⟨parameter, -, h⟩
    rcases Option.map_eq_some_iff.1 h with ⟨found, hfound, heq⟩
    cases heq
    exact ⟨parameter, rfl, hfound⟩
  · rintro ⟨parameter, rfl, hvalue⟩
    exact ⟨parameter, parameter.mem_all, by rw [hvalue]; rfl⟩

theorem lookup_filterMap (params : Params) (parameter : Parameter) (sent : List Parameter) :
    (sent.filterMap fun other =>
        (params.value? other).map fun value => (other.name, value)).lookup parameter.name =
      if parameter ∈ sent then params.value? parameter else none := by
  induction sent with
  | nil => rfl
  | cons other rest ih =>
    by_cases h : parameter = other
    · subst h
      cases hvalue : params.value? parameter with
      | some value => simp [hvalue]
      | none => simp [hvalue, ih]
    · have hname : (parameter.name == other.name) = false :=
        beq_false_of_ne fun hname => h (Parameter.name_inj hname)
      cases hvalue : params.value? other with
      | some value => simp [hvalue, List.lookup_cons, hname, ih, h]
      | none => simp [hvalue, ih, h]

/-- Parameters that are written as a record are read back. -/
theorem ofJson?_toJson (params : Params) : ofJson? params.toJson = some params := by
  refine congrArg some (Params.ext (funext fun parameter => ?_))
  have hmem : parameter ∈ Parameter.all := by cases parameter <;> decide
  exact (lookup_filterMap params parameter Parameter.all).trans (if_pos hmem)

/-- A record names no parameter twice. -/
theorem distinct_members (params : Params) : Ordered.Distinct params.members := by
  have hall : Parameter.all.Nodup := by decide
  rw [Ordered.Distinct, Ordered.keys, members, List.map_filterMap]
  refine hall.filterMap fun parameter other name hself hother => ?_
  simp only [Option.map_map, Option.mem_def, Option.map_eq_some_iff, Function.comp_apply]
    at hself hother
  rcases hself with ⟨-, -, hself⟩
  rcases hother with ⟨-, -, hother⟩
  exact Parameter.name_inj (hself.trans hother.symm)

/-- The record of pairs says what they say. -/
theorem restates_members (pairs : List (String × String)) :
    Restates pairs (ofPairs pairs).members := by
  refine ⟨distinct_members _, fun name value => ?_⟩
  rw [mem_members_iff]
  simp only [value?_ofPairs, Option.map_eq_some_iff, lookup_reverse_eq_some_iff]
  constructor
  · rintro ⟨parameter, rfl, text, hlast, rfl⟩
    exact ⟨⟨parameter, rfl⟩, text, hlast, rfl⟩
  · rintro ⟨⟨parameter, rfl⟩, text, hlast, rfl⟩
    exact ⟨parameter, rfl, text, hlast, rfl⟩

/-- All members of a record are parameters. -/
theorem known_members (params : Params) : known params.members = params.members := by
  refine List.filter_eq_self.2 fun entry hentry => ?_
  rcases mem_members_iff.1 hentry with ⟨parameter, hname, -⟩
  exact List.contains_iff_mem.2 (hname ▸ parameter.name_mem_names)

/-- A record shows which parameters are absent. -/
theorem member?_toJson (params : Params) (parameter : Parameter) :
    params.toJson.member? parameter.name = params.value? parameter :=
  (lookup_filterMap params parameter Parameter.all).trans (if_pos parameter.mem_all)

theorem distinctKeys_toJson
    (h : ∀ parameter value, params.value? parameter = some value → value.DistinctKeys) :
    params.toJson.DistinctKeys := by
  refine ⟨distinct_members params, Json.distinctKeysInMembers_iff.2 fun entry hentry => ?_⟩
  rcases mem_members_iff.1 hentry with ⟨parameter, -, hvalue⟩
  exact h parameter entry.2 hvalue

end Members

/-- Parameters come through, whatever they are.

    There is an object that says what pairs of strings say, and each one that
    does is read as the pairs are, be it a value or a text. A record shows for
    each parameter what was sent or that nothing was. As a value it is always
    read as the parameters that it was written from, so an absent one stays
    absent and `null` stays `null`. As a text it is too, with its numbers as they
    are read, unless it nests deeper than a reader of texts goes. -/
theorem transports_faithful (pairs : List (String × String)) (params : Params) :
    (∃ members, Restates pairs members) ∧
    (∀ members, Restates pairs members →
      ofJson? (.object members) = some (ofPairs pairs) ∧
        parse? (Json.object members).compact = some (ofPairs pairs)) ∧
    (∀ parameter, params.toJson.member? parameter.name = params.value? parameter) ∧
    ofJson? params.toJson = some params ∧
    ((∀ parameter value, params.value? parameter = some value → value.DistinctKeys) →
      parse? params.toJson.compact =
        if params.toJson.depth ≤ Json.depthLimit then some params.reread else none) := by
  refine ⟨⟨_, restates_members pairs⟩, fun members h => ?_, params.member?_toJson,
    ofJson?_toJson params, fun h => ?_⟩
  · have hvalue : ofJson? (.object members) = some (ofPairs pairs) :=
      congrArg some (ofMembers_of_restates h)
    -- The values are strings, so nothing is doubled in them and nothing nests.
    have hstring : ∀ entry ∈ members, ∃ text, entry.2 = .string text := by
      intro entry hentry
      rcases ((h.mem_iff entry.1 entry.2).1 hentry).2 with ⟨text, -, htext⟩
      exact ⟨text, htext⟩
    have hdistinct : (Json.object members).DistinctKeys := by
      refine ⟨h.distinct, Json.distinctKeysInMembers_iff.2 fun entry hentry => ?_⟩
      rcases hstring entry hentry with ⟨text, htext⟩
      rw [htext]
      trivial
    have hdepth : Json.depthOfMembers (known members) ≤ 0 := by
      rw [Json.depthOfMembers_le_iff]
      intro entry hentry
      rcases hstring entry (List.mem_of_mem_filter hentry) with ⟨text, htext⟩
      rw [htext]
      exact Nat.le_refl 0
    refine ⟨hvalue, ?_⟩
    rw [parse?_compact_object hdistinct, if_pos (Nat.lt_of_le_of_lt hdepth (by decide)),
      ofMembers_of_restates h, reread_ofPairs]
  · have hvalue : ofMembers params.members = params := Option.some.inj params.ofJson?_toJson
    rw [toJson, parse?_compact_object (distinctKeys_toJson h), known_members, hvalue]
    rfl

/-- A name that comes twice, with a name that is not known between, and a
    record of which one member is `null`. -/
theorem transports_faithful_repeatedName :
    let pairs := [("limit", "5"), ("page", "2"), ("start", "1"), ("limit", "7")]
    let members : List (String × Json) := [("limit", .string "7"), ("start", .string "1")]
    let params := (empty.set .count .null).set .query (.object [("a", .null)])
    Restates pairs members ∧
      parse? "\x7b\"limit\":\"7\",\"start\":\"1\"\x7d" = some (ofPairs pairs) ∧
      parse? params.toJson.compact = some params ∧
      params.value? .count = some .null ∧ params.value? .start = none := by
  intro pairs members params
  have hmembers : members.Perm (ofPairs pairs).members := List.Perm.swap _ _ _
  have hrestates : Restates pairs members := by
    refine ⟨by decide, fun name value => ?_⟩
    rw [hmembers.mem_iff]
    exact (restates_members pairs).mem_iff name value
  have hdistinct : ∀ parameter value, params.value? parameter = some value →
      value.DistinctKeys := by
    rintro parameter value h
    cases parameter
    all_goals cases h
    all_goals decide
  rcases transports_faithful pairs params with ⟨-, hpairs, -, -, htext⟩
  refine ⟨hrestates, (hpairs members hrestates).2, ?_, rfl, rfl⟩
  -- There is no number in it that could be read as another one.
  have hreread : params.reread = params := by
    refine Params.ext (funext fun parameter => ?_)
    cases parameter <;> rfl
  have hdepth : params.toJson.depth ≤ Json.depthLimit := by
    decide
  rw [htext hdistinct, if_pos hdepth, hreread]

end Params

end Fieldwork
