import Fieldwork.Proofs.Json.RoundTrip
import Fieldwork.Proofs.Submission.Meaning
import Fieldwork.Proofs.Submission.Verdict

/-!
# Values and Their Texts

A parameter that takes a JSON value also takes its text.

A client that sends pairs of strings has no other way to send a filter, an
order or a choice of fields. So what is sent as a text should come to the same
as the value that it is the text of, and it does: validation looks at a
parameter through its check only, and the check converts a text to what it
converts the value to.

There is one exception. Each of the three checks takes `null` for a parameter
that is absent, and it does so before the text is looked at. A text that
spells `null` is converted like any other, and is then a value of its own: a
filter that is `null`, and something that is neither an order nor a list of
names.

## Main definitions

* `Parameter.valued`: The parameters that take a value or its text.
* `Request.send`: The request with a value sent for a parameter.
* `Alike`: Two values that a check does not tell apart.
* `Query.withFilter`: The query with another filter.

## Theorems

* `validate_send_of_alike`: Only what a check makes of a value counts.
* `alike_of_parse?`: A text and its value are alike, unless it spells `null`.
* `validate_spelledFilter`, `alike_spelledNull`: What a spelled `null` is.
* `verdict_spelledNull`: What it does to a request that `null` lets pass.
* `validate_spelled`: Sending a text and sending its value.
-/

namespace Fieldwork

/-- The parameters that take a JSON value or its text. -/
def Parameter.valued : List Parameter :=
  [query, sort, fields]

theorem Parameter.mem_valued_iff {parameter : Parameter} :
    parameter ∈ valued ↔ parameter = query ∨ parameter = sort ∨ parameter = fields := by
  simp only [valued, List.mem_cons, List.not_mem_nil, or_false]

/-- The query with another filter. -/
def Query.withFilter (filter : Extended) : Query → Query
  | count scope => count { scope with filter := filter }
  | list scope listing => list { scope with filter := filter } listing

namespace Submission

/-- The check of a parameter does not tell two values apart. -/
def Alike (x y : Json) : Parameter → Prop
  | .count => True
  | .start => startOf (some x) = startOf (some y)
  | .limit => limitOf (some x) = limitOf (some y)
  | .sort => sortOf (some x) = sortOf (some y)
  | .fields => fieldsOf (some x) = fieldsOf (some y)
  | .query => filterOf (some x) = filterOf (some y)
  | .instanceIds => instanceIdsOf (some x) = instanceIdsOf (some y)

-- A check reads one parameter, so two values make a difference to it only if
-- that is the parameter they were sent for.
theorem check_set {α : Type} {check : Option Json → α} {parameter other : Parameter} {x y : Json}
    (h : other = parameter → check (some x) = check (some y)) (params : Params) :
    check ((params.set parameter x).value? other) =
      check ((params.set parameter y).value? other) := by
  rw [Params.value?_set, Params.value?_set]
  by_cases hother : other = parameter
  · rw [if_pos hother, if_pos hother, h hother]
  · rw [if_neg hother, if_neg hother]

section Spelled

variable {parameter : Parameter} {text : String} {value : Json}

theorem carried?_of_ne_string (h : ∀ s, value ≠ .string s) : value.carried? = some value := by
  cases value with
  | string s => exact absurd rfl (h s)
  | _ => rfl

/-- A text is converted to what its value is converted to. -/
theorem extendedOf_of_parse? (h : Json.parse? text = some value) (hs : ∀ s, value ≠ .string s)
    (parameter : Parameter) :
    extendedOf parameter (.string text) = extendedOf parameter value := by
  have htext : (Json.string text).carried? = value.carried? :=
    h.trans (carried?_of_ne_string hs).symm
  rw [extendedOf_eq, extendedOf_eq, htext]

/-- A text is like its value, unless it spells `null`. -/
theorem alike_of_parse? (hp : parameter ∈ Parameter.valued) (h : Json.parse? text = some value)
    (hs : ∀ s, value ≠ .string s) (hnull : value ≠ .null) :
    Alike (.string text) value parameter := by
  have htext : Json.string text ≠ .null := fun h => by cases h
  have hconverted := extendedOf_of_parse? h hs
  rcases Parameter.mem_valued_iff.1 hp with rfl | rfl | rfl
  · rw [Alike, filterOf.eq_3 _ htext, filterOf.eq_3 _ hnull, hconverted]
  · rw [Alike, sortOf.eq_3 _ htext, sortOf.eq_3 _ hnull, hconverted]
  · rw [Alike, fieldsOf.eq_3 _ htext, fieldsOf.eq_3 _ hnull, hconverted]

end Spelled

section SpelledNull

variable {text : String}

theorem extendedOf_spelledNull (h : Json.parse? text = some .null) (parameter : Parameter) :
    extendedOf parameter (.string text) = .ok .null :=
  extendedOf_of_parse? h (fun s h => by cases h) parameter

theorem filterOf_spelledNull (h : Json.parse? text = some .null) :
    filterOf (some (.string text)) = .ok .null := by
  rw [filterOf.eq_3 _ (fun h => by cases h), extendedOf_spelledNull h]

theorem sortOf_spelledNull (h : Json.parse? text = some .null) :
    sortOf (some (.string text)) = .error .invalidSort := by
  rw [sortOf.eq_3 _ (fun h => by cases h), extendedOf_spelledNull h]
  rfl

theorem fieldsOf_spelledNull (h : Json.parse? text = some .null) :
    fieldsOf (some (.string text)) = .error .invalidFields := by
  rw [fieldsOf.eq_3 _ (fun h => by cases h), extendedOf_spelledNull h]
  rfl

/-- An order or a choice of fields that spells `null` is like a value that is
    neither. -/
theorem alike_spelledNull {parameter : Parameter} (hp : parameter ∈ Parameter.valued)
    (hquery : parameter ≠ .query) (h : Json.parse? text = some .null) (b : Bool) :
    Alike (.string text) (.bool b) parameter := by
  rcases Parameter.mem_valued_iff.1 hp with rfl | rfl | rfl
  · exact absurd rfl hquery
  · exact sortOf_spelledNull h
  · exact fieldsOf_spelledNull h

end SpelledNull

end Submission

namespace Request

open Submission

/-- The request with a value sent for a parameter. -/
def send (r : Request) (parameter : Parameter) (value : Json) : Request :=
  { r with params := r.params.set parameter value }

section Send

variable {m : Type → Type} [Monad m] (provider : PermissionProvider m) (r : Request)
  {parameter : Parameter}

theorem isSome_set (params : Params) (parameter other : Parameter) (x y : Json) :
    ((params.set parameter x).value? other).isSome =
      ((params.set parameter y).value? other).isSome := by
  rw [Params.value?_set, Params.value?_set]
  by_cases hother : other = parameter
  · rw [if_pos hother, if_pos hother, Option.isSome_some, Option.isSome_some]
  · rw [if_neg hother, if_neg hother]

-- What is supported is said of parameters that were sent, not of their values.
theorem screenSupport_send (parameter : Parameter) (x y : Json) :
    (r.send parameter x).screenSupport = (r.send parameter y).screenSupport := by
  unfold screenSupport send
  rw [isSome_set r.params parameter .count x y, isSome_set r.params parameter .sort x y,
    isSome_set r.params parameter .fields x y]

/-- The screen looks at two values, each through its check. -/
theorem screen_send {x y : Json}
    (hquery : .query = parameter → filterOf (some x) = filterOf (some y))
    (hids : .instanceIds = parameter → instanceIdsOf (some x) = instanceIdsOf (some y)) :
    (r.send parameter x).screen = (r.send parameter y).screen := by
  have hfilter : filterOf ((r.send parameter x).params.value? .query) =
      filterOf ((r.send parameter y).params.value? .query) := check_set hquery r.params
  have hchosen : instanceIdsOf ((r.send parameter x).params.value? .instanceIds) =
      instanceIdsOf ((r.send parameter y).params.value? .instanceIds) := check_set hids r.params
  rw [screen, screen, screenSupport_send r parameter x y, hfilter, hchosen]

/-- A list looks at four values, each through its check. -/
theorem listing_send {x y : Json} (hsort : .sort = parameter → sortOf (some x) = sortOf (some y))
    (hstart : .start = parameter → startOf (some x) = startOf (some y))
    (hlimit : .limit = parameter → limitOf (some x) = limitOf (some y))
    (hfields : .fields = parameter → fieldsOf (some x) = fieldsOf (some y)) :
    (r.send parameter x).listing = (r.send parameter y).listing := by
  have horder : sortOf ((r.send parameter x).params.value? .sort) =
      sortOf ((r.send parameter y).params.value? .sort) := check_set hsort r.params
  have hskipped : startOf ((r.send parameter x).params.value? .start) =
      startOf ((r.send parameter y).params.value? .start) := check_set hstart r.params
  have hbound : limitOf ((r.send parameter x).params.value? .limit) =
      limitOf ((r.send parameter y).params.value? .limit) := check_set hlimit r.params
  have hnames : fieldsOf ((r.send parameter x).params.value? .fields) =
      fieldsOf ((r.send parameter y).params.value? .fields) := check_set hfields r.params
  rw [listing, listing, horder, hskipped, hbound, hnames]

/-- Values that a check does not tell apart are validated alike. -/
theorem validate_send_of_alike {x y : Json} (h : Alike x y parameter) :
    (r.send parameter x).validate provider = (r.send parameter y).validate provider := by
  have hmode : (r.send parameter x).mode = (r.send parameter y).mode := rfl
  have hscreen : (r.send parameter x).screen = (r.send parameter y).screen := by
    refine screen_send r ?_ ?_ <;> (rintro rfl; exact h)
  have hlisting : (r.send parameter x).listing = (r.send parameter y).listing := by
    refine listing_send r ?_ ?_ ?_ ?_ <;> (rintro rfl; exact h)
  refine validate_congr provider rfl rfl hscreen fun scope => ?_
  rw [complete, complete, hmode, hlisting]

end Send

section SpelledNull

variable {r : Request} {parameter : Parameter} {text : String}

/-- The filter of a spelled `null` is `null`, and nothing else is screened
    otherwise. -/
theorem screen_spelledFilter (h : Json.parse? text = some .null) :
    (r.send .query (.string text)).screen =
      (r.send .query .null).screen.map fun screened => (.null, screened.2) := by
  have hspelled : filterOf ((r.send .query (.string text)).params.value? .query) = .ok .null :=
    filterOf_spelledNull h
  have hnull : filterOf ((r.send .query .null).params.value? .query) = .ok .empty := rfl
  have hids : (r.send .query (.string text)).params.value? .instanceIds =
      (r.send .query .null).params.value? .instanceIds := rfl
  rw [screen, screen, screenSupport_send r .query (.string text) .null, hspelled, hnull, hids]
  -- The checks around the filter do not look at it.
  rcases (r.send .query .null).screenSupport with error | -
  · rfl
  · rcases instanceIdsOf ((r.send .query .null).params.value? .instanceIds) with error | ids
    · rfl
    · rfl

-- No check of a list looks at the filter, so it can be put in afterwards.
theorem complete_withFilter (scope : Scope) (filter : Extended) :
    r.complete { scope with filter := filter } =
      (r.complete scope).map (Query.withFilter filter) := by
  unfold complete
  rcases r.mode with - | -
  · rfl
  · rcases r.listing with error | listing
    · rfl
    · rfl

/-- A spelled `null` as the filter gives the query that `null` gives, with
    `null` as its filter. -/
theorem validate_spelledFilter {m : Type → Type} [Monad m] [LawfulMonad m]
    (provider : PermissionProvider m) (h : Json.parse? text = some .null) :
    (r.send .query (.string text)).validate provider =
      Except.map (Query.withFilter .null) <$> (r.send .query .null).validate provider := by
  have hcomplete : ∀ scope, (r.send .query (.string text)).complete scope =
      (r.send .query .null).complete scope := fun _ => rfl
  rw [validate, validate, screen_spelledFilter h]
  rcases (r.send .query .null).screen with error | ⟨filter, ids⟩
  · dsimp only [Except.map]
    rw [map_pure]
    rfl
  · dsimp only [Except.map]
    -- Both ask the provider the same, and differ in what they do with the answer.
    rw [map_bind]
    refine congrArg _ (funext fun asked => ?_)
    rcases asked with error | permission
    · dsimp only
      rw [map_pure]
      rfl
    · dsimp only
      rw [map_pure, hcomplete, complete_withFilter ⟨filter, ids, permission⟩ .null]
      rcases (r.send .query .null).complete ⟨filter, ids, permission⟩ with error | q
      · rfl
      · rfl

-- The order is the first check of a list, so nothing else can be blamed.
theorem listing_spelledSort (h : Json.parse? text = some .null) :
    (r.send .sort (.string text)).listing = .error .invalidSort := by
  have hsort : sortOf ((r.send .sort (.string text)).params.value? .sort) = .error .invalidSort :=
    sortOf_spelledNull h
  rw [listing, hsort]
  rfl

-- The choice of fields is the last check, so what comes before has to pass for
-- it to be blamed; that it passes with `null` says so.
theorem listing_spelledFields (h : Json.parse? text = some .null) {found : Listing}
    (hnull : (r.send .fields .null).listing = .ok found) :
    (r.send .fields (.string text)).listing = .error .invalidFields := by
  rcases listing_eq_ok_iff.1 hnull with ⟨hsort, hstart, hlimit, -⟩
  have hfields : fieldsOf ((r.send .fields (.string text)).params.value? .fields) =
      .error .invalidFields := fieldsOf_spelledNull h
  -- The fields are the last of the listing to be checked, and the others are what
  -- they were.
  have hother : ∀ other, other ≠ .fields →
      (r.send .fields (.string text)).params.value? other =
        (r.send .fields .null).params.value? other := by
    intro other hne
    exact (if_neg hne).trans (if_neg hne).symm
  rw [listing, hother .sort (by decide), hother .start (by decide), hother .limit (by decide),
    hsort, hstart, hlimit, hfields]
  rfl

/-- Where `null` is accepted as an order or a choice of fields, a text that
    spells it is accepted for a count, which does not look at it, and refused
    for a list. -/
theorem verdict_spelledNull (hp : parameter ∈ Parameter.valued) (hquery : parameter ≠ .query)
    (h : Json.parse? text = some .null) {asked : Except AuthorizationError Json} {q : Query}
    (hnull : (r.send parameter .null).verdict asked = .ok q) :
    (r.send parameter (.string text)).verdict asked =
      if q.isCount then .ok q
      else .error (.client (if parameter = .sort then .invalidSort else .invalidFields)) := by
  rcases verdict_eq_ok_iff.1 hnull with ⟨filter, ids, permission, hscreen, rfl, hcomplete⟩
  have hids : parameter ≠ .instanceIds := by
    rintro rfl
    exact absurd hp (by decide)
  -- What is checked before the provider is asked looks at neither of the two.
  have hscreen' : (r.send parameter (.string text)).screen = .ok (filter, ids) := by
    rw [← hscreen]
    exact screen_send r (fun h => absurd h.symm hquery) (fun h => absurd h.symm hids)
  rw [verdict_ok hscreen']
  -- A count does not look at the listing, so only a list sees the difference.
  rcases complete_eq_ok_iff.1 hcomplete with ⟨hmode, rfl⟩ | ⟨hmode, listing, hlisting, rfl⟩
  · have hcount : (r.send parameter (.string text)).mode = .count := hmode
    rw [complete_eq_ok_iff.2 (.inl ⟨hcount, rfl⟩)]
    rfl
  · have hlist : (r.send parameter (.string text)).mode = .list := hmode
    rw [complete, hlist]
    rcases Parameter.mem_valued_iff.1 hp with rfl | rfl | rfl
    · exact absurd rfl hquery
    · rw [listing_spelledSort h]
      rfl
    · rw [listing_spelledFields h hlisting]
      rfl

end SpelledNull

/-- Sending a text and sending the value that it is the text of, for a filter,
    an order or a choice of fields and whatever else is sent and asked for.
    Unless the value is `null`, nothing is different. A text that spells `null`
    as the filter gives the query that `null` gives, but with `null` as its
    filter. As an order or a choice of fields it is like any value that is
    neither: what `null` lets pass as a count passes, and what it lets pass as
    a list is refused. -/
theorem validate_spelled {parameter : Parameter} (hp : parameter ∈ Parameter.valued) {text : String}
    {value : Json} (h : Json.parse? text = some value) (hs : ∀ s, value ≠ .string s) (r : Request) :
    (value ≠ .null → ∀ {m : Type → Type} [Monad m] (provider : PermissionProvider m),
      (r.send parameter (.string text)).validate provider =
        (r.send parameter value).validate provider) ∧
    (value = .null → parameter = .query →
      ∀ {m : Type → Type} [Monad m] [LawfulMonad m] (provider : PermissionProvider m),
        (r.send parameter (.string text)).validate provider =
          Except.map (Query.withFilter .null) <$> (r.send parameter .null).validate provider) ∧
    (value = .null → parameter ≠ .query →
      (∀ {m : Type → Type} [Monad m] (provider : PermissionProvider m) (b : Bool),
        (r.send parameter (.string text)).validate provider =
          (r.send parameter (.bool b)).validate provider) ∧
      ∀ asked q, (r.send parameter .null).verdict asked = .ok q →
        (r.send parameter (.string text)).verdict asked =
          if q.isCount then .ok q
          else .error (.client
            (if parameter = .sort then .invalidSort else .invalidFields))) := by
  refine ⟨fun hnull m _ provider => ?_, ?_, ?_⟩
  · exact validate_send_of_alike provider r (alike_of_parse? hp h hs hnull)
  · rintro rfl rfl m _ _ provider
    exact validate_spelledFilter provider h
  · rintro rfl hquery
    refine ⟨fun {m} _ provider b => ?_, fun asked q => verdict_spelledNull hp hquery h⟩
    exact validate_send_of_alike provider r (alike_spelledNull hp hquery h b)

/-- A request for all submissions of an asset. -/
def bareRequest (mode : Mode) : Request :=
  { asset := ⟨"aX"⟩, principal := ⟨"7"⟩, format := .structured, mode := mode,
    params := Params.empty }

/-- An order as a text, and the order. -/
theorem validate_spelled_order :
    let text := "\x7b\"b\":\"Desc\"\x7d"
    let value := Json.object [("b", .string "Desc")]
    let provider : PermissionProvider Id := fun _ _ => .ok Scope.unconstrained
    Parameter.sort ∈ Parameter.valued ∧ Json.parse? text = some value ∧
      (∀ s, value ≠ .string s) ∧ value ≠ .null ∧
      ((bareRequest .list).send .sort value).validate provider =
        .ok (.list ⟨.empty, [], Scope.unconstrained⟩ ⟨0, none, [⟨"b", .descending⟩], []⟩) ∧
      ((bareRequest .list).send .sort (.string text)).validate provider =
        ((bareRequest .list).send .sort value).validate provider := by
  intro text value provider
  have hvalued : Parameter.sort ∈ Parameter.valued := by
    decide
  have htext : text = value.compact := by
    decide +kernel
  have hvalue : Json.parse? text = some value := by
    rw [htext]
    exact Json.parse?_compact (by decide) (by decide)
  have hstring : ∀ s, value ≠ .string s := fun s => Json.noConfusion
  have hnull : value ≠ .null := Json.noConfusion
  exact ⟨hvalued, hvalue, hstring, hnull, rfl,
    (validate_spelled hvalued hvalue hstring (bareRequest .list)).1 hnull provider⟩

/-- A text that spells `null` and the value `null` do not come to the same. As
    the filter they give two queries, and as an order or a choice of fields one
    of them is refused. -/
theorem validate_spelledNull_ne :
    let provider : PermissionProvider Id := fun _ _ => .ok Scope.unconstrained
    let answer (parameter : Parameter) (value : Json) :=
      ((bareRequest .list).send parameter value).validate provider
    let query (filter : Extended) : Query :=
      .list ⟨filter, [], Scope.unconstrained⟩ ⟨0, none, [], []⟩
    Json.parse? "null" = some .null ∧
      answer .query (.string "null") = .ok (query .null) ∧
      answer .sort (.string "null") = .error (.client .invalidSort) ∧
      answer .fields (.string "null") = .error (.client .invalidFields) ∧
      (∀ parameter ∈ Parameter.valued, answer parameter .null = .ok (query .empty)) ∧
      ∀ parameter ∈ Parameter.valued,
        answer parameter (.string "null") ≠ answer parameter .null := by
  intro provider answer query
  have hparse : Json.parse? "null" = some .null := by
    rfl
  have hquery : answer .query (.string "null") = .ok (query .null) := by
    rfl
  have hsort : answer .sort (.string "null") = .error (.client .invalidSort) := by
    rfl
  have hfields : answer .fields (.string "null") = .error (.client .invalidFields) := by
    rfl
  have hnull : ∀ parameter ∈ Parameter.valued, answer parameter .null = .ok (query .empty) := by
    intro parameter hp
    rcases Parameter.mem_valued_iff.1 hp with rfl | rfl | rfl <;> rfl
  refine ⟨hparse, hquery, hsort, hfields, hnull, fun parameter hp heq => ?_⟩
  rw [hnull parameter hp] at heq
  rcases Parameter.mem_valued_iff.1 hp with rfl | rfl | rfl
  · cases hquery.symm.trans heq
  · cases hsort.symm.trans heq
  · cases hfields.symm.trans heq

end Request

end Fieldwork
