import Fieldwork.Proofs.Submission.Decides
import Fieldwork.Proofs.Submission.Verdict

/-!
# Acceptance and Blame

Which requests are accepted, which check a refusal is blamed on, and when the
provider is asked.

There are ten checks in a fixed order, and the provider is one of them. Each
has a condition of its own, said without the other checks, and applies to some
modes and formats only. A request is accepted exactly when all of them hold.
Otherwise the answer is about the earliest one that fails, no matter how many
others fail as well, and the provider is asked once if everything before it
holds and not at all if something does not.

`Judged` is what one stage of the validation guarantees against its own part
of the order. Stages compose by appending their parts, so each stage is looked
at once and the whole follows from the order of the stages.

## Main definitions

* `Check`: A check, with `Check.order` the order of all of them.
* `Request.Holds`: A check holds of a request.
* `Blamed`: A check is the earliest that fails.
* `Judged`: What a stage guarantees about its checks.
* `PermissionProvider.noted`: A provider whose calls are noted.

## Theorems

* `Judged.bind`: Stages compose.
* `judged_screen`, `judged_listing`: What is guaranteed before and after the
  provider is asked.
* `validate_verdict`: Acceptance, blame, permission and calls of a request.
-/

namespace Fieldwork

namespace Submission

/-- A check of a request. -/
inductive Check where
  /-- No count was asked for by parameter. -/
  | count
  /-- XML has no order. -/
  | sortInText
  /-- XML has no choice of fields. -/
  | fieldsInText
  /-- The filter. -/
  | query
  /-- The submissions to choose from. -/
  | instanceIds
  /-- The provider resolves the principal. -/
  | provider
  /-- The order. -/
  | sort
  /-- How many to skip. -/
  | start
  /-- How many to return at most. -/
  | limit
  /-- The fields to return. -/
  | fields
  deriving DecidableEq

namespace Check

/-- The checks before the provider is asked. -/
def beforeProvider : List Check :=
  [count, sortInText, fieldsInText, query, instanceIds]

/-- The checks of what only a list needs. -/
def afterProvider : List Check :=
  [sort, start, limit, fields]

/-- All checks in their order. -/
def order : List Check :=
  beforeProvider ++ provider :: afterProvider

/-- The parameter that a check is about, which the provider has none of. -/
def parameter? : Check → Option Parameter
  | count => some .count
  | sortInText | sort => some .sort
  | fieldsInText | fields => some .fields
  | query => some .query
  | instanceIds => some .instanceIds
  | provider => none
  | start => some .start
  | limit => some .limit

/-- Whether a check applies to a mode and a format. -/
def Applies (mode : Mode) (format : Format) : Check → Prop
  | count | query | instanceIds | provider => True
  | sortInText | fieldsInText => mode = .list ∧ format = .text
  | sort | start | limit | fields => mode = .list

/-- The condition of a check on what was sent and on what the provider
    answers. -/
def Passes (params : Params) (asked : Except AuthorizationError Json) : Check → Prop
  | count => params.value? .count = none
  | sortInText => params.value? .sort = none
  | fieldsInText => params.value? .fields = none
  | query => ∀ value ∈ params.value? .query, value ≠ .null → IsFilter value
  | instanceIds => ∀ value ∈ params.value? .instanceIds, IsIdList value
  | provider => ∃ permission, asked = .ok permission
  | sort => ∀ value ∈ params.value? .sort, value ≠ .null → IsOrder value
  | start => ∀ value ∈ params.value? .start, ∃ n, value.Denotes n
  | limit => ∀ value ∈ params.value? .limit, value ≠ .null → ∃ n, value.Denotes n ∧ n ≠ 0
  | fields => ∀ value ∈ params.value? .fields, value ≠ .null → IsProjection value

end Check

/-- A check is to blame if it fails and all before it hold. -/
def Blamed (holds : Check → Prop) (checks : List Check) (check : Check) : Prop :=
  ∃ front rest, checks = front ++ check :: rest ∧ (∀ earlier ∈ front, holds earlier) ∧
    ¬ holds check

/-- What a stage guarantees about its checks: all of them hold if it gives a
    value, and otherwise the error is about the one to blame. -/
def Judged {α : Type} (holds : Check → Prop) (checks : List Check) :
    Except ClientError α → Prop
  | .ok _ => ∀ check ∈ checks, holds check
  | .error e => ∃ check, Blamed holds checks check ∧ check.parameter? = some e.parameter

section Stages

variable {α β : Type} {holds : Check → Prop} {checks later : List Check} {check : Check}

theorem Blamed.append_right (h : Blamed holds checks check) (later : List Check) :
    Blamed holds (checks ++ later) check := by
  rcases h with ⟨front, rest, rfl, hfront, hcheck⟩
  exact ⟨front, rest ++ later, by simp, hfront, hcheck⟩

theorem Blamed.append_left (h : Blamed holds later check) (hall : ∀ c ∈ checks, holds c) :
    Blamed holds (checks ++ later) check := by
  rcases h with ⟨front, rest, rfl, hfront, hcheck⟩
  refine ⟨checks ++ front, rest, by simp, fun earlier hmem => ?_, hcheck⟩
  rcases List.mem_append.1 hmem with hmem | hmem
  · exact hall earlier hmem
  · exact hfront earlier hmem

/-- The next check is to blame when it fails. -/
theorem blamed_cons (hcheck : ¬ holds check) : Blamed holds (check :: later) check := by
  refine ⟨[], later, rfl, ?_, hcheck⟩
  intro earlier hmem
  cases hmem

/-- No request is accepted while a check is to blame. -/
theorem Blamed.not_forall (h : Blamed holds checks check) : ¬ ∀ c ∈ checks, holds c := by
  rcases h with ⟨front, rest, rfl, -, hcheck⟩
  exact fun hall => hcheck (hall check (by simp))

/-- Stages compose: a stage that goes on where another one ended is judged by
    the checks of both. -/
theorem Judged.bind {x : Except ClientError α} {f : α → Except ClientError β}
    (hx : Judged holds checks x) (hf : ∀ a, Judged holds later (f a)) :
    Judged holds (checks ++ later) (x >>= f) := by
  cases x with
  | error e =>
    rcases hx with ⟨check, hblamed, hparameter⟩
    -- The first check at fault is one of the first stage.
    exact ⟨check, hblamed.append_right later, hparameter⟩
  | ok a =>
    -- The first stage found none at fault, so its checks hold in front of the others.
    have hthen := hf a
    change Judged holds (checks ++ later) (f a)
    cases hfa : f a with
    | error e =>
      rw [hfa] at hthen
      rcases hthen with ⟨check, hblamed, hparameter⟩
      exact ⟨check, hblamed.append_left hx, hparameter⟩
    | ok b =>
      rw [hfa] at hthen
      intro check hmem
      rcases List.mem_append.1 hmem with hmem | hmem
      · exact hx check hmem
      · exact hthen check hmem

/-- A stage that gives what another one gave is judged alike. -/
theorem Judged.map {x : Except ClientError α} (f : α → β) (hx : Judged holds checks x) :
    Judged holds checks (x.map f) := by
  cases x <;> exact hx

/-- A check of one parameter, with a stage that goes on after it. -/
theorem Judged.bind_decides {x : Except ClientError α} {f : α → Except ClientError β}
    {parameter : Parameter} {p : Prop} (hx : Decides parameter p x) (hholds : holds check ↔ p)
    (hparameter : check.parameter? = some parameter) (hf : ∀ a, Judged holds later (f a)) :
    Judged holds (check :: later) (x >>= f) := by
  have hstage : Judged holds [check] x := by
    cases x with
    | ok a => exact List.forall_mem_singleton.2 (hholds.2 hx)
    | error e =>
      rcases hx with ⟨hp, rfl⟩
      exact ⟨check, blamed_cons (fun h => hp (hholds.1 h)), hparameter⟩
  exact hstage.bind hf

/-- A check that refuses on a condition, with a stage that goes on otherwise. -/
theorem Judged.guard {c : Prop} [Decidable c] {e : ClientError} {x : Except ClientError α}
    (hholds : holds check ↔ ¬ c) (hparameter : check.parameter? = some e.parameter)
    (hx : Judged holds later x) :
    Judged holds (check :: later) (if c then .error e else x) := by
  by_cases hc : c
  · rw [if_pos hc]
    exact ⟨check, blamed_cons (fun h => hholds.1 h hc), hparameter⟩
  · rw [if_neg hc]
    have hcheck : Judged holds [check] (.ok ()) := List.forall_mem_singleton.2 (hholds.2 hc)
    exact hcheck.bind fun _ => hx

end Stages

end Submission

/-- An error is about a check: about its parameter, or it is the one of the
    provider. -/
def QueryError.IsAbout (asked : Except AuthorizationError Json) (check : Submission.Check) :
    QueryError → Prop
  | client e => check.parameter? = some e.parameter
  | authorization e => check = .provider ∧ asked = .error e

/-- A provider whose calls are noted beside its own state. -/
def PermissionProvider.noted {σ : Type} (provider : PermissionProvider (StateM σ)) :
    PermissionProvider (StateM (σ × List (AssetId × PrincipalId))) :=
  fun asset principal state =>
    let (asked, after) := provider asset principal state.1
    (asked, after, state.2 ++ [(asset, principal)])

namespace Request

open Submission

/-- A check holds of a request if it passes or does not apply. -/
def Holds (r : Request) (asked : Except AuthorizationError Json) (check : Check) : Prop :=
  check.Applies r.mode r.format → check.Passes r.params asked

section Stages

variable (r : Request) (asked : Except AuthorizationError Json)

theorem holds_iff (check : Check) (h : check.Applies r.mode r.format) :
    r.Holds asked check ↔ check.Passes r.params asked :=
  ⟨fun hholds => hholds h, fun hpasses _ => hpasses⟩

/-- Checks of a list hold of a count, whatever was sent. -/
theorem holds_of_not_applies {check : Check} (h : ¬ check.Applies r.mode r.format) :
    r.Holds asked check :=
  fun happlies => absurd happlies h

theorem judged_screenSupport :
    Judged (r.Holds asked) [.count, .sortInText, .fieldsInText] r.screenSupport := by
  have hsent (sent : Option Json) : sent = none ↔ ¬ sent.isSome = true := by simp
  refine .guard ((r.holds_iff asked .count trivial).trans (hsent _)) rfl ?_
  by_cases htext : r.mode = .list ∧ r.format = .text
  · rw [if_pos htext]
    refine .guard ((r.holds_iff asked .sortInText htext).trans (hsent _)) rfl ?_
    refine .guard ((r.holds_iff asked .fieldsInText htext).trans (hsent _)) rfl ?_
    exact fun check hmem => by cases hmem
  · -- A count may carry both, and so may a list of records.
    rw [if_neg htext]
    intro check hmem
    simp only [List.mem_cons, List.not_mem_nil, or_false] at hmem
    rcases hmem with rfl | rfl
    · exact r.holds_of_not_applies asked htext
    · exact r.holds_of_not_applies asked htext

/-- What is guaranteed before the provider is asked. -/
theorem judged_screen : Judged (r.Holds asked) Check.beforeProvider r.screen := by
  change Judged _ ([.count, .sortInText, .fieldsInText] ++ [.query, .instanceIds]) _
  refine (judged_screenSupport r asked).bind fun _ => ?_
  refine .bind_decides (decides_filterOf _) (r.holds_iff asked .query trivial) rfl fun filter => ?_
  refine .bind_decides (decides_instanceIdsOf _) (r.holds_iff asked .instanceIds trivial) rfl
    fun ids => ?_
  exact fun check hmem => by cases hmem

/-- What is guaranteed once a list goes on after the provider. -/
theorem judged_listing (hmode : r.mode = .list) :
    Judged (r.Holds asked) Check.afterProvider r.listing := by
  refine .bind_decides (decides_sortOf _) (r.holds_iff asked .sort hmode) rfl fun sort => ?_
  refine .bind_decides (decides_startOf _) (r.holds_iff asked .start hmode) rfl fun start => ?_
  refine .bind_decides (decides_limitOf _) (r.holds_iff asked .limit hmode) rfl fun limit => ?_
  refine .bind_decides (decides_fieldsOf _) (r.holds_iff asked .fields hmode) rfl fun fields => ?_
  exact fun check hmem => by cases hmem

/-- What is guaranteed after the provider is asked. A count is complete then. -/
theorem judged_complete (scope : Scope) :
    Judged (r.Holds asked) Check.afterProvider (r.complete scope) := by
  unfold complete
  cases hmode : r.mode with
  | list => exact (r.judged_listing asked hmode).map _
  | count =>
    have hlist : ¬ r.mode = .list := by rw [hmode]; exact fun h => by cases h
    intro check hmem
    simp only [Check.afterProvider, List.mem_cons, List.not_mem_nil, or_false] at hmem
    rcases hmem with rfl | rfl | rfl | rfl
    all_goals exact r.holds_of_not_applies asked hlist

end Stages

/-- The provider is asked exactly when all checks before it hold. -/
theorem asks_iff (r : Request) (asked : Except AuthorizationError Json) :
    r.Asks ↔ ∀ check ∈ Check.beforeProvider, r.Holds asked check := by
  have hjudged := r.judged_screen asked
  cases hscreen : r.screen with
  | ok screened =>
    rw [hscreen] at hjudged
    exact iff_of_true ⟨screened, hscreen⟩ hjudged
  | error e =>
    rw [hscreen] at hjudged
    rcases hjudged with ⟨check, hblamed, -⟩
    refine iff_of_false ?_ hblamed.not_forall
    rintro ⟨screened, h⟩
    cases hscreen.symm.trans h

section Verdict

variable {r : Request} {asked : Except AuthorizationError Json}

/-- An accepted request passes all checks, with the provider's own constraint. -/
theorem of_verdict_eq_ok {q : Query} (h : r.verdict asked = .ok q) :
    (∀ check ∈ Check.order, r.Holds asked check) ∧ asked = .ok q.scope.permission ∧
      (q.isCount = true ↔ r.mode = .count) := by
  rcases verdict_eq_ok_iff.1 h with ⟨filter, ids, permission, hscreen, rfl, hcomplete⟩
  rcases scope_of_complete hcomplete with ⟨hscope, hcount⟩
  have hjudged := r.judged_complete (.ok permission) ⟨filter, ids, permission⟩
  rw [hcomplete] at hjudged
  refine ⟨fun check hmem => ?_, by rw [hscope], hcount⟩
  rcases List.mem_append.1 hmem with hbefore | hafter
  · exact (r.asks_iff _).1 ⟨_, hscreen⟩ check hbefore
  · rcases List.mem_cons.1 hafter with rfl | hafter
    · exact fun _ => ⟨permission, rfl⟩
    · exact hjudged check hafter

/-- A refused request is refused for the earliest check that fails. -/
theorem of_verdict_eq_error {e : QueryError} (h : r.verdict asked = .error e) :
    ∃ check, Blamed (r.Holds asked) Check.order check ∧ e.IsAbout asked check := by
  cases hscreen : r.screen with
  | error e' =>
    -- The screen refused, and the provider was not asked.
    cases (verdict_of_screen_error hscreen asked).symm.trans h
    have hjudged := r.judged_screen asked
    rw [hscreen] at hjudged
    rcases hjudged with ⟨check, hblamed, hparameter⟩
    exact ⟨check, hblamed.append_right _, hparameter⟩
  | ok screened =>
    rcases screened with ⟨filter, ids⟩
    have hbefore := (r.asks_iff asked).1 ⟨_, hscreen⟩
    cases asked with
    | error e' =>
      -- The provider refused; all checks in front of it hold.
      cases (verdict_error hscreen e').symm.trans h
      refine ⟨.provider, (blamed_cons fun hholds => ?_).append_left hbefore, rfl, rfl⟩
      rcases hholds trivial with ⟨permission, hpermission⟩
      cases hpermission
    | ok permission =>
      -- The provider answered, so the fault is behind it.
      rw [verdict_ok hscreen] at h
      have hjudged := r.judged_complete (.ok permission) ⟨filter, ids, permission⟩
      cases hcomplete : r.complete ⟨filter, ids, permission⟩ with
      | ok q =>
        rw [hcomplete] at h
        cases h
      | error e' =>
        rw [hcomplete] at h hjudged
        cases h
        rcases hjudged with ⟨check, hblamed, hparameter⟩
        have hprovider : ∀ c ∈ [Check.provider], r.Holds (.ok permission) c :=
          List.forall_mem_singleton.2 fun _ => ⟨permission, rfl⟩
        exact ⟨check, (hblamed.append_left hprovider).append_left hbefore, hparameter⟩

/-- A request is accepted exactly when every check holds. -/
theorem exists_verdict_eq_ok_iff :
    (∃ q, r.verdict asked = .ok q) ↔ ∀ check ∈ Check.order, r.Holds asked check := by
  cases hverdict : r.verdict asked with
  | ok q => exact iff_of_true ⟨q, rfl⟩ (of_verdict_eq_ok hverdict).1
  | error e =>
    rcases of_verdict_eq_error hverdict with ⟨check, hblamed, -⟩
    refine iff_of_false ?_ hblamed.not_forall
    rintro ⟨q, hq⟩
    cases hq

end Verdict

variable {σ : Type}

/-- Validation against its checks, for every request, provider and state. It
    accepts exactly if all ten hold, and then with the constraint that the
    provider gave. It refuses for the earliest check that fails. It asks the
    provider once if the checks before it hold, and else not at all. -/
theorem validate_verdict (provider : PermissionProvider (StateM σ)) (r : Request) (state : σ) :
    let asked := (provider r.asset r.principal).run state
    let answer := (r.validate provider.noted).run (state, [])
    let holds := r.Holds asked.1
    (r.validate provider).run state = (answer.1, answer.2.1) ∧
    ((∃ q, answer.1 = .ok q) ↔ ∀ check ∈ Check.order, holds check) ∧
    (∀ q, answer.1 = .ok q →
      asked.1 = .ok q.scope.permission ∧ (q.isCount = true ↔ r.mode = .count)) ∧
    (∀ e, answer.1 = .error e →
      ∃ check, Blamed holds Check.order check ∧ e.IsAbout asked.1 check) ∧
    ((∀ check ∈ Check.beforeProvider, holds check) →
      answer.2 = (asked.2, [(r.asset, r.principal)])) ∧
    (¬ (∀ check ∈ Check.beforeProvider, holds check) → answer.2 = (state, [])) := by
  intro asked answer holds
  have hasks := r.asks_iff asked.1
  -- A provider that notes its calls answers as it does unnoted.
  have hanswer : (r.validate provider).run state = (answer.1, answer.2.1) ∧
      answer.1 = r.verdict asked.1 ∧
      (r.Asks → answer.2 = (asked.2, [(r.asset, r.principal)])) ∧
      (¬ r.Asks → answer.2 = (state, [])) := by
    by_cases h : r.Asks
    · have hnoted : answer = (r.verdict asked.1, asked.2, [(r.asset, r.principal)]) :=
        run_validate_of_asks provider.noted h (state, [])
      rw [hnoted]
      exact ⟨run_validate_of_asks provider h state, rfl, fun _ => rfl, fun hnot => absurd h hnot⟩
    · have hnoted : answer = (r.verdict asked.1, state, []) :=
        run_validate_of_not_asks provider.noted h (state, []) asked.1
      rw [hnoted]
      exact ⟨run_validate_of_not_asks provider h state asked.1, rfl, fun hask => absurd hask h,
        fun _ => rfl⟩
  rcases hanswer with ⟨hrun, hverdict, hcalled, hspared⟩
  refine ⟨hrun, ?_, ?_, ?_, ?_, ?_⟩
  · rw [hverdict]
    exact exists_verdict_eq_ok_iff
  · intro q hq
    exact (of_verdict_eq_ok (hverdict.symm.trans hq)).2
  · intro e he
    exact of_verdict_eq_error (hverdict.symm.trans he)
  · exact fun hbefore => hcalled (hasks.2 hbefore)
  · exact fun hbefore => hspared fun h => hbefore (hasks.1 h)

/-- A list with much amiss: a submission that is not in a list, no start, a
    bound of zero, and a principal that nobody knows. -/
def muchAmiss : Request :=
  { asset := ⟨"aX"⟩, principal := ⟨"nobody"⟩, format := .structured, mode := .list,
    params := ((Params.empty.set .instanceIds (.ofUInt64 7)).set .start .null).set .limit
      (.ofUInt64 0) }

/-- A list with nothing amiss, in an order whose direction is spelled in capital
    and small letters. -/
def mixedCase : Request :=
  { muchAmiss with params := Params.empty.set .sort (.object [("b", .string "dEsC")]) }

theorem validate_verdict_muchAmiss :
    let strict : PermissionProvider (StateM Nat) :=
      fun _ principal calls => (.error ⟨principal.name⟩, calls + 1)
    let lenient : PermissionProvider (StateM Nat) :=
      fun _ _ calls => (.ok Scope.unconstrained, calls + 1)
    let answer := (muchAmiss.validate strict.noted).run (0, [])
    (answer = (.error (.client .instanceIdsNotList), 0, []) ∧
      ∃ check, Blamed (muchAmiss.Holds (.error ⟨"nobody"⟩)) Check.order check ∧
        QueryError.IsAbout (.error ⟨"nobody"⟩) check (.client .instanceIdsNotList)) ∧
      (mixedCase.validate lenient.noted).run (0, []) =
        (.ok (.list ⟨.empty, [], Scope.unconstrained⟩ ⟨0, none, [⟨"b", .descending⟩], []⟩), 1,
          [(⟨"aX"⟩, ⟨"nobody"⟩)]) ∧
      IsOrder (.object [("b", .string "dEsC")]) := by
  intro strict lenient answer
  rcases validate_verdict strict muchAmiss 0 with ⟨-, -, -, hblamed, -⟩
  rcases validate_verdict lenient mixedCase 0 with ⟨-, haccepted, -⟩
  refine ⟨⟨rfl, hblamed (.client .instanceIdsNotList) rfl⟩, rfl, ?_⟩
  -- What is accepted passes the check of the order.
  exact haccepted.1 ⟨_, rfl⟩ .sort (by decide) rfl _ rfl nofun

end Request

end Fieldwork
