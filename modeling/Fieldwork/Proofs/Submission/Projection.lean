import Fieldwork.Backend.Basic
import Fieldwork.Proofs.Submission.Verdict

/-!
# Counting and Listing

What a count has to do with the list of the same submissions.

A count looks at three parameters only: the one that is never supported, the
filter and the submissions to choose from. Two requests that agree on these
and on who asks for what are about the same submissions, whatever else they
carry. This compares two validations of such requests, from the same state of
the provider.

A list passes every check that the count passes, and some more. So the count
is what is left of the list when its page, order and fields are forgotten, and
a count that is refused takes the list with it. Only a list of texts can be
refused for a reason of its own before that: it has no order and no choice of
fields.

## Main definitions

* `Request.SameScope`: Two requests are about the same submissions.

## Theorems

* `screen_eq_of_sameScope`: What is screened before the provider is asked.
* `verdict_of_list`: A count is accepted with the scope of the list.
* `verdict_of_count_error`: A list is refused as the count is.
* `count_projects`: Counting against listing, for every provider and backend.
-/

namespace Fieldwork

namespace Request

/-- Two requests are about the same submissions: they agree on who asks for
    what and on the parameters that every query needs. -/
structure SameScope (r r' : Request) : Prop where
  /-- They are about one asset. -/
  asset : r.asset = r'.asset
  /-- The same one asks. -/
  principal : r.principal = r'.principal
  /-- They agree on the parameter that is never supported. -/
  count : r.params.value? .count = r'.params.value? .count
  /-- They agree on the filter. -/
  query : r.params.value? .query = r'.params.value? .query
  /-- They agree on the submissions to choose from. -/
  instanceIds : r.params.value? .instanceIds = r'.params.value? .instanceIds

/-- A list of texts, which alone has neither order nor choice of fields. -/
def ListsTexts (r : Request) : Prop :=
  r.mode = .list ∧ r.format = .text

section Screen

variable {r r' : Request}

theorem screenSupport_eq (h : ¬ r.ListsTexts) :
    r.screenSupport =
      if (r.params.value? .count).isSome then .error .countNotSupported else .ok () := by
  have htext : ¬ (r.mode = .list ∧ r.format = .text) := h
  rw [screenSupport, if_neg htext]

theorem count_eq_none_of_screenSupport (h : r.screenSupport = .ok ()) :
    r.params.value? .count = none := by
  cases hcount : r.params.value? .count with
  | none => rfl
  | some value =>
    rw [screenSupport, hcount, Option.isSome_some, if_pos rfl] at h
    cases h

/-- Requests about the same submissions are screened alike, unless one of them
    lists texts. -/
theorem screen_eq_of_sameScope (h : r.SameScope r') (hr : ¬ r.ListsTexts) (hr' : ¬ r'.ListsTexts) :
    r.screen = r'.screen := by
  unfold screen
  rw [screenSupport_eq hr, screenSupport_eq hr', h.count, h.query, h.instanceIds]

/-- What passes the screen in one form passes it in any but a list of texts. -/
theorem screen_eq_ok_of_sameScope {filter : Extended} {ids : List SubmissionId}
    (h : r.SameScope r') (hr' : ¬ r'.ListsTexts) (hscreen : r.screen = .ok (filter, ids)) :
    r'.screen = .ok (filter, ids) := by
  rcases screen_eq_ok_iff.1 hscreen with ⟨hsupport, hfilter, hids⟩
  refine screen_eq_ok_iff.2 ⟨?_, h.query ▸ hfilter, h.instanceIds ▸ hids⟩
  rw [screenSupport_eq hr', ← h.count, count_eq_none_of_screenSupport hsupport]
  rfl

end Screen

section Verdict

variable {r r' : Request} {asked : Except AuthorizationError Json}

theorem not_listsTexts_of_count (hcount : r.mode = .count) : ¬ r.ListsTexts :=
  fun h => by cases hcount.symm.trans h.1

theorem complete_count (hcount : r.mode = .count) (scope : Scope) :
    r.complete scope = .ok (.count scope) :=
  complete_eq_ok_iff.2 (.inl ⟨hcount, rfl⟩)

/-- A count is accepted whenever a list of the same submissions is, and with
    the scope of that list. -/
theorem verdict_of_list {q : Query} (h : r.SameScope r') (hcount : r'.mode = .count)
    (hverdict : r.verdict asked = .ok q) : r'.verdict asked = .ok (.count q.scope) := by
  rcases verdict_eq_ok_iff.1 hverdict with ⟨filter, ids, permission, hscreen, rfl, hcomplete⟩
  refine verdict_eq_ok_iff.2 ⟨filter, ids, permission, ?_, rfl, ?_⟩
  · exact screen_eq_ok_of_sameScope h (not_listsTexts_of_count hcount) hscreen
  · rw [complete_count hcount, (scope_of_complete hcomplete).1]

/-- A list is refused as the count of the same submissions is, unless it is a
    list of texts. -/
theorem verdict_of_count_error {e : QueryError} (h : r.SameScope r') (hcount : r'.mode = .count)
    (hr : ¬ r.ListsTexts) (hverdict : r'.verdict asked = .error e) :
    r.verdict asked = .error e := by
  have hscreen := screen_eq_of_sameScope h hr (not_listsTexts_of_count hcount)
  cases hscreen' : r'.screen with
  | error e' =>
    rw [verdict_of_screen_error hscreen'] at hverdict
    rw [verdict_of_screen_error (hscreen.trans hscreen'), hverdict]
  | ok screened =>
    rcases screened with ⟨filter, ids⟩
    cases asked with
    | error e' =>
      rw [verdict_error hscreen'] at hverdict
      rw [verdict_error (hscreen.trans hscreen'), hverdict]
    | ok permission =>
      -- A count that gets this far is accepted.
      rw [verdict_ok hscreen', complete_count hcount] at hverdict
      cases hverdict

end Verdict

/-- Requests that differ in nothing that is looked at are validated alike. -/
theorem validate_count_eq {m : Type → Type} [Monad m] (provider : PermissionProvider m)
    {r r' : Request} (h : r.SameScope r') (hr : r.mode = .count) (hr' : r'.mode = .count) :
    r.validate provider = r'.validate provider := by
  have hscreen : r.screen = r'.screen :=
    screen_eq_of_sameScope h (not_listsTexts_of_count hr) (not_listsTexts_of_count hr')
  have hcomplete (scope : Scope) : r.complete scope = r'.complete scope := by
    rw [complete_count hr, complete_count hr']
  exact validate_congr provider h.asset h.principal hscreen hcomplete

/-- The count of a backend looks at nothing but the scope, so its counter is
    given the same query and the same state. -/
theorem backend_count_eq {σ : Type} (backend : Backend σ) {r r' : Request} (h : r.SameScope r')
    (state : σ) : backend.count r state = backend.count r' state := by
  have hcounting : { r with mode := .count, format := .structured }.validate backend.permissions =
      { r' with mode := .count, format := .structured }.validate backend.permissions :=
    validate_count_eq _ ⟨h.asset, h.principal, h.count, h.query, h.instanceIds⟩ rfl rfl
  have hvalidated :
      backend.validate { r with mode := .count, format := .structured } state =
        backend.validate { r' with mode := .count, format := .structured } state := by
    rw [Backend.validate, Backend.validate, audited, audited, hcounting]
    simp only [h.asset]
  simp only [Backend.count, hvalidated]

variable {σ : Type}

/-- A count against any other request about the same submissions, for every
    provider and every state that it may have. Two counts are the same. A list
    that is accepted gives the scope of the count. A count that is refused has
    the list refused, and with the same error unless it is one of texts. A
    backend counts for one as it counts for the other. -/
theorem count_projects (provider : PermissionProvider (StateM σ)) (state : σ) {r r' : Request}
    (h : r.SameScope r') (hcount : r'.mode = .count) :
    let answer (r : Request) := (r.validate provider).run state
    (r.mode = .count → answer r = answer r') ∧
    (∀ q, (answer r).1 = .ok q → (answer r').1 = .ok (.count q.scope)) ∧
    (∀ e, (answer r').1 = .error e → (∃ e', (answer r).1 = .error e') ∧
      (r.format = .structured → (answer r).1 = .error e)) ∧
    (∀ backend : Backend σ, backend.count r state = backend.count r' state) := by
  intro answer
  have hanswer : (answer r').1 = r'.verdict ((provider r.asset r.principal).run state).1 := by
    rw [h.asset, h.principal]
    exact fst_run_validate provider state
  rw [hanswer, show (answer r).1 = _ from fst_run_validate provider state]
  refine ⟨fun hr => ?_, fun q => verdict_of_list h hcount, fun e he => ⟨?_, fun hformat => ?_⟩,
    fun backend => backend_count_eq backend h state⟩
  · simp only [answer, validate_count_eq provider h hr hcount]
  · -- Were the list accepted, the count would be as well.
    cases hlist : r.verdict ((provider r.asset r.principal).run state).1 with
    | error e' => exact ⟨e', rfl⟩
    | ok q => cases (verdict_of_list h hcount hlist).symm.trans he
  · refine verdict_of_count_error h hcount (fun htexts => ?_) he
    cases hformat.symm.trans htexts.2

/-- A page of a list. -/
def pagedList : Request :=
  { asset := ⟨"aX"⟩, principal := ⟨"7"⟩, format := .structured, mode := .list,
    params := (Params.empty.set .start (.ofUInt64 20)).set .limit (.ofUInt64 10) }

/-- The count of what the page is taken from, with a page that makes no sense. -/
def pagelessCount : Request :=
  { pagedList with format := .text, mode := .count, params := Params.empty.set .start .null }

theorem count_projects_pagedList :
    let provider : PermissionProvider (StateM Nat) :=
      fun _ _ calls => (.ok Scope.unconstrained, calls + 1)
    pagedList.SameScope pagelessCount ∧ pagelessCount.mode = .count ∧
      ∃ q, ((pagedList.validate provider).run 0).1 = .ok q ∧ q.isCount = false ∧
        ((pagelessCount.validate provider).run 0).1 = .ok (.count q.scope) := by
  intro provider
  have hscope : pagedList.SameScope pagelessCount := ⟨rfl, rfl, rfl, rfl, rfl⟩
  rcases count_projects provider 0 hscope rfl with ⟨-, haccepted, -⟩
  exact ⟨hscope, rfl, _, rfl, rfl, haccepted _ rfl⟩

end Request

end Fieldwork
