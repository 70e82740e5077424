import Fieldwork.Proofs.Fallible
import Fieldwork.Submission.Validate

/-!
# Requests and the Provider

A validation as a function of what the provider answers.

The provider has a state, so a validation is a computation with a state. But
it asks the provider at most once, and it hands the state on without a look at
it. So the answer is a function of the request and of the answer that the
provider would give, and the state afterwards is either the one that the
provider left or the one before. What is said about validation can then be
said about that function, and holds under every provider.

## Main definitions

* `Request.verdict`: The answer to a request whose provider answers this.
* `Request.Asks`: The provider is asked.

## Theorems

* `screen_eq_ok_iff`, `listing_eq_ok_iff`, `complete_eq_ok_iff`: What each
  stage gives.
* `validate_congr`: Requests that come to the same at each stage.
* `run_validate_of_asks`, `run_validate_of_not_asks`: A validation is the
  verdict, with the state of the provider.
* `verdict_eq_ok_iff`: What an accepted request went through.
* `scope_of_complete`: The scope and the kind of the query.
-/

namespace Fieldwork

namespace Request

open Submission

section Stages

variable {r : Request}

/-- What passes the screen, and what it gives. -/
theorem screen_eq_ok_iff {filter : Extended} {ids : List SubmissionId} :
    r.screen = .ok (filter, ids) ↔ r.screenSupport = .ok () ∧
      filterOf (r.params.value? .query) = .ok filter ∧
      instanceIdsOf (r.params.value? .instanceIds) = .ok ids := by
  simp only [screen, Fallible.bind_eq_ok_iff, Except.ok.injEq, Prod.mk.injEq]
  constructor
  · rintro ⟨_, hsupport, _, hfilter, _, hids, rfl, rfl⟩
    exact ⟨hsupport, hfilter, hids⟩
  · rintro ⟨hsupport, hfilter, hids⟩
    exact ⟨(), hsupport, filter, hfilter, ids, hids, rfl, rfl⟩

/-- What makes a list, and what it looks like. -/
theorem listing_eq_ok_iff {listing : Listing} :
    r.listing = .ok listing ↔ sortOf (r.params.value? .sort) = .ok listing.sort ∧
      startOf (r.params.value? .start) = .ok listing.start ∧
      limitOf (r.params.value? .limit) = .ok listing.limit ∧
      fieldsOf (r.params.value? .fields) = .ok listing.fields := by
  simp only [Request.listing, Fallible.bind_eq_ok_iff, Except.ok.injEq]
  constructor
  · rintro ⟨_, hsort, _, hstart, _, hlimit, _, hfields, rfl⟩
    exact ⟨hsort, hstart, hlimit, hfields⟩
  · rintro ⟨hsort, hstart, hlimit, hfields⟩
    exact ⟨_, hsort, _, hstart, _, hlimit, _, hfields, rfl⟩

/-- What a request whose scope is known comes to. -/
theorem complete_eq_ok_iff {scope : Scope} {q : Query} :
    r.complete scope = .ok q ↔ (r.mode = .count ∧ q = .count scope) ∨
      (r.mode = .list ∧ ∃ listing, r.listing = .ok listing ∧ q = .list scope listing) := by
  unfold complete
  cases hmode : r.mode with
  | count => simp [eq_comm]
  | list => cases r.listing <;> simp [Except.map, eq_comm]

/-- The query of a list or a count has the scope that was resolved. -/
theorem scope_of_complete {scope : Scope} {q : Query} (h : r.complete scope = .ok q) :
    q.scope = scope ∧ (q.isCount = true ↔ r.mode = .count) := by
  rcases complete_eq_ok_iff.1 h with ⟨hmode, rfl⟩ | ⟨hmode, listing, -, rfl⟩
  · exact ⟨rfl, iff_of_true rfl hmode⟩
  · refine ⟨rfl, iff_of_false (fun h => by cases h) (fun h => ?_)⟩
    cases h.symm.trans hmode

/-- Requests that come to the same at each stage are validated alike. -/
theorem validate_congr {m : Type → Type} [Monad m] (provider : PermissionProvider m)
    {r r' : Request} (hasset : r.asset = r'.asset) (hprincipal : r.principal = r'.principal)
    (hscreen : r.screen = r'.screen) (hcomplete : ∀ scope, r.complete scope = r'.complete scope) :
    r.validate provider = r'.validate provider := by
  simp only [validate, hscreen, hasset, hprincipal, hcomplete]

end Stages

/-- The answer to a request whose provider answers this. -/
def verdict (r : Request) (asked : Except AuthorizationError Json) : Except QueryError Query :=
  r.validate (m := Id) fun _ _ => asked

/-- A provider without a state is asked for one answer. -/
theorem validate_eq_verdict (provider : PermissionProvider Id) (r : Request) :
    (r.validate provider).run = r.verdict (provider r.asset r.principal).run := rfl

section Verdict

variable {r : Request} {filter : Extended} {ids : List SubmissionId}

theorem verdict_of_screen_error {e : ClientError} (h : r.screen = .error e)
    (asked : Except AuthorizationError Json) : r.verdict asked = .error (.client e) :=
  validate_of_screen_error _ h

theorem verdict_error (h : r.screen = .ok (filter, ids)) (e : AuthorizationError) :
    r.verdict (.error e) = .error (.authorization e) := by
  simp only [verdict, validate, h]
  rfl

theorem verdict_ok (h : r.screen = .ok (filter, ids)) (permission : Json) :
    r.verdict (.ok permission) = (r.complete ⟨filter, ids, permission⟩).mapError .client := by
  simp only [verdict, validate, h]
  rfl

/-- What an accepted request went through. -/
theorem verdict_eq_ok_iff {asked : Except AuthorizationError Json} {q : Query} :
    r.verdict asked = .ok q ↔ ∃ filter ids permission, r.screen = .ok (filter, ids) ∧
      asked = .ok permission ∧ r.complete ⟨filter, ids, permission⟩ = .ok q := by
  constructor
  · intro h
    cases hscreen : r.screen with
    | error e => cases (verdict_of_screen_error hscreen asked).symm.trans h
    | ok screened =>
      rcases screened with ⟨filter, ids⟩
      cases asked with
      | error e => cases (verdict_error hscreen e).symm.trans h
      | ok permission =>
        rw [verdict_ok hscreen] at h
        exact ⟨filter, ids, permission, rfl, rfl, Fallible.mapError_eq_ok_iff.1 h⟩
  · rintro ⟨filter, ids, permission, hscreen, rfl, hcomplete⟩
    rw [verdict_ok hscreen]
    exact Fallible.mapError_eq_ok_iff.2 hcomplete

end Verdict

/-- The provider is asked once the screen is passed. -/
def Asks (r : Request) : Prop :=
  ∃ screened, r.screen = .ok screened

section Run

variable {σ : Type} {r : Request}

/-- The state of the provider has no part in the answer. -/
theorem run_validate_of_asks (provider : PermissionProvider (StateM σ)) (h : r.Asks) (state : σ) :
    (r.validate provider).run state =
      (r.verdict ((provider r.asset r.principal).run state).1,
        ((provider r.asset r.principal).run state).2) := by
  rcases h with ⟨⟨filter, ids⟩, hscreen⟩
  simp only [validate, hscreen, StateT.run_bind]
  cases hcall : (provider r.asset r.principal).run state with
  | mk asked after =>
    cases asked with
    | error e =>
      rw [verdict_error hscreen]
      rfl
    | ok permission =>
      rw [verdict_ok hscreen]
      rfl

/-- The provider is left alone by a request that is refused before. -/
theorem run_validate_of_not_asks (provider : PermissionProvider (StateM σ)) (h : ¬ r.Asks)
    (state : σ) (asked : Except AuthorizationError Json) :
    (r.validate provider).run state = (r.verdict asked, state) := by
  cases hscreen : r.screen with
  | ok screened => exact absurd ⟨screened, hscreen⟩ h
  | error e =>
    rw [verdict_of_screen_error hscreen, validate_of_screen_error provider hscreen]
    rfl

/-- Whatever the provider does to its state, the answer is the verdict. -/
theorem fst_run_validate (provider : PermissionProvider (StateM σ)) (state : σ) :
    ((r.validate provider).run state).1 =
      r.verdict ((provider r.asset r.principal).run state).1 := by
  by_cases h : r.Asks
  · rw [run_validate_of_asks provider h]
  · rw [run_validate_of_not_asks provider h]

end Run

end Request

end Fieldwork
