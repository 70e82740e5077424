import Fieldwork.Audit.Event
import Fieldwork.Handle
import Fieldwork.Submission.Validate

/-!
# Deployment Backends

What every backend does the same way.

A backend stands between those who ask for submissions and an engine that has
them. It brings its own way to list submissions, its own rule about who may
see what, and perhaps a way to count. All else follows: a single submission is
looked for by asking for a list with one id, and a count validates the request
as one for counting before it asks the engine. A validation always leaves one
event for the audit log, whatever comes of it.

What the engine and the rule remember is a state that they hand on.

## Main definitions

* `SubmissionRecord`: A submission as it is returned.
* `BackendError`: Why an operation fails.
* `Answer`: A result with the state and the events that it leaves.
* `Request.audited`: A validation with its event.
* `Backend`: What a backend brings along.
* `Backend.find`, `Backend.count`: What follows from it.
-/

namespace Fieldwork

/-- A submission as it is returned. -/
inductive SubmissionRecord where
  /-- A JSON value. -/
  | structured (value : Json)
  /-- A text. -/
  | text (content : String)

/-- Why an operation of a backend fails. -/
inductive BackendError where
  /-- The request was refused. -/
  | query (error : QueryError)
  /-- The backend cannot do this. -/
  | unsupported (operation : String)
  /-- The row store failed. -/
  | store (error : StoreError)
  /-- The engine failed. -/
  | engine (reason : String)

namespace BackendError

/-- The wording of an error. -/
def message : BackendError → String
  | query error => error.message
  | unsupported operation => operation ++ " is not implemented by this deployment backend"
  | store error => error.message
  | engine reason => "submission backend error: " ++ reason

/-- The failure of a handle, as its backend words it. -/
def ofDeployment : DeploymentError → BackendError
  | .store error => store error
  | .notFound asset => store (.invalid ("asset not found: " ++ asset.name))

end BackendError

/-- A result with the state and the events that it leaves. -/
structure Answer (σ α : Type) where
  /-- The result. -/
  result : α
  /-- What the engine remembers afterwards. -/
  state : σ
  /-- The events for the audit log. -/
  events : List AuditEvent

variable {σ : Type}

/-- A validation with its event. -/
def Request.audited (provider : PermissionProvider (StateM σ)) (r : Request) (state : σ) :
    Answer σ (Except QueryError Query) :=
  let (result, state) := (r.validate provider).run state
  let event : QueryEvent := ⟨r.asset, r.format, r.mode = .count, .ofResult result⟩
  ⟨result, state, [.query event]⟩

/-- What a backend brings along. -/
structure Backend (σ : Type) where
  /-- Who may see what. -/
  permissions : PermissionProvider (StateM σ)
  /-- Lists submissions. -/
  list : Request → σ → Answer σ (Except BackendError (List SubmissionRecord))
  /-- Counts submissions, if the backend can. -/
  counter : Option (Query → σ → Except BackendError UInt64 × σ)

namespace Backend

/-- The validation of a request. -/
def validate (backend : Backend σ) (r : Request) (state : σ) : Answer σ (Except QueryError Query) :=
  r.audited backend.permissions state

/-- The submission with an id: the first of the list that the id gives. -/
def find (backend : Backend σ) (r : Request) (id : SubmissionId) (state : σ) :
    Answer σ (Except BackendError (Option SubmissionRecord)) :=
  let answer := backend.list { r with mode := .list, params := r.params.withInstanceIds [id] } state
  -- The list may hold more than asked for, or skip what was asked for.
  { answer with result := answer.result.map List.head? }

/-- The name of the operation that counts. -/
def countName : String := "calculated_submission_count"

/-- How many submissions a request matches. -/
def count (backend : Backend σ) (r : Request) (state : σ) : Answer σ (Except BackendError UInt64) :=
  match backend.counter with
  | none => ⟨.error (.unsupported countName), state, []⟩
  | some counter =>
    let validated := backend.validate { r with mode := .count, format := .structured } state
    match validated.result with
    | .error error => { validated with result := .error (.query error) }
    | .ok query =>
      let (result, state) := counter query validated.state
      ⟨result, state, validated.events⟩

end Backend

end Fieldwork
