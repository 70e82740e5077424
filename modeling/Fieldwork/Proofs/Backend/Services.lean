import Fieldwork.Backend.Records

/-!
# Services

A backend that follows the contract.

A backend may list submissions as it likes, but it has to validate the request
first, and once. What is left to it is an engine, which is given the query that
came of the validation. Here the engine, the store of the rows, the rule about
who may see what and the counter are all that a backend is made of, and each
answers as it likes. The backend over records in memory is one of these.

## Main definitions

* `Services`: Those who answer.
* `Services.list`, `Services.backend`: The backend that asks them.
* `Services.validated`: What a validation comes to.
* `RecordList.engine`: An engine over the records that a query sees.

## Theorems

* `result_list`: The engine is given what the validation came to.
* `events_list`, `events_count`: What is left for the audit log.
-/

namespace Fieldwork

/-- Those who answer in a session. -/
structure Services (σ τ : Type) where
  /-- Has the rows. -/
  store : RowStore σ
  /-- Says who may see what. -/
  permissions : PermissionProvider (StateM τ)
  /-- Finds the submissions of a query. -/
  engine : Query → Request → τ → Except BackendError (List SubmissionRecord) × τ
  /-- Counts submissions, if the backend can. -/
  counter : Option (Query → τ → Except BackendError UInt64 × τ)

variable {σ τ : Type}

/-- The request that a search for one submission makes. -/
def Request.seeking (r : Request) (id : SubmissionId) : Request :=
  { r with mode := .list, params := r.params.withInstanceIds [id] }

namespace Services

/-- Lists submissions as a backend has to: the request is validated once, and
    the engine is asked for what came of it. -/
def list (services : Services σ τ) (r : Request) (state : τ) :
    Answer τ (Except BackendError (List SubmissionRecord)) :=
  let validated := Request.audited services.permissions { r with mode := .list } state
  match validated.result with
  | .error error => { validated with result := .error (.query error) }
  | .ok query =>
    let (result, state) := services.engine query r validated.state
    ⟨result, state, validated.events⟩

/-- The backend of these services. -/
def backend (services : Services σ τ) : Backend τ :=
  ⟨services.permissions, services.list, services.counter⟩

/-- What the validation of a request comes to, and what the engine remembers
    afterwards. -/
def validated (services : Services σ τ) (r : Request) (state : τ) :
    Except QueryError Query × τ :=
  (r.validate services.permissions).run state

/-- A list is what the engine answers to the query, unless the request is
    refused. -/
theorem result_list (services : Services σ τ) (r : Request) (state : τ) :
    (services.list r state).result =
      match services.validated { r with mode := .list } state with
      | (.error error, _) => .error (.query error)
      | (.ok query, after) => (services.engine query r after).1 := by
  unfold list validated Request.audited
  generalize (Request.validate services.permissions _).run state = validated
  rcases validated with ⟨_ | query, after⟩
  · rfl
  · rfl

/-- A list leaves the event of its one validation, whatever the engine
    answers. -/
theorem events_list (services : Services σ τ) (r : Request) (state : τ) :
    (services.list r state).events =
      (Request.audited services.permissions { r with mode := .list } state).events := by
  unfold list
  generalize Request.audited services.permissions _ state = validated
  rcases validated with ⟨_ | query, after, events⟩
  · rfl
  · rfl

/-- A count leaves the event of its validation if the backend can count, and
    nothing otherwise. -/
theorem events_count (services : Services σ τ) (r : Request) (state : τ) :
    (services.backend.count r state).events =
      match services.counter with
      | none => []
      | some _ =>
        (Request.audited services.permissions
          { r with mode := .count, format := .structured } state).events := by
  unfold Backend.count Backend.validate backend
  cases services.counter with
  | none => rfl
  | some counter =>
    simp only
    -- The events are those of the check whether it refuses or not.
    generalize Request.audited services.permissions _ state = validated
    rcases validated with ⟨_ | query, after, events⟩
    · rfl
    · rfl

end Services

namespace RecordList

/-- An engine over the records that a query sees. -/
def engine (visible : Query → τ → RecordList) (query : Query) (r : Request) (state : τ) :
    Except BackendError (List SubmissionRecord) × τ :=
  (.ok ((select query (visible query state)).map (render r.format)), state)

end RecordList

end Fieldwork
