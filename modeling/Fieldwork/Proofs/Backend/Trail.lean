import Fieldwork.Proofs.Backend.Services
import Fieldwork.Store.Scripted
import Fieldwork.Store.Memory
import Mathlib.Data.List.Forall2

/-!
# The Audit Trail

What a log says after any run of a backend.

A session works on one asset. It reads the copy of the document and refreshes
it, writes to it, validates requests, and asks for submissions or for their
number. The store, the rule about who may see what and the engine answer as
they like, and each remembers what it wants. The trail owes one record to
every write and one to every validation, in the order of the operations, and
none to anything else: not to a read, not to a refresh that fails, and not to a
count that the backend cannot make.

What a record says is written down here without the events that the operations
leave. It is fixed by the operation, by what the store answered and by how the
validation ended. So neither a value that was written nor a parameter that was
sent can be told from the trail: two runs that differ in these alone, and are
answered alike, leave the same trail.

## Main definitions

* `writeRecord`, `queryRecord`: What is recorded of a write and of a
  validation.
* `Session`: An asset that is worked on.
* `BackendCall`, `BackendCall.Told`: An operation, and the answer that decides
  about its record.
* `Session.runAll`: A run of operations.
* `BackendCall.records`: What the trail owes to an operation.
* `BackendCall.Alike`: Operations that only values and payloads tell apart.

## Theorems

* `toJson_events_run`: The record of one operation.
* `toJson_events_runAll`: The records of a run.
* `records_congr`: Operations that are alike are recorded alike.
* `trail_of_runAll`: The trail is complete, exact and redacted.
-/

namespace Fieldwork

/-- What is recorded of a write that gave a result, once its time is known. -/
def writeRecord (kind : WriteKind) (asset : AssetId) (keys : List String)
    (result : Except DeploymentError Receipt) (time : UInt64) : Json :=
  let event : String :=
    match kind with
    | .merge => "deployment_merge"
    | .clear => "deployment_clear"
  let (rows, outcome, error) : UInt64 × String × Json :=
    match result with
    | .error error => (0, "failed", .string error.message)
    | .ok receipt => (receipt.rows, if receipt.rows = 0 then "missing" else "applied", .null)
  .object [("event", .string event), ("timestamp_ms", .ofUInt64 time),
    ("asset_uid", .string asset.name), ("keys", .array (keys.map .string)),
    ("rows_affected", .ofUInt64 rows), ("outcome", .string outcome), ("error", error)]

/-- What is recorded of a validation that gave a result, once its time is
    known. -/
def queryRecord (asset : AssetId) (format : Format) (countOnly : Bool)
    (result : Except QueryError Query) (time : UInt64) : Json :=
  let (outcome, field) : String × Json :=
    match result with
    | .ok _ => ("accepted", .null)
    | .error (.client error) => ("rejected", .string error.parameter.name)
    | .error (.authorization _) => ("fault", .null)
  .object [("event", .string "submission_query"), ("timestamp_ms", .ofUInt64 time),
    ("asset_uid", .string asset.name), ("format", .string format.label),
    ("count_only", .bool countOnly), ("outcome", .string outcome), ("field", field)]

variable {σ τ : Type}

/-- An asset that is worked on. -/
structure Session (σ τ : Type) where
  /-- The handle of the asset. -/
  handle : Handle
  /-- What the store remembers. -/
  rows : σ
  /-- What the engine remembers. -/
  engine : τ

/-- An operation of a backend with what is handed to it. A request is always
    about the asset of the session. -/
inductive BackendCall where
  /-- Reads a path of the copy. -/
  | get (path : Option String) (default : Json)
  /-- Takes the stored row over. -/
  | refresh
  /-- Merges updates. -/
  | save (updates : Document) (now : Stamp)
  /-- Stores a status. -/
  | setStatus (status : Status) (now : Stamp)
  /-- Empties the document. -/
  | delete (now : Stamp)
  /-- Validates a request. -/
  | validate (r : Request)
  /-- Lists submissions. -/
  | list (r : Request)
  /-- Looks for one submission. -/
  | find (r : Request) (id : SubmissionId)
  /-- Counts submissions. -/
  | count (r : Request)

namespace BackendCall

/-- The answer that decides about the record of an operation: what a write gave
    back, or what the validation came to. A count that the backend cannot make
    validates nothing. -/
@[reducible]
def Told : BackendCall → Type
  | save .. | setStatus .. | delete _ => Except DeploymentError Receipt
  | validate _ | list _ | find .. => Except QueryError Query
  | count _ => Option (Except QueryError Query)
  | get .. | refresh => Unit

end BackendCall

/-- What an operation leaves behind. -/
structure Performed (σ τ : Type) (call : BackendCall) where
  /-- What decides about its record. -/
  told : call.Told
  /-- The session after it. -/
  session : Session σ τ
  /-- The events for the audit log. -/
  events : List AuditEvent

namespace Session

/-- A request about the asset of a session. -/
def ask (session : Session σ τ) (r : Request) : Request :=
  { r with asset := session.handle.asset }

/-- The session after an operation of its handle. -/
def settled {α : Type} (session : Session σ τ) (outcome : Outcome σ α) : Session σ τ :=
  { session with handle := outcome.handle, rows := outcome.store }

/-- The session after an operation that the engine has answered. -/
def answered {α : Type} (session : Session σ τ) (answer : Answer τ α) : Session σ τ :=
  { session with engine := answer.state }

/-- One operation. -/
def run (services : Services σ τ) (session : Session σ τ) :
    (call : BackendCall) → Performed σ τ call
  | .get _ _ => ⟨(), session, []⟩
  | .refresh =>
    let outcome := session.handle.refresh services.store session.rows
    ⟨(), session.settled outcome, outcome.events⟩
  | .save updates now =>
    let outcome := session.handle.save services.store updates now session.rows
    ⟨outcome.result, session.settled outcome, outcome.events⟩
  | .setStatus status now =>
    let outcome := session.handle.setStatus services.store status now session.rows
    ⟨outcome.result, session.settled outcome, outcome.events⟩
  | .delete now =>
    let outcome := session.handle.delete services.store now session.rows
    ⟨outcome.result, session.settled outcome, outcome.events⟩
  | .validate r =>
    let answer := services.backend.validate (session.ask r) session.engine
    ⟨answer.result, session.answered answer, answer.events⟩
  | .list r =>
    let answer := services.backend.list (session.ask r) session.engine
    ⟨(services.validated { session.ask r with mode := .list } session.engine).1,
      session.answered answer, answer.events⟩
  | .find r id =>
    let answer := services.backend.find (session.ask r) id session.engine
    ⟨(services.validated ((session.ask r).seeking id) session.engine).1,
      session.answered answer, answer.events⟩
  | .count r =>
    let answer := services.backend.count (session.ask r) session.engine
    ⟨services.counter.map fun _ =>
        (services.validated { session.ask r with mode := .count, format := .structured }
          session.engine).1,
      session.answered answer, answer.events⟩

end Session

/-- A run of operations. -/
structure Run (σ τ : Type) where
  /-- The operations in order, each with what decides about its record. -/
  history : List ((call : BackendCall) × call.Told)
  /-- The session after it. -/
  session : Session σ τ
  /-- The events for the audit log. -/
  events : List AuditEvent

/-- One operation after the other. -/
def Session.runAll (services : Services σ τ) (session : Session σ τ) : List BackendCall → Run σ τ
  | [] => ⟨[], session, []⟩
  | call :: rest =>
    let done := session.run services call
    let later := runAll services done.session rest
    ⟨⟨call, done.told⟩ :: later.history, later.session, done.events ++ later.events⟩

namespace BackendCall

/-- What the trail owes to an operation. -/
def records (asset : AssetId) : (call : BackendCall) → call.Told → List (UInt64 → Json)
  | save updates _, result => [writeRecord .merge asset updates.keys result]
  | setStatus _ _, result => [writeRecord .merge asset ["status"] result]
  | delete _, result => [writeRecord .clear asset [] result]
  | validate r, result => [queryRecord asset r.format (r.mode = .count) result]
  | list r, result => [queryRecord asset r.format false result]
  | find r _, result => [queryRecord asset r.format false result]
  | count _, some result => [queryRecord asset .structured true result]
  | count _, none => []
  | get _ _, _ => []
  | refresh, _ => []

/-- Validations that end alike, whatever the query or the fault is. -/
inductive EndAlike : Except QueryError Query → Except QueryError Query → Prop
  /-- Both give a query. -/
  | accepted {query other : Query} : EndAlike (.ok query) (.ok other)
  /-- Both blame the same parameter. -/
  | rejected {error other : ClientError} (h : error.parameter = other.parameter) :
    EndAlike (.error (.client error)) (.error (.client other))
  /-- Neither resolves its principal. -/
  | fault {error other : AuthorizationError} :
    EndAlike (.error (.authorization error)) (.error (.authorization other))

/-- The same operation but for the values that it writes, the parameters that
    it sends, the id that it looks for and the clock, answered alike. -/
inductive Alike : (call : BackendCall) × call.Told → (call : BackendCall) × call.Told → Prop
  /-- A read is not recorded, whatever it reads. -/
  | get {path path' : Option String} {default default' : Json} :
    Alike ⟨.get path default, ()⟩ ⟨.get path' default', ()⟩
  /-- Nor is a refresh. -/
  | refresh : Alike ⟨.refresh, ()⟩ ⟨.refresh, ()⟩
  /-- The keys count, and not what they are given. -/
  | save {updates updates' : Document} {now now' : Stamp} (h : updates.keys = updates'.keys)
      (result : Except DeploymentError Receipt) :
    Alike ⟨.save updates now, result⟩ ⟨.save updates' now', result⟩
  /-- The status that is stored does not count. -/
  | setStatus {status status' : Status} {now now' : Stamp}
      (result : Except DeploymentError Receipt) :
    Alike ⟨.setStatus status now, result⟩ ⟨.setStatus status' now', result⟩
  /-- There is nothing but the clock to tell two of these apart. -/
  | delete {now now' : Stamp} (result : Except DeploymentError Receipt) :
    Alike ⟨.delete now, result⟩ ⟨.delete now', result⟩
  /-- The format counts, and whether submissions are counted. -/
  | validate {r r' : Request} {result result' : Except QueryError Query}
      (hformat : r.format = r'.format) (hmode : r.mode = r'.mode) (h : EndAlike result result') :
    Alike ⟨.validate r, result⟩ ⟨.validate r', result'⟩
  /-- The format counts. -/
  | list {r r' : Request} {result result' : Except QueryError Query}
      (hformat : r.format = r'.format) (h : EndAlike result result') :
    Alike ⟨.list r, result⟩ ⟨.list r', result'⟩
  /-- The format counts, and not the id. -/
  | find {r r' : Request} {id id' : SubmissionId} {result result' : Except QueryError Query}
      (hformat : r.format = r'.format) (h : EndAlike result result') :
    Alike ⟨.find r id, result⟩ ⟨.find r' id', result'⟩
  /-- What is counted is not rendered, so its format does not count. -/
  | count {r r' : Request} {result result' : Option (Except QueryError Query)}
      (h : Option.Rel EndAlike result result') :
    Alike ⟨.count r, result⟩ ⟨.count r', result'⟩

theorem queryRecord_congr {result result' : Except QueryError Query} (h : EndAlike result result')
    (asset : AssetId) (format : Format) (countOnly : Bool) :
    queryRecord asset format countOnly result = queryRecord asset format countOnly result' := by
  cases h with
  | accepted => rfl
  | rejected h =>
    unfold queryRecord
    simp only [h]
  | fault => rfl

/-- Operations that are alike are recorded alike. -/
theorem records_congr {done done' : (call : BackendCall) × call.Told} (h : Alike done done')
    (asset : AssetId) : done.1.records asset done.2 = done'.1.records asset done'.2 := by
  -- What is alike differs in the values alone, and no record looks at these.
  cases h with
  | get => rfl
  | refresh => rfl
  | save h result => simp only [records, h]
  | setStatus result => rfl
  | delete result => rfl
  | validate hformat hmode h => simp only [records, hformat, hmode, queryRecord_congr h]
  | list hformat h => simp only [records, hformat, queryRecord_congr h]
  | find hformat h => simp only [records, hformat, queryRecord_congr h]
  | count h =>
    cases h with
    | none => rfl
    | some h => simp only [records, queryRecord_congr h]

theorem flatMap_records_congr {history history' : List ((call : BackendCall) × call.Told)}
    (h : List.Forall₂ Alike history history') (asset : AssetId) :
    history.flatMap (fun done => done.1.records asset done.2) =
      history'.flatMap (fun done => done.1.records asset done.2) := by
  induction h with
  | nil => rfl
  | cons hdone _ ih => rw [List.flatMap_cons, List.flatMap_cons, ih, records_congr hdone]

end BackendCall

theorem toJson_writeEvent (kind : WriteKind) (asset : AssetId) (keys : List String)
    (written : Except StoreError Receipt) :
    AuditEvent.toJson (.write ⟨kind, asset, keys, .ofResult written⟩) =
      writeRecord kind asset keys (written.mapError .store) := by
  rcases written with error | receipt
  · cases kind <;> rfl
  · funext time
    unfold writeRecord
    -- A receipt that counts no row is recorded as a row that was missing.
    by_cases hzero : receipt.rows = 0
    · have hmissing : WriteOutcome.ofResult (.ok receipt) = .missing := by
        simp [WriteOutcome.ofResult, Receipt.applied, hzero]
      simp only [hmissing, Except.mapError, hzero, if_true]
      cases kind <;> rfl
    · have happlied : WriteOutcome.ofResult (.ok receipt) = .applied receipt.rows := by
        simp [WriteOutcome.ofResult, Receipt.applied, hzero]
      simp only [happlied, Except.mapError, if_neg hzero]
      cases kind <;> rfl

theorem toJson_queryEvent (asset : AssetId) (format : Format) (countOnly : Bool)
    (result : Except QueryError Query) :
    AuditEvent.toJson (.query ⟨asset, format, countOnly, .ofResult result⟩) =
      queryRecord asset format countOnly result := by
  rcases result with (error | error) | query
  · rfl
  · rfl
  · rfl

namespace Handle

/-- The event of a write says what the operation gave back. -/
theorem toJson_events_settle (handle : Handle) (kind : WriteKind) (keys : List String)
    (change : Document → Document) (written : Except StoreError Receipt × σ) :
    (handle.settle kind keys change written).events.map AuditEvent.toJson =
      [writeRecord kind handle.asset keys (handle.settle kind keys change written).result] := by
  rcases written with ⟨error | receipt, state⟩
  · exact congrArg (fun record => [record])
      (toJson_writeEvent kind handle.asset keys (.error error))
  · exact congrArg (fun record => [record]) (toJson_writeEvent kind handle.asset keys (.ok receipt))

theorem asset_settle (handle : Handle) (kind : WriteKind) (keys : List String)
    (change : Document → Document) (written : Except StoreError Receipt × σ) :
    (handle.settle kind keys change written).handle.asset = handle.asset := by
  rcases written with ⟨error | receipt, state⟩
  · rfl
  · rfl

theorem asset_refresh (store : RowStore σ) (handle : Handle) (state : σ) :
    (handle.refresh store state).handle.asset = handle.asset := by
  unfold refresh
  split
  · rfl
  · rfl
  · rfl

theorem events_refresh (store : RowStore σ) (handle : Handle) (state : σ) :
    (handle.refresh store state).events = [] := by
  unfold refresh
  split
  · rfl
  · rfl
  · rfl

end Handle

namespace Services

theorem toJson_events_audited (services : Services σ τ) (r : Request) (state : τ) :
    (Request.audited services.permissions r state).events.map AuditEvent.toJson =
      [queryRecord r.asset r.format (r.mode = .count) (services.validated r state).1] :=
  congrArg (fun record => [record])
    (toJson_queryEvent r.asset r.format (r.mode = .count) (services.validated r state).1)

end Services

namespace Session

/-- No operation leaves the asset. -/
theorem asset_run (services : Services σ τ) (session : Session σ τ) (call : BackendCall) :
    (session.run services call).session.handle.asset = session.handle.asset := by
  cases call with
  | get path default => rfl
  | refresh => exact session.handle.asset_refresh _ _
  | save updates now => exact session.handle.asset_settle _ _ _ _
  | setStatus status now => exact session.handle.asset_settle _ _ _ _
  | delete now => exact session.handle.asset_settle _ _ _ _
  | validate r => rfl
  | list r => rfl
  | find r id => rfl
  | count r => rfl

/-- An operation leaves the record that the trail owes to it. -/
theorem toJson_events_run (services : Services σ τ) (session : Session σ τ) (call : BackendCall) :
    (session.run services call).events.map AuditEvent.toJson =
      call.records session.handle.asset (session.run services call).told := by
  cases call with
  | get path default => rfl
  | refresh => exact congrArg (List.map AuditEvent.toJson) (Handle.events_refresh _ _ _)
  | save updates now => exact session.handle.toJson_events_settle _ _ _ _
  | setStatus status now => exact session.handle.toJson_events_settle _ _ _ _
  | delete now => exact session.handle.toJson_events_settle _ _ _ _
  | validate r => exact services.toJson_events_audited (session.ask r) session.engine
  | list r =>
    have hevents := services.events_list (session.ask r) session.engine
    exact (congrArg (List.map AuditEvent.toJson) hevents).trans (services.toJson_events_audited _ _)
  | find r id =>
    -- The events of the list are kept; only its result is cut down.
    have hevents := services.events_list ((session.ask r).seeking id) session.engine
    exact (congrArg (List.map AuditEvent.toJson) hevents).trans (services.toJson_events_audited _ _)
  | count r =>
    -- Whether anything is validated is up to the counter, for the event as for the record.
    have hevents := services.events_count (session.ask r) session.engine
    refine (congrArg (List.map AuditEvent.toJson) hevents).trans ?_
    simp only [run]
    cases services.counter with
    | none => rfl
    | some counter => exact services.toJson_events_audited _ _

/-- The history of a run has its operations in order. -/
theorem map_fst_history_runAll (services : Services σ τ) (session : Session σ τ)
    (calls : List BackendCall) :
    (session.runAll services calls).history.map Sigma.fst = calls := by
  induction calls generalizing session with
  | nil => rfl
  | cons call rest ih => exact congrArg (call :: ·) (ih (session.run services call).session)

/-- A run leaves the records that the trail owes to its operations. -/
theorem toJson_events_runAll (services : Services σ τ) (session : Session σ τ)
    (calls : List BackendCall) :
    (session.runAll services calls).events.map AuditEvent.toJson =
      (session.runAll services calls).history.flatMap fun done =>
        done.1.records session.handle.asset done.2 := by
  induction calls generalizing session with
  | nil => rfl
  | cons call rest ih =>
    -- The calls behind the first one go to the session that it left, about the same
    -- asset.
    have hlater := ih (session.run services call).session
    rw [session.asset_run services call] at hlater
    simp only [runAll, List.map_append, List.flatMap_cons]
    rw [toJson_events_run, hlater]

/-- The trail of every run is complete and exact: the operations leave, in
    their order, the records that the trail owes to them, each fixed by the
    operation and by what it was told. And it is redacted: a run of operations
    that only values and payloads tell apart, told alike, leaves the same
    trail, whoever answers in it. -/
theorem trail_of_runAll (services : Services σ τ) (session : Session σ τ)
    (calls : List BackendCall) :
    (session.runAll services calls).history.map Sigma.fst = calls ∧
      (session.runAll services calls).events.map AuditEvent.toJson =
        (session.runAll services calls).history.flatMap (fun done =>
          done.1.records session.handle.asset done.2) ∧
      ∀ {σ' τ' : Type} (services' : Services σ' τ') (session' : Session σ' τ')
        (calls' : List BackendCall), session'.handle.asset = session.handle.asset →
        List.Forall₂ BackendCall.Alike (session.runAll services calls).history
          (session'.runAll services' calls').history →
        (session'.runAll services' calls').events.map AuditEvent.toJson =
          (session.runAll services calls).events.map AuditEvent.toJson := by
  refine ⟨map_fst_history_runAll services session calls,
    toJson_events_runAll services session calls, ?_⟩
  intro σ' τ' services' session' calls' hasset halike
  -- Both trails are functions of what was told, and what was told is alike.
  rw [toJson_events_runAll, toJson_events_runAll, hasset]
  exact (BackendCall.flatMap_records_congr halike session.handle.asset).symm

/-- Services over a store in memory that can be scripted to fail; everybody may
    see everything, there is nothing to be seen, and nobody counts. -/
def emptyServices : Services (Script × MemoryStore) Unit where
  store := MemoryStore.calls.scripted
  permissions _ _ := pure (.ok (.object []))
  engine _ _ state := (.ok [], state)
  counter := none

/-- A session of an asset that has a row, with a failure that waits for the
    document to be emptied. -/
def waitingSession : Session (Script × MemoryStore) Unit where
  handle := ⟨⟨"aX"⟩, .empty, none⟩
  rows := (Script.empty.fail .clear (.engine "busy"), ⟨[(⟨"aX"⟩, .blank)]⟩)
  engine := ()

/-- A write, a refused request, a search, a count that nobody makes, and a write
    that fails. -/
def discreetRun (value : Json) (principal : PrincipalId) (start : String) (id : SubmissionId) :
    List BackendCall :=
  [.save (.single "label" value) 20,
    .validate ⟨⟨""⟩, principal, .structured, .list, .ofPairs [("start", start)]⟩,
    .find ⟨⟨""⟩, principal, .text, .list, .empty⟩ id,
    .count ⟨⟨""⟩, principal, .structured, .count, .empty⟩,
    .delete 30]

theorem trail_of_runAll_discreetRun :
    (waitingSession.runAll emptyServices
        (discreetRun (.string "secret") ⟨"alice"⟩ "-5" ⟨7⟩)).events.map AuditEvent.toJson =
      (waitingSession.runAll emptyServices
        (discreetRun (.bool true) ⟨"bob"⟩ "ten" ⟨8⟩)).events.map AuditEvent.toJson := by
  refine (trail_of_runAll emptyServices waitingSession
    (discreetRun (.bool true) ⟨"bob"⟩ "ten" ⟨8⟩)).2.2 emptyServices waitingSession
    (discreetRun (.string "secret") ⟨"alice"⟩ "-5" ⟨7⟩) rfl ?_
  have hkeys : (Document.single "label" (.bool true)).keys =
      (Document.single "label" (.string "secret")).keys := rfl
  have hsave : BackendCall.Alike ⟨.save (.single "label" (.bool true)) 20, .ok ⟨20, 1⟩⟩
      ⟨.save (.single "label" (.string "secret")) 20, .ok ⟨20, 1⟩⟩ := .save hkeys _
  have hdelete : BackendCall.Alike ⟨.delete 30, .error (.store (.engine "busy"))⟩
      ⟨.delete 30, .error (.store (.engine "busy"))⟩ := .delete _
  -- Both requests blame the start, and both searches are accepted.
  refine .cons hsave (.cons (.validate rfl rfl ?_) (.cons (.find rfl ?_)
    (.cons (.count .none) (.cons hdelete .nil))))
  · exact .rejected rfl
  · exact .accepted

end Session

end Fieldwork
