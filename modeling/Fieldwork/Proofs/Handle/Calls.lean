import Fieldwork.Handle
import Fieldwork.Proofs.Store.Medium

/-!
# Operations of Handles

What an operation of a handle does, over any store that keeps rows.

An operation has two effects, one after the other: the store takes a write,
and the copy of the handle takes the same write. They are told apart here.
`next` is the effect on the stored row alone, and `run_of_keeps` says that the
row changes by it whatever the copy is. If the copy was the row before, it is
the row after: that is the only place where the copy and the row meet.

An operation that fails has neither effect. The store refused it, and a store
that refuses changes nothing; the copy follows only what the store has done.

## Main definitions

* `DocumentWrite`: The two writes to a document.
* `HandleCall`: Operations with what is handed to them.
* `HandleCall.write?`, `HandleCall.next`: What is written, and the row after
  it.
* `HandleCall.run`: An operation on a handle and a store.
* `HandleCall.call?`: The store call of an operation.
* `HandleCall.Effect`: What an operation may do to row and copy.

## Theorems

* `handle_of_error`: An operation that fails leaves the copy.
* `row?_of_refresh`: After a refresh that finds a row the copy is the row.
* `run_congr`: The copy does not count for what is stored.
* `run_failing`: A store that refuses the call leaves everything.
* `run_of_keeps`: An operation on a store that keeps rows has its effect.
-/

namespace Fieldwork

/-- A write to a document. -/
inductive DocumentWrite where
  /-- Updates are merged. -/
  | merge (updates : Document)
  /-- The document is emptied. -/
  | clear

/-- The document after a write. -/
def DocumentWrite.apply : DocumentWrite → Document → Document
  | merge updates, document => document.merge updates
  | clear, document => document.clear

/-- The copy that a handle has of its row. -/
def Handle.row (handle : Handle) : Row :=
  ⟨handle.document, handle.stamp⟩

/-- An operation of a handle with what is handed to it. -/
inductive HandleCall where
  /-- Reads a path of the copy. -/
  | get (path : Option String) (default : Json)
  /-- Merges updates. -/
  | save (updates : Document) (now : Stamp)
  /-- Stores a status. -/
  | setStatus (status : Status) (now : Stamp)
  /-- Empties the document. -/
  | delete (now : Stamp)
  /-- Takes the stored row over. -/
  | refresh

namespace HandleCall

/-- What an operation writes and when, if it writes anything. -/
def write? : HandleCall → Option (DocumentWrite × Stamp)
  | save updates now => some (.merge updates, now)
  | setStatus status now =>
    some (.merge (.single Document.statusKey (.string status.label)), now)
  | delete now => some (.clear, now)
  | get .. | refresh => none

/-- The values of updates have each key once. -/
def DistinctKeys : HandleCall → Prop
  | save updates _ => updates.toJson.DistinctKeys
  | _ => True

instance (call : HandleCall) : Decidable call.DistinctKeys :=
  match call with
  | save updates _ => inferInstanceAs (Decidable updates.toJson.DistinctKeys)
  | get .. | setStatus .. | delete _ | refresh => isTrue trivial

/-- The stored row after an operation that succeeds. -/
def next (row : Row) (call : HandleCall) : Row :=
  match call.write? with
  | none => row
  | some (write, now) => row.written write.apply now

variable {σ : Type}

/-- An outcome without what the operation answered. -/
def done {α : Type} (outcome : Outcome σ α) : Outcome σ Unit :=
  ⟨outcome.result.map fun _ => (), outcome.handle, outcome.store, outcome.events⟩

/-- An operation on a handle and a store. -/
def run (store : RowStore σ) (handle : Handle) (state : σ) : HandleCall → Outcome σ Unit
  | get _ _ => ⟨.ok (), handle, state, []⟩
  | save updates now => done (handle.save store updates now state)
  | setStatus status now => done (handle.setStatus store status now state)
  | delete now => done (handle.delete store now state)
  | refresh => done (handle.refresh store state)

end HandleCall

namespace Handle

variable {σ : Type}

theorem settle_of_error {handle : Handle} {kind : WriteKind} {keys : List String}
    {change : Document → Document} {written : Except StoreError Receipt × σ}
    {error : DeploymentError}
    (h : (handle.settle kind keys change written).result = .error error) :
    (handle.settle kind keys change written).handle = handle := by
  rcases written with ⟨_ | receipt, state⟩
  · rfl
  · cases h

theorem refresh_of_error {store : RowStore σ} {handle : Handle} {state : σ}
    {error : DeploymentError} (h : (handle.refresh store state).result = .error error) :
    (handle.refresh store state).handle = handle := by
  unfold refresh at h ⊢
  split
  · rfl
  · rfl
  · rename_i hload
    rw [hload] at h
    cases h

/-- A write that the store has answered from the row of the copy. -/
theorem row_committed (handle : Handle) (change : Document → Document) (now : Stamp) :
    (handle.committed change (.ofRow (some handle.row) now)).row =
      handle.row.written change now :=
  rfl

/-- After a refresh that finds a row the copy is the row. -/
theorem row?_of_refresh (medium : Medium) (fault : Option StoreError) {handle : Handle}
    {state : medium.State}
    (h : (handle.refresh (medium.calls.failing fault) state).result = .ok true) :
    medium.row? (handle.refresh (medium.calls.failing fault) state).store handle.asset =
      some (handle.refresh (medium.calls.failing fault) state).handle.row := by
  cases fault with
  | some error => cases h
  | none =>
    -- Of the three answers to the load only a row makes the refresh true.
    unfold refresh at h ⊢
    split
    · rename_i hload
      cases hload ▸ h
    · rename_i hload
      cases hload ▸ h
    · rename_i hload
      exact Medium.row?_of_asRead (Medium.asRead_of_load hload)

end Handle

namespace HandleCall

variable {σ : Type}

theorem result_of_done {α : Type} {outcome : Outcome σ α} {error : DeploymentError}
    (h : (done outcome).result = .error error) : outcome.result = .error error := by
  rcases outcome with ⟨_ | answer, handle, state, events⟩
  · cases h
    rfl
  · cases h

/-- An operation that fails leaves the copy. -/
theorem handle_of_error {store : RowStore σ} {handle : Handle} {state : σ} {call : HandleCall}
    {error : DeploymentError} (h : (call.run store handle state).result = .error error) :
    (call.run store handle state).handle = handle := by
  cases call with
  | get path default => rfl
  | save updates now => exact Handle.settle_of_error (result_of_done h)
  | setStatus status now => exact Handle.settle_of_error (result_of_done h)
  | delete now => exact Handle.settle_of_error (result_of_done h)
  | refresh => exact Handle.refresh_of_error (result_of_done h)

theorem settle_congr {handle other : Handle} (h : handle.asset = other.asset) (kind : WriteKind)
    (keys : List String) (change : Document → Document) (written : Except StoreError Receipt × σ) :
    (done (handle.settle kind keys change written)).result =
        (done (other.settle kind keys change written)).result ∧
      (done (handle.settle kind keys change written)).store =
        (done (other.settle kind keys change written)).store ∧
      (done (handle.settle kind keys change written)).handle.asset =
        (done (other.settle kind keys change written)).handle.asset := by
  -- The answer of the store decides, and the copy is only changed by it.
  rcases written with ⟨_ | receipt, state⟩
  · exact ⟨rfl, rfl, h⟩
  · exact ⟨rfl, rfl, h⟩

/-- The copy of a handle counts neither for the store nor for the result. -/
theorem run_congr (store : RowStore σ) {handle other : Handle} (h : handle.asset = other.asset)
    (state : σ) (call : HandleCall) :
    (call.run store handle state).result = (call.run store other state).result ∧
      (call.run store handle state).store = (call.run store other state).store ∧
      (call.run store handle state).handle.asset = (call.run store other state).handle.asset := by
  cases call with
  | get path default => exact ⟨rfl, rfl, h⟩
  | save updates now =>
    unfold run Handle.save
    rw [h]
    exact settle_congr h _ _ _ _
  | setStatus status now =>
    -- A status is saved like any other update.
    unfold run Handle.setStatus Handle.save
    rw [h]
    exact settle_congr h _ _ _ _
  | delete now =>
    unfold run Handle.delete
    rw [h]
    exact settle_congr h _ _ _ _
  | refresh =>
    unfold run Handle.refresh
    rw [h]
    rcases store.load other.asset state with ⟨_ | _ | row, after⟩
    · exact ⟨rfl, rfl, h⟩
    · exact ⟨rfl, rfl, h⟩
    · exact ⟨rfl, rfl, rfl⟩

theorem distinctKeys_status (status : Status) :
    (Document.single Document.statusKey (.string status.label)).toJson.DistinctKeys :=
  Document.distinctKeys_toJson_iff.2 (List.forall_mem_singleton.2 trivial)

/-- The store call of an operation of a handle about an asset. -/
def call? (asset : AssetId) : HandleCall → Option StoreCall
  | get _ _ => none
  | save updates now => some (.merge asset updates now)
  | setStatus status now =>
    some (.merge asset (.single Document.statusKey (.string status.label)) now)
  | delete now => some (.clear asset now)
  | refresh => some (.load asset)

theorem distinctKeys_call? {call : HandleCall} (h : call.DistinctKeys) {asset : AssetId} :
    ∀ found ∈ call.call? asset, found.DistinctKeys := by
  intro found hfound
  cases call with
  | get path default => cases hfound
  | save updates now => exact Option.some.inj hfound ▸ h
  | setStatus status now => exact Option.some.inj hfound ▸ distinctKeys_status status
  | delete now => exact Option.some.inj hfound ▸ trivial
  | refresh => exact Option.some.inj hfound ▸ trivial

/-- A view can follow the store call of an operation. -/
def AdmittedBy (view : RowView σ) (asset : AssetId) (state : σ) (call : HandleCall) : Prop :=
  ∀ found ∈ call.call? asset, view.admits state found

/-- A store that refuses the call leaves the handle and itself. -/
theorem run_failing (store : RowStore σ) (error : StoreError) (handle : Handle) (state : σ)
    (call : HandleCall) :
    (call.run (store.failing (some error)) handle state).handle = handle ∧
      (call.run (store.failing (some error)) handle state).store = state := by
  cases call <;> exact ⟨rfl, rfl⟩

/-- What an operation does when the stored row is `row` and would be `next`:
    it fails and nothing changes, or the stored row is `next`, and so is the
    copy if it was `row` and a read finds what is stored. -/
def Effect (view : RowView σ) (handle : Handle) (state : σ) (row next : Row)
    (outcome : Outcome σ Unit) : Prop :=
  (∃ error, outcome.result = .error error ∧ outcome.handle = handle ∧ outcome.store = state) ∨
    outcome.result = .ok () ∧ outcome.handle.asset = handle.asset ∧
      view.holds outcome.store handle.asset (some next) ∧
      (view.read = id → handle.row = row → outcome.handle.row = next)

/-- A write that a store has refused or answered. -/
theorem effect_settle {view : RowView σ} {handle : Handle} {state : σ} {row : Row}
    {change : Document → Document} {now : Stamp} {written : Except StoreError Receipt × σ}
    (h : (∃ error, written = (.error error, state)) ∨
      ∃ after, written = (.ok (.ofRow (some row) now), after) ∧
        view.holds after handle.asset (some (row.written change now)))
    (kind : WriteKind) (keys : List String) :
    Effect view handle state row (row.written change now)
      (done (handle.settle kind keys change written)) := by
  rcases h with ⟨error, rfl⟩ | ⟨after, rfl, hrow⟩
  · exact Or.inl ⟨.store error, rfl, rfl, rfl⟩
  · refine Or.inr ⟨rfl, rfl, hrow, fun _ => ?_⟩
    -- The copy was the row, and both get the same document and the same stamp.
    rintro rfl
    exact handle.row_committed change now

/-- An operation on a store that keeps rows. -/
theorem run_of_keeps {store : RowStore σ} {view : RowView σ} (hstore : store.Keeps view)
    {call : HandleCall} (hcall : call.DistinctKeys) {handle : Handle} {state : σ}
    (hadmits : call.AdmittedBy view handle.asset state) {row : Row}
    (hrow : view.holds state handle.asset (some row)) :
    Effect view handle state row (call.next row) (call.run store handle state) := by
  cases call with
  | get path default => exact Or.inr ⟨rfl, rfl, hrow, fun _ => id⟩
  | save updates now => exact effect_settle (hstore.merge hcall (hadmits _ rfl) hrow) _ _
  | setStatus status now =>
    exact effect_settle (hstore.merge (distinctKeys_status status) (hadmits _ rfl) hrow) _ _
  | delete now => exact effect_settle (hstore.clear (hadmits _ rfl) hrow) _ _
  | refresh =>
    unfold run Handle.refresh
    -- What is read becomes the copy, whatever the copy was.
    rcases hstore.load (hadmits _ rfl) hrow with ⟨error, hload⟩ | ⟨after, hload, hafter⟩
    · rw [hload]
      exact Or.inl ⟨.store error, rfl, rfl, rfl⟩
    · rw [hload]
      refine Or.inr ⟨rfl, rfl, hafter, fun hread _ => ?_⟩
      rw [hread]
      rfl

end HandleCall

end Fieldwork
