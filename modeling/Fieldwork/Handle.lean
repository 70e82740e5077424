import Fieldwork.Audit.Event

/-!
# Deployment Handles

One asset's document with a cached copy.

A handle reads from its copy and writes through its store. The copy follows
only what the store has committed: when a write fails, the copy stays what it
was, and when it succeeds, the same change is made to the copy. A write that
found no row has succeeded as far as the store can tell; it changes the
document of the copy but not its stamp. Other writers are seen after a refresh
and not before.

Each write leaves one event for the audit log, also when it fails. Reads and
refreshes leave none.

## Main definitions

* `DeploymentError`: Why an operation fails.
* `Handle`: An asset with its cached document and stamp.
* `Outcome`: What an operation leaves behind.
* `Handle.create?`, `Handle.open?`: New handles.
* `Handle.save`, `Handle.setStatus`, `Handle.delete`, `Handle.refresh`: The
  operations.
-/

namespace Fieldwork

/-- Why an operation of a handle fails. -/
inductive DeploymentError where
  /-- The asset has no row. -/
  | notFound (asset : AssetId)
  /-- The store failed. -/
  | store (error : StoreError)
  deriving DecidableEq

/-- The wording of an error. -/
def DeploymentError.message : DeploymentError → String
  | notFound asset => "asset not found: " ++ asset.name
  | store error => error.message

/-- An asset with its cached document and stamp. -/
@[ext]
structure Handle where
  /-- The asset. -/
  asset : AssetId
  /-- The document as last loaded or written. -/
  document : Document
  /-- The stamp of the last write that the handle has seen. -/
  stamp : Option Stamp
  deriving DecidableEq

/-- What an operation leaves behind. -/
@[ext]
structure Outcome (σ α : Type) where
  /-- Its result. -/
  result : Except DeploymentError α
  /-- The handle after it. -/
  handle : Handle
  /-- The store after it. -/
  store : σ
  /-- The events for the audit log. -/
  events : List AuditEvent

namespace Handle

variable {σ : Type}

/-- A handle over the row of an asset, which has to be there. -/
def open? (store : RowStore σ) (asset : AssetId) (state : σ) : Except DeploymentError Handle × σ :=
  match store.load asset state with
  | (.error error, state) => (.error (.store error), state)
  | (.ok none, state) => (.error (.notFound asset), state)
  | (.ok (some row), state) => (.ok ⟨asset, row.document, row.stamp⟩, state)

/-- A handle over the row of an asset, which is made unless it is there. -/
def create? (store : RowStore σ) (asset : AssetId) (state : σ) :
    Except DeploymentError Handle × σ :=
  match store.create asset state with
  | (.error error, state) => (.error (.store error), state)
  | (.ok (), state) => open? store asset state

/-- The value at a dotted path of the cached document. -/
def get (handle : Handle) (path : Option String) (default : Json) : Json :=
  handle.document.get path default

/-- The handle after a write that the store has committed. -/
def committed (handle : Handle) (change : Document → Document) (receipt : Receipt) : Handle :=
  { handle with
    document := change handle.document
    -- Without a row nothing was stamped.
    stamp := if receipt.applied then some receipt.stamp else handle.stamp }

/-- Takes a write of the store over to the handle, and leaves its event. -/
def settle (handle : Handle) (kind : WriteKind) (keys : List String)
    (change : Document → Document) (written : Except StoreError Receipt × σ) : Outcome σ Receipt :=
  let events := [.write ⟨kind, handle.asset, keys, .ofResult written.1⟩]
  match written with
  | (.error error, state) => ⟨.error (.store error), handle, state, events⟩
  | (.ok receipt, state) => ⟨.ok receipt, handle.committed change receipt, state, events⟩

/-- Merges updates into the stored document, then into the copy. -/
def save (store : RowStore σ) (handle : Handle) (updates : Document) (now : Stamp) (state : σ) :
    Outcome σ Receipt :=
  handle.settle .merge updates.keys (·.merge updates) (store.merge handle.asset updates now state)

/-- Stores a status. -/
def setStatus (store : RowStore σ) (handle : Handle) (status : Status) (now : Stamp) (state : σ) :
    Outcome σ Receipt :=
  handle.save store (Document.single Document.statusKey (.string status.label)) now state

/-- Empties the stored document, then the copy. -/
def delete (store : RowStore σ) (handle : Handle) (now : Stamp) (state : σ) : Outcome σ Receipt :=
  handle.settle .clear [] Document.clear (store.clear handle.asset now state)

/-- Takes the stored row over, and says whether there is one. -/
def refresh (store : RowStore σ) (handle : Handle) (state : σ) : Outcome σ Bool :=
  match store.load handle.asset state with
  | (.error error, state) => ⟨.error (.store error), handle, state, []⟩
  | (.ok none, state) => ⟨.ok false, handle, state, []⟩
  | (.ok (some row), state) =>
    ⟨.ok true, { handle with document := row.document, stamp := row.stamp }, state, []⟩

/-- A value as a text: a string is its own, `null` is none, and any other
    value is written out. -/
def textOf : Json → Option String
  | .null => none
  | .string text => some text
  | value => some value.compact

/-- The text under a key, unless it counts as absent. -/
def textAt (handle : Handle) (key : String) : Option String :=
  textOf (handle.get (some key) .null)

/-- The backend's label. -/
def backend (handle : Handle) : Option String :=
  handle.textAt Document.backendKey

/-- The name that the backend gave the deployment. -/
def identifier (handle : Handle) : Option String :=
  handle.textAt Document.identifierKey

/-- The version that is deployed. -/
def version (handle : Handle) : Option String :=
  handle.textAt Document.versionKey

/-- Whether submissions are taken. -/
def active (handle : Handle) : Bool :=
  !(handle.get (some Document.activeKey) (.bool false)).isFalsy

/-- The word that is stored for the status. -/
def statusText (handle : Handle) : Option String :=
  handle.textAt Document.statusKey

/-- The status, if the stored word stands for one. -/
def status (handle : Handle) : Option Status :=
  handle.statusText.bind Status.ofLabel?

end Handle

end Fieldwork
