import Fieldwork.Store.Basic

/-!
# Scripted Stores

A layer over a row store that plays faults given beforehand.

Whoever uses a store has to cope with failures and with receipts that another
writer could have caused, and these are hard to bring about. A script lists
them. Its failures form one queue: the first of them waits for its call, and
those behind it wait for the first. A failing call does not reach the store
below. Receipts form a queue of their own; each takes the place of the receipt
of a write that the store below has done.

## Main definitions

* `Call`: The calls that can fail.
* `Script`: The faults to come.
* `RowStore.scripted`: A store with a script in front.
-/

namespace Fieldwork

/-- The calls of a row store. -/
inductive Call where
  /-- Making a row. -/
  | create
  /-- Reading a row. -/
  | load
  /-- Merging updates. -/
  | merge
  /-- Emptying a row. -/
  | clear
  /-- Taking a row out. -/
  | delete
  deriving DecidableEq

/-- The faults to come. -/
@[ext]
structure Script where
  /-- The failures, each with the call that it waits for. -/
  failures : List (Call × StoreError)
  /-- The receipts that take the place of others. -/
  receipts : List Receipt
  deriving DecidableEq

namespace Script

/-- No faults. -/
def empty : Script :=
  ⟨[], []⟩

instance : Inhabited Script := ⟨empty⟩

/-- Puts a failure behind the others. -/
def fail (script : Script) (call : Call) (error : StoreError) : Script :=
  { script with failures := script.failures ++ [(call, error)] }

/-- Puts a receipt behind the others. -/
def plant (script : Script) (receipt : Receipt) : Script :=
  { script with receipts := script.receipts ++ [receipt] }

/-- The failure of a call, if the first one waits for it. -/
def takeFailure (script : Script) (call : Call) : Option StoreError × Script :=
  match script.failures with
  | (waiting, error) :: rest =>
    if waiting = call then (some error, { script with failures := rest }) else (none, script)
  | [] => (none, script)

/-- The receipt of a write, or the one that takes its place. -/
def takeReceipt (script : Script) (receipt : Receipt) : Receipt × Script :=
  match script.receipts with
  | planted :: rest => (planted, { script with receipts := rest })
  | [] => (receipt, script)

end Script

namespace RowStore

variable {σ α : Type}

/-- Does a call unless a failure waits for it. -/
def guarded (call : Call) (act : σ → Except StoreError α × σ) (state : Script × σ) :
    Except StoreError α × (Script × σ) :=
  match state.1.takeFailure call with
  | (some error, script) => (.error error, (script, state.2))
  | (none, script) =>
    let (result, inner) := act state.2
    (result, (script, inner))

/-- Puts the next receipt of the script in the place of one that a write
    gave. -/
def replaced (outcome : Except StoreError Receipt × (Script × σ)) :
    Except StoreError Receipt × (Script × σ) :=
  match outcome with
  | (.ok receipt, (script, inner)) =>
    let (receipt, script) := script.takeReceipt receipt
    (.ok receipt, (script, inner))
  | failed => failed

/-- A store with a script in front. -/
def scripted (store : RowStore σ) : RowStore (Script × σ) where
  create asset := guarded .create (store.create asset)
  load asset := guarded .load (store.load asset)
  merge asset updates now state := replaced (guarded .merge (store.merge asset updates now) state)
  clear asset now state := replaced (guarded .clear (store.clear asset now) state)
  delete asset := guarded .delete (store.delete asset)

end RowStore

end Fieldwork
