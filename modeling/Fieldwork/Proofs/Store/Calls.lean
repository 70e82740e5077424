import Fieldwork.Proofs.Json.Nesting
import Fieldwork.Proofs.Ordered
import Fieldwork.Store.Memory

/-!
# Calls on Rows

What the calls of a row store mean, without saying how rows are kept.

A call is about one asset. What it answers depends on the row of that asset
and on nothing else, and that row is all that it changes. So a call is first a
function on rows: `answer` and `next` take the row that is there, or none. A
store keeps rows when each of its calls is that function, behind whatever the
store has instead of rows, or is refused and changes nothing. Refusing is left
to the store: the memory never refuses, a database may, and what is behind a
broken connection always does.

Which row a store has is a matter of how one looks at it, and there is more
than one way to look at a database. A `RowView` is one way. Its rows are a
relation because a database may have what is no row at all, and nothing is said
then; it says which calls it can follow, and what a read finds, which need not
be what was written. Calls about other assets are no concern of it.

An update is a map whose values are maps again, and a map has each key once.
The type of values does not say this of nested maps, so `DistinctKeys` does.

## Main definitions

* `StoreCall`, `StoreReply`: Calls with what is handed to them, and answers.
* `StoreCall.answer`, `StoreCall.next`: A call as a function on a row.
* `RowStore.replies`, `RowStore.after`: A run of calls.
* `RowView`: A way to see rows in the states of a store.
* `RowStore.Keeps`: A store keeps the rows of a view.
* `RowStore.failing`: A store that refuses every call.

## Theorems

* `keeps_failing`: A store that refuses every call keeps rows.
* `MemoryStore.run_eq`: The memory answers every call.
* `MemoryStore.keeps`: The memory keeps rows.
-/

namespace Fieldwork

/-- A call of a row store with what is handed to it. -/
inductive StoreCall where
  /-- Makes an empty row unless there is one. -/
  | create (asset : AssetId)
  /-- Reads a row. -/
  | load (asset : AssetId)
  /-- Merges updates into a row. -/
  | merge (asset : AssetId) (updates : Document) (now : Stamp)
  /-- Empties a row. -/
  | clear (asset : AssetId) (now : Stamp)
  /-- Takes a row out. -/
  | delete (asset : AssetId)

/-- What a call gives back. -/
inductive StoreReply where
  /-- A row was made, or there was one. -/
  | created (result : Except StoreError Unit)
  /-- The row that was read. -/
  | loaded (result : Except StoreError (Option Row))
  /-- The receipt of a write. -/
  | written (result : Except StoreError Receipt)
  /-- Whether there was a row to take out. -/
  | deleted (result : Except StoreError Bool)
  deriving DecidableEq

/-- The row after a write. -/
def Row.written (row : Row) (change : Document → Document) (now : Stamp) : Row :=
  ⟨change row.document, some (nextStamp row.stamp now)⟩

/-- The row that a read finds. -/
def Row.readBy (row : Row) (read : Document → Document) : Row :=
  { row with document := read row.document }

/-- The receipt of a write to a row, or to none. -/
def Receipt.ofRow (row : Option Row) (now : Stamp) : Receipt :=
  match row with
  | none => ⟨now, 0⟩
  | some row => ⟨nextStamp row.stamp now, 1⟩

namespace StoreCall

/-- The asset that a call is about. -/
def asset : StoreCall → AssetId
  | create asset | load asset | merge asset _ _ | clear asset _ | delete asset => asset

/-- The values of an update have each key once. -/
def DistinctKeys : StoreCall → Prop
  | merge _ updates _ => updates.toJson.DistinctKeys
  | _ => True

instance (call : StoreCall) : Decidable call.DistinctKeys :=
  match call with
  | merge _ updates _ => inferInstanceAs (Decidable updates.toJson.DistinctKeys)
  | create _ | load _ | clear _ _ | delete _ => isTrue trivial

/-- What a call answers when its row is `row` and a read finds `read` of a
    document. -/
def answer (read : Document → Document) (row : Option Row) : StoreCall → StoreReply
  | create _ => .created (.ok ())
  | load _ => .loaded (.ok (row.map (·.readBy read)))
  | merge _ _ now | clear _ now => .written (.ok (.ofRow row now))
  | delete _ => .deleted (.ok row.isSome)

/-- The answer of a store that refuses a call. -/
def refused (error : StoreError) : StoreCall → StoreReply
  | create _ => .created (.error error)
  | load _ => .loaded (.error error)
  | merge .. | clear .. => .written (.error error)
  | delete _ => .deleted (.error error)

/-- The row that a call leaves when its row was `row`. -/
def next (row : Option Row) : StoreCall → Option Row
  | create _ => some (row.getD .blank)
  | load _ => row
  | merge _ updates now => row.map fun row => row.written (·.merge updates) now
  | clear _ now => row.map fun row => row.written Document.clear now
  | delete _ => none

variable {σ : Type}

/-- A call on a store. -/
def run (store : RowStore σ) (state : σ) : StoreCall → StoreReply × σ
  | create asset => ((store.create asset state).map .created id)
  | load asset => ((store.load asset state).map .loaded id)
  | merge asset updates now => ((store.merge asset updates now state).map .written id)
  | clear asset now => ((store.clear asset now state).map .written id)
  | delete asset => ((store.delete asset state).map .deleted id)

end StoreCall

namespace RowStore

variable {σ : Type}

/-- What a store answers to calls in turn. -/
def replies (store : RowStore σ) (state : σ) : List StoreCall → List StoreReply
  | [] => []
  | call :: rest =>
    (call.run store state).1 :: store.replies (call.run store state).2 rest

/-- A store after calls in turn. -/
def after (store : RowStore σ) (state : σ) (calls : List StoreCall) : σ :=
  calls.foldl (fun state call => (call.run store state).2) state

theorem after_concat (store : RowStore σ) (state : σ) (calls : List StoreCall)
    (call : StoreCall) :
    store.after state (calls ++ [call]) = (call.run store (store.after state calls)).2 :=
  List.foldl_concat ..

theorem after_append (store : RowStore σ) (state : σ) (first second : List StoreCall) :
    store.after state (first ++ second) = store.after (store.after state first) second :=
  List.foldl_append ..

theorem replies_append (store : RowStore σ) (state : σ) (first second : List StoreCall) :
    store.replies state (first ++ second) =
      store.replies state first ++ store.replies (store.after state first) second := by
  induction first generalizing state with
  | nil => rfl
  | cons call rest ih => exact congrArg _ (ih _)

end RowStore

/-- A way to see rows in the states of a store. -/
structure RowView (σ : Type) where
  /-- The row of an asset. -/
  holds : σ → AssetId → Option Row → Prop
  /-- The calls that the view can follow. -/
  admits : σ → StoreCall → Prop
  /-- What a read finds of a document. -/
  read : Document → Document

namespace RowStore

variable {σ : Type}

/-- A store keeps the rows of a view: a call is refused and changes nothing, or
    it is answered from the row of its asset and changes that row alone. -/
structure Keeps (store : RowStore σ) (view : RowView σ) : Prop where
  /-- The row of the asset that a call is about. -/
  own : ∀ (call : StoreCall) (state : σ) (row : Option Row),
    call.DistinctKeys → view.admits state call → view.holds state call.asset row →
      (∃ error, call.run store state = (call.refused error, state)) ∨
      ∃ after, call.run store state = (call.answer view.read row, after) ∧
        view.holds after call.asset (call.next row)
  /-- The rows of other assets. -/
  other : ∀ (call : StoreCall) (state : σ) (other : AssetId) (row : Option Row),
    other ≠ call.asset → view.holds state other row →
      view.holds (call.run store state).2 other row

section Keeps

variable {store : RowStore σ} {view : RowView σ} {state : σ} {asset : AssetId} {row : Option Row}

theorem eq_of_map_eq {α : Type} {reply : Except StoreError α → StoreReply}
    (hreply : ∀ x y, reply x = reply y → x = y) {outcome : Except StoreError α × σ}
    {result : Except StoreError α} {after : σ} (h : outcome.map reply id = (reply result, after)) :
    outcome = (result, after) := by
  rcases outcome with ⟨found, state⟩
  rcases Prod.mk.inj h with ⟨hfound, rfl⟩
  exact congrArg (·, state) (hreply found result hfound)

/-- A kind of call of which only the answer and the row are of interest. -/
theorem Keeps.of_run {α : Type} (h : store.Keeps view) (call : StoreCall)
    {reply : Except StoreError α → StoreReply} (hreply : ∀ x y, reply x = reply y → x = y)
    {outcome : Except StoreError α × σ} {answer : Option Row → α}
    (hrun : call.run store state = outcome.map reply id)
    (hrefused : ∀ error, call.refused error = reply (.error error))
    (hanswer : ∀ row, call.answer view.read row = reply (.ok (answer row)))
    (hcall : call.DistinctKeys) (hadmits : view.admits state call)
    (hrow : view.holds state call.asset row) :
    (∃ error, outcome = (.error error, state)) ∨
      ∃ after, outcome = (.ok (answer row), after) ∧
        view.holds after call.asset (call.next row) := by
  rcases h.own call state row hcall hadmits hrow with ⟨error, hcalled⟩ | ⟨after, hcalled, hafter⟩
  · rw [hrun, hrefused] at hcalled
    exact Or.inl ⟨error, eq_of_map_eq hreply hcalled⟩
  · rw [hrun, hanswer] at hcalled
    exact Or.inr ⟨after, eq_of_map_eq hreply hcalled, hafter⟩

theorem Keeps.create (h : store.Keeps view) (hadmits : view.admits state (.create asset))
    (hrow : view.holds state asset row) :
    (∃ error, store.create asset state = (.error error, state)) ∨
      ∃ after, store.create asset state = (.ok (), after) ∧
        view.holds after asset (some (row.getD .blank)) :=
  h.of_run (.create asset) (fun _ _ => StoreReply.created.inj) rfl (fun _ => rfl)
    (fun _ => rfl) trivial hadmits hrow

theorem Keeps.load (h : store.Keeps view) (hadmits : view.admits state (.load asset))
    (hrow : view.holds state asset row) :
    (∃ error, store.load asset state = (.error error, state)) ∨
      ∃ after, store.load asset state = (.ok (row.map (·.readBy view.read)), after) ∧
        view.holds after asset row :=
  h.of_run (.load asset) (fun _ _ => StoreReply.loaded.inj) rfl (fun _ => rfl)
    (fun _ => rfl) trivial hadmits hrow

theorem Keeps.merge (h : store.Keeps view) {updates : Document}
    (hu : updates.toJson.DistinctKeys) {now : Stamp}
    (hadmits : view.admits state (.merge asset updates now)) (hrow : view.holds state asset row) :
    (∃ error, store.merge asset updates now state = (.error error, state)) ∨
      ∃ after, store.merge asset updates now state = (.ok (.ofRow row now), after) ∧
        view.holds after asset (row.map fun row => row.written (·.merge updates) now) :=
  h.of_run (.merge asset updates now) (fun _ _ => StoreReply.written.inj) rfl
    (fun _ => rfl) (fun _ => rfl) hu hadmits hrow

theorem Keeps.clear (h : store.Keeps view) {now : Stamp}
    (hadmits : view.admits state (.clear asset now)) (hrow : view.holds state asset row) :
    (∃ error, store.clear asset now state = (.error error, state)) ∨
      ∃ after, store.clear asset now state = (.ok (.ofRow row now), after) ∧
        view.holds after asset (row.map fun row => row.written Document.clear now) :=
  h.of_run (.clear asset now) (fun _ _ => StoreReply.written.inj) rfl (fun _ => rfl)
    (fun _ => rfl) trivial hadmits hrow

end Keeps

/-- A store that refuses every call, if there is an error to refuse it with. -/
def failing (store : RowStore σ) (fault : Option StoreError) : RowStore σ :=
  match fault with
  | none => store
  | some error =>
    { create := fun _ state => (.error error, state)
      load := fun _ state => (.error error, state)
      merge := fun _ _ _ state => (.error error, state)
      clear := fun _ _ state => (.error error, state)
      delete := fun _ state => (.error error, state) }

/-- A store that refuses every call keeps rows. -/
theorem keeps_failing {store : RowStore σ} {view : RowView σ} (h : store.Keeps view)
    (fault : Option StoreError) : (store.failing fault).Keeps view := by
  cases fault with
  | none => exact h
  | some error =>
    have hrefused (call : StoreCall) (state : σ) :
        call.run (store.failing (some error)) state = (call.refused error, state) := by
      cases call <;> rfl
    refine ⟨fun call state row _ _ _ => Or.inl ⟨error, hrefused call state⟩, ?_⟩
    intro call state other row _ hrow
    rw [hrefused]
    exact hrow

end RowStore

namespace MemoryStore

theorem find?_create (asset other : AssetId) (store : MemoryStore) :
    (store.create asset).find? other =
      if other = asset then some ((store.find? asset).getD .blank) else store.find? other := by
  unfold create
  split
  · -- There is a row, and it stays as it is.
    rename_i row hrow
    rw [hrow]
    split
    · rename_i heq
      rw [heq, hrow]
      rfl
    · rfl
  · rename_i hrow
    rw [hrow]
    exact Ordered.lookup_insert asset other Row.blank store.rows

/-- What a write answers, and the row it leaves. -/
theorem update_eq (asset : AssetId) (change : Document → Document) (now : Stamp)
    (store : MemoryStore) :
    (store.update asset change now).1 = .ofRow (store.find? asset) now ∧
      (store.update asset change now).2.find? asset =
        (store.find? asset).map fun row => row.written change now := by
  unfold update
  split
  · rename_i hrow
    rw [hrow]
    exact ⟨rfl, rfl⟩
  · rename_i row hrow
    rw [hrow]
    -- The receipt is read off the row that was found, and the row is put back
    -- changed.
    refine ⟨rfl, ?_⟩
    rw [find?, Ordered.lookup_insert, if_pos rfl]
    rfl

/-- Every row of the memory is seen as it is. -/
def view : RowView MemoryStore where
  holds store asset row := store.find? asset = row
  admits _ _ := True
  read := id

/-- The memory answers every call. -/
theorem run_eq (call : StoreCall) (store : MemoryStore) :
    ∃ after, call.run calls store = (call.answer id (store.find? call.asset), after) ∧
      after.find? call.asset = call.next (store.find? call.asset) ∧
      ∀ other, other ≠ call.asset → after.find? other = store.find? other := by
  -- Each call answers from its one row, changes that row and no other.
  cases call with
  | create asset =>
    refine ⟨store.create asset, rfl, ?_, fun other hne => ?_⟩
    · exact (find?_create asset asset store).trans (if_pos rfl)
    · exact (find?_create asset other store).trans (if_neg hne)
  | load asset =>
    refine ⟨store, ?_, rfl, fun other _ => rfl⟩
    rw [StoreCall.answer, StoreCall.asset]
    show (StoreReply.loaded (.ok (store.find? asset)), store) = _
    cases store.find? asset <;> rfl
  | merge asset updates now =>
    have hupdate := update_eq asset (·.merge updates) now store
    refine ⟨(store.update asset (·.merge updates) now).2, ?_, hupdate.2, fun other hne => ?_⟩
    · rw [StoreCall.answer, StoreCall.asset, ← hupdate.1]
      rfl
    · exact find?_update hne (·.merge updates) now store
  | clear asset now =>
    have hupdate := update_eq asset Document.clear now store
    refine ⟨(store.update asset Document.clear now).2, ?_, hupdate.2, fun other hne => ?_⟩
    · rw [StoreCall.answer, StoreCall.asset, ← hupdate.1]
      rfl
    · exact find?_update hne Document.clear now store
  | delete asset =>
    refine ⟨(store.delete asset).2, rfl, ?_, fun other hne => ?_⟩
    · exact (Ordered.lookup_erase asset asset store.rows).trans (if_pos rfl)
    · exact (Ordered.lookup_erase asset other store.rows).trans (if_neg hne)

/-- The memory keeps rows. -/
theorem keeps : calls.Keeps view := by
  refine ⟨fun call store row _ _ hrow => ?_, fun call store other row hne hrow => ?_⟩
  · rcases run_eq call store with ⟨after, hrun, hself, -⟩
    have hfound : store.find? call.asset = row := hrow
    rw [hfound] at hrun hself
    exact Or.inr ⟨after, hrun, hself⟩
  · rcases run_eq call store with ⟨after, hrun, -, hother⟩
    rw [hrun]
    exact (hother other hne).trans hrow

end MemoryStore

end Fieldwork
