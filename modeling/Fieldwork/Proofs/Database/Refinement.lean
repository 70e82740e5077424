import Fieldwork.Proofs.Database.Keeping
import Mathlib.Data.List.Infix

/-!
# A Database Answers as the Memory Does

The two row stores cannot be told apart by what they answer.

One of them keeps documents, the other texts that statements edit. Run by run
they agree, because they agree row by row: a database `Mirrors` the memory
when it has, for every asset, the text of the memory's row. A call that is
accepted is answered from such a row and leaves such a row, whatever it does,
and the rows of other assets stay as they are.

The conditions on a run are the ones that a database states and the memory
does not. Keys have to be quotable, the values of a merge have to be small
enough together, and the engine has to have room for what is written. No
document may nest deeper than a reader of texts goes, and the reader has to
find the numbers that were sent. What is said of depth and room is about the
documents that are stored: a merge into a row that is not there stores nothing,
however deep its values.

## Main definitions

* `StoreCall.Readable`: A call whose numbers a reader finds again.
* `Mirrors`: A database has the rows of the memory.
* `Admissible`: A run within the limits of a database.

## Theorems

* `run_of_mirrors`: One call on both sides.
* `replies_of_mirrors`: A run on both sides.
* `accepted_of_admissible`: Within the limits every call is accepted.
* `replies_eq_replies_memory`: From empty stores the answers are the same.
-/

namespace Fieldwork

namespace StoreCall

/-- A merge whose numbers a reader finds again. -/
def Readable : StoreCall → Prop
  | merge _ updates _ => updates.reread = updates
  | _ => True

/-- Where a reader finds what is stored, an answer is that of the memory. -/
theorem answer_reread {row : Option Row}
    (h : ∀ found ∈ row, found.document.reread = found.document) (call : StoreCall) :
    call.answer Document.reread row = call.answer id row := by
  cases call with
  | load asset =>
    cases row with
    | none => rfl
    | some found =>
      rw [answer, answer, Option.map_some, Option.map_some, Row.readBy, h found rfl]
      rfl
  | create asset | merge asset updates now | clear asset now | delete asset => rfl

/-- What is sent is found again, so what is stored after it is. -/
theorem reread_next {call : StoreCall} (hcall : call.Readable) {row : Option Row}
    (hrow : ∀ found ∈ row, found.document.reread = found.document) :
    ∀ found ∈ call.next row, found.document.reread = found.document := by
  intro found hfound
  cases call with
  | create asset =>
    cases hfound
    cases row with
    | none => rfl
    | some old => exact hrow old rfl
  | load asset => exact hrow found hfound
  | merge asset updates now =>
    rcases Option.map_eq_some_iff.1 hfound with ⟨old, hold, rfl⟩
    have hupdates : updates.reread = updates := hcall
    rw [Row.written, Document.reread_merge, hrow old hold, hupdates]
  | clear asset now =>
    rcases Option.map_eq_some_iff.1 hfound with ⟨old, -, rfl⟩
    rfl
  | delete asset => cases hfound

end StoreCall

namespace Database

/-- A database has the rows of the memory, and a reader finds their numbers. -/
structure Mirrors (db : Database) (store : MemoryStore) : Prop where
  /-- The texts are those of the documents. -/
  rows : ∀ asset, Holds .written db asset (store.find? asset)
  /-- The documents are what is read of their texts. -/
  readable : ∀ asset, ∀ found ∈ store.find? asset, found.document.reread = found.document

theorem mirrors_empty {db : Database} (h : db.assets = some []) : db.Mirrors .empty :=
  ⟨holds_none_of_nil .written h, fun _ _ hfound => by cases hfound⟩

/-- One call on both sides: the same answer, and the same rows after it. -/
theorem run_of_mirrors {db : Database} {store : MemoryStore} (h : db.Mirrors store)
    {call : StoreCall} (hcall : call.DistinctKeys) (hreadable : call.Readable)
    (haccepted : call.Accepted (store.find? call.asset)) :
    (call.run calls db).1 = (call.run MemoryStore.calls store).1 ∧
      (call.run calls db).2.Mirrors (call.run MemoryStore.calls store).2 := by
  -- The memory answers every call, so the database has to answer it as well.
  rcases MemoryStore.run_eq call store with ⟨rows, hmemory, hself, hother⟩
  rcases run_of_accepted hcall (h.rows call.asset) haccepted with ⟨after, hrun, hafter⟩
  have hframe {asset : AssetId} (hne : asset ≠ call.asset) {row : Option Row}
      (hrow : Holds .written db asset row) : Holds .written after asset row := by
    have hkept := (keeps .written).other call db asset row hne hrow
    rwa [hrun] at hkept
  rw [hrun, hmemory]
  refine ⟨call.answer_reread (h.readable call.asset), fun asset => ?_, fun asset => ?_⟩
  · by_cases hasset : asset = call.asset
    · subst hasset
      rw [hself]
      exact hafter
    · rw [hother asset hasset]
      exact hframe hasset (h.rows asset)
  · by_cases hasset : asset = call.asset
    · subst hasset
      rw [hself]
      exact StoreCall.reread_next hreadable (h.readable call.asset)
    · rw [hother asset hasset]
      exact h.readable asset

/-- A run on both sides, when each call is accepted where it is made. -/
theorem replies_of_mirrors {db : Database} {store : MemoryStore} (h : db.Mirrors store)
    {run : List StoreCall} (hdistinct : ∀ call ∈ run, call.DistinctKeys)
    (hreadable : ∀ call ∈ run, call.Readable)
    (haccepted : ∀ before call rest, run = before ++ call :: rest →
      call.Accepted ((MemoryStore.calls.after store before).find? call.asset)) :
    calls.replies db run = MemoryStore.calls.replies store run := by
  induction run generalizing db store with
  | nil => rfl
  | cons call rest ih =>
    rcases List.forall_mem_cons.1 hdistinct with ⟨hcall, hrest⟩
    rcases List.forall_mem_cons.1 hreadable with ⟨hread, hlater⟩
    rcases run_of_mirrors h hcall hread (haccepted [] call rest rfl) with ⟨hreply, hafter⟩
    -- The rest of the run starts from stores that mirror each other again.
    rw [RowStore.replies, RowStore.replies, hreply, ih hafter hrest hlater]
    intro before next later heq
    exact haccepted (call :: before) next later (by rw [heq, List.cons_append])

/-- A run within the limits of a database. -/
structure Admissible (run : List StoreCall) : Prop where
  /-- The values of updates have each key once. -/
  distinct : ∀ call ∈ run, call.DistinctKeys
  /-- A reader finds the numbers of updates again. -/
  readable : ∀ call ∈ run, call.Readable
  /-- Every merge has keys that can be quoted and values that are small enough
      together. -/
  encodable : ∀ call ∈ run, call.Encodable
  /-- No document that is stored on the way nests too deep for a reader. -/
  nested : ∀ before, before <+: run →
    ∀ asset, ∀ row ∈ (MemoryStore.calls.after .empty before).find? asset,
      row.document.toJson.depth ≤ Json.depthLimit
  /-- The engine has room for every call. -/
  room : ∀ before call, before ++ [call] <+: run →
    call.HasRoom ((MemoryStore.calls.after .empty before).find? call.asset)

/-- A document that a reader nests is one that the engine nests. -/
theorem shallow_of_depth_le {document : Document}
    (h : document.toJson.depth ≤ Json.depthLimit) : Shallow document.fields := by
  have hvalues := Document.depth_toJson_le_iff.1 h
  exact fun entry hentry => Nat.lt_of_le_of_lt (hvalues entry hentry) (by decide)

/-- Within the limits every call is accepted. -/
theorem accepted_of_admissible {run before rest : List StoreCall} {call : StoreCall}
    (h : Admissible run) (hrun : run = before ++ call :: rest) :
    call.Accepted ((MemoryStore.calls.after .empty before).find? call.asset) := by
  have hbefore : before <+: run := ⟨call :: rest, hrun.symm⟩
  have hmem : call ∈ run := by
    rw [hrun]
    exact List.mem_append_right before List.mem_cons_self
  have hroom : before ++ [call] <+: run := ⟨rest, by rw [List.append_assoc, hrun]; rfl⟩
  refine ⟨h.encodable call hmem, ?_, h.room before call hroom⟩
  cases call with
  | create asset => exact trivial
  | load asset => exact h.nested before hbefore asset
  | merge asset updates now =>
    intro found hfound
    refine ⟨shallow_of_depth_le (h.nested before hbefore asset found hfound), ?_⟩
    -- The row after the merge is stored, and it has all values of the updates.
    rcases MemoryStore.run_eq (.merge asset updates now) (MemoryStore.calls.after .empty before)
      with ⟨store, hstep, hself, -⟩
    have hnext : (MemoryStore.calls.after .empty (before ++ [.merge asset updates now])).find?
        asset = some (found.written (·.merge updates) now) := by
      have hrow : (MemoryStore.calls.after .empty before).find? asset = some found := hfound
      rw [StoreCall.asset, hrow] at hself
      rw [RowStore.after_concat, hstep]
      exact hself
    have hshallow := shallow_of_depth_le (h.nested _ hroom asset _ hnext)
    exact fun entry hentry => hshallow entry
      (Ordered.mem_merge_of_mem found.document.distinct updates.distinct hentry)
  | clear asset now => exact trivial
  | delete asset => exact trivial

/-- From empty stores the answers of a run are the same, as long as the run is
    within the limits of a database. -/
theorem replies_eq_replies_memory {db : Database} (hdb : db.assets = some [])
    {run : List StoreCall} (h : Admissible run) :
    calls.replies db run = MemoryStore.calls.replies .empty run :=
  replies_of_mirrors (mirrors_empty hdb) h.distinct h.readable fun _ _ _ hrun =>
    accepted_of_admissible h hrun

/-- A run with what could tell the stores apart: values that are escaped, a
    clock that goes back, a merge of nothing and a merge into no row, and a row
    that is made again. -/
def eventfulRun : List StoreCall :=
  let asset : AssetId := ⟨"aX"⟩
  [.create asset,
    .merge asset (.ofList [("label", .string "line\nand \"quote\""), ("flags", .array [.null])]) 20,
    .merge asset (.ofList [("flags", .object [("on", .bool true)]), ("label", .string "")]) 10,
    .merge asset .empty 30,
    .load asset,
    .merge ⟨"bX"⟩ (.single "status" (.string "synced")) 40,
    .clear asset 5,
    .delete asset,
    .create asset,
    .merge asset (.single "version" (.string "\x01")) 1,
    .load asset]

/-- The run is within the limits. -/
theorem admissible_eventfulRun : Admissible eventfulRun := by
  refine ⟨?_, ?_, ?_, ?_, ?_⟩
  · decide
  · simp only [eventfulRun, List.forall_mem_cons, List.not_mem_nil, false_implies, implies_true,
      and_true]
    exact ⟨trivial, rfl, rfl, rfl, trivial, rfl, trivial, trivial, trivial, rfl, trivial⟩
  · decide +kernel
  · have hrows : ∀ before ∈ eventfulRun.inits,
        ∀ entry ∈ (MemoryStore.calls.after .empty before).rows,
          entry.2.document.toJson.depth ≤ Json.depthLimit := by
      decide +kernel
    intro before hbefore asset row hrow
    -- There are finitely many rows, though the condition is one on all assets.
    rcases List.lookup_eq_some_iff.1 (Option.mem_def.1 hrow) with ⟨front, rest, heq, -⟩
    refine hrows before ((List.mem_inits before eventfulRun).2 hbefore) (asset, row) ?_
    rw [heq]
    exact List.mem_append_right front List.mem_cons_self
  · have hrooms : ∀ before ∈ eventfulRun.inits, ∀ call ∈ eventfulRun,
        call.HasRoom ((MemoryStore.calls.after .empty before).find? call.asset) := by
      decide +kernel
    intro before call hbegins
    -- Each call would have room at each moment, so nothing depends on the order.
    refine hrooms before ((List.mem_inits before eventfulRun).2 ?_) call (hbegins.subset ?_)
    · exact (List.prefix_append before [call]).trans hbegins
    · exact List.mem_append_right before (List.mem_singleton_self call)

/-- A run on a file that was just opened. -/
theorem replies_eventfulRun_eq :
    blank.open? = .ok ⟨some currentVersion, some [], some .empty⟩ ∧ Admissible eventfulRun ∧
      calls.replies ⟨some currentVersion, some [], some .empty⟩ eventfulRun =
        MemoryStore.calls.replies .empty eventfulRun :=
  ⟨rfl, admissible_eventfulRun, replies_eq_replies_memory rfl admissible_eventfulRun⟩

end Database

end Fieldwork
