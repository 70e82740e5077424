import Fieldwork.Proofs.Database.Keeping
import Fieldwork.Proofs.Handle.Calls

/-!
# The Copy of a Handle

When the copy of a handle is the stored row.

Two things are written by a write, the row and the copy, and nothing ties them
together but the order of the code: the store first, the copy after it and
only if the store has answered. As long as nobody else writes the row that is
enough. `Coherent` says that copy and row are equal, key order and stamp
included, and every event around the handle keeps it: an operation that is
answered changes both in the same way, one that is refused changes neither,
and what happens to other rows changes neither.

With other writers the two part, and a refresh that finds a row brings them
together again, whatever is stored.

A run starts where a handle is opened or created, in any state of a store
whatever. The row may have been put into a database file by another program,
and then it is the document that a reader finds. In a database two things can
come between copy and row. A number may be sent that no reader finds again. A
key may be sent that stands for more than one member of such a row, or for a
member of another name. Both show in the operation that sends them, so it is
an operation that is admissible or not. In memory every operation is.

## Main definitions

* `HandleEvent`: What happens around a handle that alone writes its row.
* `HandleEvent.Admissible`: Events that can be followed.
* `HandleEvent.runAll`: A run of events.
* `Coherent`: The copy is the stored row.

## Theorems

* `coherent_open`, `coherent_create`: A new handle has the stored row.
* `coherent_run`: An event keeps copy and row equal.
* `row?_eq_copy`: After every run of the only writer, and after every refresh,
  the copy is the stored row; an error leaves the copy.
* `row?_ne_copy`: Two saves after which it is not.
-/

namespace Fieldwork

/-- What happens around a handle that alone writes its row. -/
inductive HandleEvent where
  /-- An operation of the handle; its store call fails if there is a fault. -/
  | own (fault : Option StoreError) (call : HandleCall)
  /-- A call of somebody else. -/
  | elsewhere (call : StoreCall)

namespace HandleEvent

variable {σ : Type}

/-- A handle and its store after an event. -/
def run (store : RowStore σ) (session : Handle × σ) : HandleEvent → Handle × σ
  | own fault call =>
    let outcome := call.run (store.failing fault) session.1 session.2
    (outcome.handle, outcome.store)
  | elsewhere call => (session.1, (call.run store session.2).2)

/-- A handle and its store after events in turn. -/
def runAll (store : RowStore σ) (session : Handle × σ) (events : List HandleEvent) : Handle × σ :=
  events.foldl (run store) session

/-- An event that can be followed in a state of a store. Updates have each key
    once, and in a database a reader finds their numbers again and none of their
    keys can be taken for another in the stored text. Other calls are about
    other assets. -/
def Admissible (medium : Medium) (asset : AssetId) (state : medium.State) : HandleEvent → Prop
  | own none call => call.DistinctKeys ∧ call.AdmittedBy medium.asRead asset state
  | own (some _) _ => True
  | elsewhere call => call.asset ≠ asset

/-- Events that can be followed one after the other. -/
def AdmissibleAll (medium : Medium) (asset : AssetId) (session : Handle × medium.State) :
    List HandleEvent → Prop
  | [] => True
  | event :: rest =>
    event.Admissible medium asset session.2 ∧
      AdmissibleAll medium asset (event.run medium.calls session) rest

end HandleEvent

/-- The copy of a handle is the stored row. -/
structure Coherent (medium : Medium) (asset : AssetId) (session : Handle × medium.State) :
    Prop where
  /-- The handle is about the asset. -/
  about : session.1.asset = asset
  /-- The copy is the row. -/
  row : medium.asRead.holds session.2 asset (some session.1.row)

section Coherent

variable {medium : Medium} {asset : AssetId}

theorem coherent_open {state opened : medium.State} {handle : Handle}
    (h : Handle.open? medium.calls asset state = (.ok handle, opened)) :
    Coherent medium asset (handle, opened) := by
  unfold Handle.open? at h
  -- Only a row that was found makes a handle, and the copy is that row.
  rcases hload : medium.calls.load asset state with ⟨_ | _ | found, after⟩
  · rw [hload] at h
    cases h
  · rw [hload] at h
    cases h
  · rw [hload] at h
    cases h
    exact ⟨rfl, Medium.asRead_of_load hload⟩

theorem coherent_create {state opened : medium.State} {handle : Handle}
    (h : Handle.create? medium.calls asset state = (.ok handle, opened)) :
    Coherent medium asset (handle, opened) := by
  unfold Handle.create? at h
  rcases hcreate : medium.calls.create asset state with ⟨_ | _, after⟩
  · rw [hcreate] at h
    cases h
  · -- A handle is created by opening the row that is there then.
    rw [hcreate] at h
    exact coherent_open h

theorem read_asRead (medium : Medium) : medium.asRead.read = id := by
  cases medium <;> rfl

/-- An event keeps copy and row equal. -/
theorem coherent_run {session : Handle × medium.State} (h : Coherent medium asset session)
    {event : HandleEvent} (hevent : event.Admissible medium asset session.2) :
    Coherent medium asset (event.run medium.calls session) := by
  rcases session with ⟨handle, state⟩
  rcases h with ⟨rfl, hrow⟩
  match event with
  | .own (some error) call =>
    rcases call.run_failing medium.calls error handle state with ⟨hhandle, hstate⟩
    rw [HandleEvent.run, hhandle, hstate]
    exact ⟨rfl, hrow⟩
  | .own none call =>
    rcases HandleCall.run_of_keeps medium.keeps_asRead hevent.1 hevent.2 hrow with
      ⟨error, -, hhandle, hstate⟩ | ⟨-, hasset, hnext, hcopy⟩
    · -- The store has refused the call: copy and row are what they were.
      have hsame : HandleEvent.run medium.calls (handle, state) (.own none call) =
          (handle, state) :=
        Prod.ext hhandle hstate
      rw [hsame]
      exact ⟨rfl, hrow⟩
    · -- The copy was the row before, so it has changed as the row has.
      refine ⟨hasset, ?_⟩
      rw [← hcopy (read_asRead medium) rfl] at hnext
      exact hnext
  | .elsewhere call =>
    exact ⟨rfl, medium.keeps_asRead.other call state handle.asset _ (Ne.symm hevent) hrow⟩

theorem coherent_runAll {session : Handle × medium.State} (h : Coherent medium asset session)
    {events : List HandleEvent} (hevents : HandleEvent.AdmissibleAll medium asset session events) :
    Coherent medium asset (HandleEvent.runAll medium.calls session events) := by
  induction events generalizing session with
  | nil => exact h
  | cons event rest ih => exact ih (coherent_run h hevents.1) hevents.2

end Coherent

namespace Handle

/-- The copy of a handle is the stored row after every run in which nobody
    else writes the row, and after every refresh that finds a row whoever else
    writes it. An operation that fails leaves the copy as it was. The handle is
    opened or created in any state of either store. -/
theorem row?_eq_copy (medium : Medium) :
    (∀ (asset : AssetId) (handle : Handle) (state opened : medium.State),
      (create? medium.calls asset state = (.ok handle, opened) ∨
        open? medium.calls asset state = (.ok handle, opened)) →
      ∀ events : List HandleEvent,
        HandleEvent.AdmissibleAll medium asset (handle, opened) events →
          medium.row? (HandleEvent.runAll medium.calls (handle, opened) events).2 asset =
            some (HandleEvent.runAll medium.calls (handle, opened) events).1.row) ∧
    (∀ (fault : Option StoreError) (handle : Handle) (state : medium.State),
      (handle.refresh (medium.calls.failing fault) state).result = .ok true →
        medium.row? (handle.refresh (medium.calls.failing fault) state).store handle.asset =
          some (handle.refresh (medium.calls.failing fault) state).handle.row) ∧
    ∀ (σ : Type) (store : RowStore σ) (handle : Handle) (state : σ) (call : HandleCall)
      (error : DeploymentError), (call.run store handle state).result = .error error →
        (call.run store handle state).handle = handle := by
  refine ⟨?_, ?_, ?_⟩
  · intro asset handle state opened hopened events hevents
    -- A handle starts with the row that it was opened on.
    have hstart : Coherent medium asset (handle, opened) := by
      rcases hopened with hcreate | hopen
      · exact coherent_create hcreate
      · exact coherent_open hopen
    exact Medium.row?_of_asRead (coherent_runAll hstart hevents).row
  · intro fault handle state h
    exact row?_of_refresh medium fault h
  · intro σ store handle state call error h
    exact HandleCall.handle_of_error h

end Handle

/-- What has to be known of a stored text for a merge into it to be followed. -/
theorem Database.admits_merge {db : Database} {asset : AssetId} {row : StoredRow}
    {members : List (String × Written)} {updates : Document} {now : Stamp}
    (hrow : db.stored? asset = some row)
    (htext : Written.read? row.text.toList = some (.object members))
    (hupdates : updates.reread = updates)
    (hsingular : ∀ key ∈ updates.keys, Written.Singular (Ordered.keys members) key) :
    TextView.asRead.rows.admits db (.merge asset updates now) := by
  rintro _ _ _ ⟨⟩ stored hstored
  cases hrow.symm.trans hstored
  refine ⟨hupdates, fun found hfound => ?_⟩
  cases htext.symm.trans hfound
  exact hsingular

/-- A run with a write, a refused write, a write to another asset, a clock that
    goes back and refreshes. -/
def interruptedRun : List HandleEvent :=
  [.own none (.save (.ofList [("a", .bool true), ("c", .null)]) 20),
    .own (some (.engine "busy")) (.delete 30),
    .elsewhere (.create ⟨"bX"⟩),
    .own none (.setStatus .synced 10),
    .own (some (.engine "busy")) .refresh,
    .own none .refresh]

/-- A row that another program has written, with blanks. -/
theorem Handle.row?_eq_copy_interruptedRun :
    let row : StoredRow := ⟨"\x7b \"a\": 1, \"b\": [ ] \x7d", some 9⟩
    let start : Database := ⟨some Database.currentVersion, some [(⟨"aX"⟩, row)], some .empty⟩
    ∃ handle,
      open? Medium.database.calls ⟨"aX"⟩ start = (.ok handle, start) ∧
      Medium.database.row? (HandleEvent.runAll Medium.database.calls (handle, start)
          interruptedRun).2 ⟨"aX"⟩ =
        some (HandleEvent.runAll Medium.database.calls (handle, start) interruptedRun).1.row := by
  intro row start
  let handle : Handle := ⟨⟨"aX"⟩, .ofList [("a", .ofUInt64 1), ("b", .array [])], some 9⟩
  have hopen : open? Medium.database.calls ⟨"aX"⟩ start = (.ok handle, start) := by
    decide +kernel
  have hother : (StoreCall.create ⟨"bX"⟩).asset ≠ ⟨"aX"⟩ := by
    decide
  have hfirst : Written.read? row.text.toList =
      some (.object [("a", .number "1"), ("b", .array [])]) := by
    decide +kernel
  -- What the second merge meets is what the first has left.
  have hstored : Database.stored? (HandleEvent.runAll Medium.database.calls (handle, start)
      (interruptedRun.take 3)).2 ⟨"aX"⟩ =
        some ⟨"\x7b\"a\":true,\"b\":[],\"c\":null\x7d", some 20⟩ := by
    decide +kernel
  have hsecond : Written.read? "\x7b\"a\":true,\"b\":[],\"c\":null\x7d".toList =
      some (.object [("a", .bool true), ("b", .array []), ("c", .null)]) := by
    decide +kernel
  have hevents : HandleEvent.AdmissibleAll .database ⟨"aX"⟩ (handle, start) interruptedRun := by
    refine ⟨⟨by decide, ?_⟩, trivial, hother, ⟨trivial, ?_⟩, trivial, ⟨trivial, ?_⟩, trivial⟩
    · rintro _ ⟨⟩
      exact Database.admits_merge rfl hfirst rfl (by decide)
    · rintro _ ⟨⟩
      exact Database.admits_merge hstored hsecond rfl (by decide)
    · rintro _ ⟨⟩ _ _ _ ⟨⟩
  exact ⟨_, hopen, (row?_eq_copy .database).1 _ _ _ _ (Or.inr hopen) _ hevents⟩

/-- A number whose text a reader takes for the number after it. -/
def unsteady : Number :=
  .float ⟨false, 8514241504521788, -53, by decide⟩

theorem reread_unsteady :
    unsteady.text = "0.9452706955539223".toList ∧
      unsteady.reread = .float ⟨false, 8514241504521789, -53, by decide⟩ := by
  decide +kernel

/-- Two saves of an only writer after which the copy is not the stored row. A
    row of another program names a key twice, and the member that is set is not
    the one that is read. A number is sent to a new row, and a reader of its text
    finds the number after it. -/
theorem Handle.row?_ne_copy :
    (let row : StoredRow := ⟨"\x7b\"a\":1,\"a\":2\x7d", none⟩
      let start : Database := ⟨some Database.currentVersion, some [(⟨"a"⟩, row)], some .empty⟩
      ∃ handle, open? Medium.database.calls ⟨"a"⟩ start = (.ok handle, start) ∧
        let session := HandleEvent.runAll Medium.database.calls (handle, start)
          [.own none (.save (.single "a" (.ofUInt64 3)) 5)]
        session.1.row = ⟨.single "a" (.ofUInt64 3), some 5⟩ ∧
          Medium.database.row? session.2 ⟨"a"⟩ = some ⟨.single "a" (.ofUInt64 2), some 5⟩) ∧
    ∃ handle start,
      create? Medium.database.calls ⟨"a"⟩ Medium.database.empty = (.ok handle, start) ∧
        let session := HandleEvent.runAll Medium.database.calls (handle, start)
          [.own none (.save (.single "x" (.number unsteady)) 5)]
        session.1.row = ⟨.single "x" (.number unsteady), some 5⟩ ∧
          Medium.database.row? session.2 ⟨"a"⟩ =
            some ⟨.single "x" (.number unsteady.reread), some 5⟩ ∧
          unsteady.reread ≠ unsteady := by
  refine ⟨⟨⟨⟨"a"⟩, .single "a" (.ofUInt64 2), none⟩, by decide +kernel, by decide +kernel,
    by decide +kernel⟩, ?_⟩
  let start : Database :=
    ⟨some Database.currentVersion, some [(⟨"a"⟩, ⟨StoredText.blank, none⟩)], some .empty⟩
  have hcreate : create? Medium.database.calls ⟨"a"⟩ Medium.database.empty =
      (.ok ⟨⟨"a"⟩, .empty, none⟩, start) := by
    decide +kernel
  have hblank : Database.Holds .written start ⟨"a"⟩ (some .blank) :=
    ⟨_, rfl, .some ⟨TextView.written.blank, rfl⟩⟩
  have haccepted : (StoreCall.merge ⟨"a"⟩ (.single "x" (.number unsteady)) 5).Accepted
      (some .blank) :=
    ⟨by decide +kernel, by decide, by decide +kernel⟩
  rcases Database.merge_of_accepted (by decide) hblank haccepted with ⟨after, hmerge, hafter⟩
  refine ⟨_, start, hcreate, ?_⟩
  have hsave : (HandleCall.save (.single "x" (.number unsteady)) 5).run
      (Medium.database.calls.failing none) ⟨⟨"a"⟩, .empty, none⟩ start =
        HandleCall.done (settle ⟨⟨"a"⟩, .empty, none⟩ .merge ["x"]
          (·.merge (.single "x" (.number unsteady)))
          (Database.calls.merge ⟨"a"⟩ (.single "x" (.number unsteady)) 5 start)) :=
    rfl
  rw [hmerge] at hsave
  rw [HandleEvent.runAll, List.foldl_cons, List.foldl_nil, HandleEvent.run, hsave]
  refine ⟨rfl, (Database.row?_of_written hafter).trans rfl, ?_⟩
  rw [reread_unsteady.2]
  decide

end Fieldwork
