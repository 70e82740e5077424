import Fieldwork.Proofs.Handle.Calls
import Mathlib.Logic.Function.Basic

/-!
# Many Handles on One Row

No update is lost, however the operations of many handles are interleaved.

The handles of a fleet share a store and nothing else. An operation takes two
steps, and other handles may take theirs in between: the store call, which is
atomic, and the copy that follows when the call was answered. Until it has
followed, no other operation of that handle begins. A call may fail at any
point, and then it has written nothing.

The fleet keeps a history of the writes that the store has committed. The
stored document is a function of the history alone, key by key: what the last
merge that named the key gave it, unless a clear came later. What is stored
under a key is looked at as a text, so it does not matter which numbers a
reader finds in it. `Recorded` is that invariant, and it says nothing of the
copies. That the copies do not count at all, not even for what is committed,
takes a second run: `Alike` relates two fleets that differ in their copies only,
and they stay alike.

## Main definitions

* `lastValue?`: What a history leaves under a key.
* `Fleet`: Handles at work on one store.
* `FleetStep`, `Fleet.step`, `Fleet.run`: Steps of a fleet.
* `Fleet.Recorded`: The stored document is that of the history.
* `Fleet.Alike`: Fleets that differ in their copies only.

## Theorems

* `lastValue?_swap`: Writes of different keys commute.
* `recorded_run`: The stored document is that of the history, after any steps.
* `alike_run`: The copies do not count.
* `text?_eq_lastValue?`: No update is lost.
-/

namespace Fieldwork

/-- What a history of writes, last first, leaves under a key. -/
def lastValue? (key : String) : List DocumentWrite → Option Json
  | [] => none
  | .clear :: _ => none
  | .merge updates :: older => (updates.fields.lookup key).or (lastValue? key older)

theorem lastValue?_append_congr {key : String} {xs ys : List DocumentWrite}
    (h : lastValue? key xs = lastValue? key ys) (newer : List DocumentWrite) :
    lastValue? key (newer ++ xs) = lastValue? key (newer ++ ys) := by
  induction newer with
  | nil => exact h
  | cons write rest ih =>
    cases write with
    | clear => rfl
    | merge updates => exact congrArg ((updates.fields.lookup key).or ·) ih

theorem lookup_eq_none_of_notMem {document : Document} {key : String} (h : key ∉ document.keys) :
    document.fields.lookup key = none :=
  Ordered.lookup_eq_none_iff.2 h

/-- Writes of different keys commute. -/
theorem lastValue?_swap {first second : Document} (h : ∀ key ∈ first.keys, key ∉ second.keys)
    (key : String) (newer older : List DocumentWrite) :
    lastValue? key (newer ++ .merge first :: .merge second :: older) =
      lastValue? key (newer ++ .merge second :: .merge first :: older) := by
  refine lastValue?_append_congr ?_ newer
  simp only [lastValue?]
  -- At most one of the two names the key, and the other one does not count.
  by_cases hkey : key ∈ first.keys
  · rw [lookup_eq_none_of_notMem (h key hkey), Option.none_or, Option.none_or]
  · rw [lookup_eq_none_of_notMem hkey, Option.none_or, Option.none_or]

/-- Whether a write may change what is stored under a key: it sends the key,
    or it empties the document. -/
def DocumentWrite.Touches (key : String) : DocumentWrite → Prop
  | merge updates => key ∈ updates.keys
  | clear => True

theorem lastValue?_of_not_touches {key : String} {write : DocumentWrite}
    (h : ¬ write.Touches key) (older : List DocumentWrite) :
    lastValue? key (write :: older) = lastValue? key older := by
  cases write with
  | clear => exact absurd trivial h
  | merge updates => rw [lastValue?, lookup_eq_none_of_notMem h, Option.none_or]

/-- A handle at work. -/
structure Worker where
  /-- The handle as readers see it. -/
  handle : Handle
  /-- What the handle will be when the operation that holds it is over. -/
  pending : Option Handle

/-- Whatever the worker does, it is about the asset. -/
def Worker.About (asset : AssetId) (worker : Worker) : Prop :=
  worker.handle.asset = asset ∧ ∀ handle ∈ worker.pending, handle.asset = asset

theorem Worker.about_free {asset : AssetId} {handle : Handle} (h : handle.asset = asset) :
    About asset ⟨handle, none⟩ :=
  ⟨h, fun _ hnone => by cases hnone⟩

theorem Worker.about_busy {asset : AssetId} {handle next : Handle} (h : handle.asset = asset)
    (hnext : next.asset = asset) : About asset ⟨handle, some next⟩ :=
  ⟨h, fun _ hsome => Option.some.inj hsome ▸ hnext⟩

/-- Handles at work on one store. -/
structure Fleet (ι σ : Type) where
  /-- The handles. -/
  workers : ι → Worker
  /-- The store. -/
  store : σ
  /-- The writes that the store has committed, last first. -/
  history : List DocumentWrite

/-- A step of a fleet. -/
inductive FleetStep (ι : Type) where
  /-- The store call of an operation; it fails if there is a fault. -/
  | start (worker : ι) (fault : Option StoreError) (call : HandleCall)
  /-- The copy follows, and the handle is free again. -/
  | settle (worker : ι)

namespace FleetStep

variable {ι : Type}

/-- The values of updates have each key once. -/
def DistinctKeys : FleetStep ι → Prop
  | start _ _ call => call.DistinctKeys
  | settle _ => True

instance (step : FleetStep ι) : Decidable step.DistinctKeys :=
  match step with
  | start _ _ call => inferInstanceAs (Decidable call.DistinctKeys)
  | settle _ => isTrue trivial

/-- The write that a step may commit. -/
def write? : FleetStep ι → Option DocumentWrite
  | start _ _ call => call.write?.map Prod.fst
  | settle _ => none

/-- Whether a step may change what is stored under a key. -/
def Touches (key : String) (step : FleetStep ι) : Prop :=
  ∃ write, step.write? = some write ∧ write.Touches key

end FleetStep

namespace Fleet

variable {ι σ : Type} [DecidableEq ι]

/-- Handles that are free, over a store to which nothing was written yet. -/
def launch (handles : ι → Handle) (state : σ) : Fleet ι σ :=
  ⟨fun i => ⟨handles i, none⟩, state, []⟩

/-- The history after an operation: a write that was answered is committed. -/
def record (call : HandleCall) (result : Except DeploymentError Unit)
    (history : List DocumentWrite) : List DocumentWrite :=
  match call.write?, result with
  | some (write, _), .ok _ => write :: history
  | _, _ => history

theorem record_error (call : HandleCall) (error : DeploymentError)
    (history : List DocumentWrite) : record call (.error error) history = history := by
  cases call <;> rfl

/-- A fleet after a step. -/
def step (store : RowStore σ) (fleet : Fleet ι σ) : FleetStep ι → Fleet ι σ
  | .start i fault call =>
    match (fleet.workers i).pending with
    -- The operation before it still holds the handle.
    | some _ => fleet
    | none =>
      let outcome := call.run (store.failing fault) (fleet.workers i).handle fleet.store
      ⟨Function.update fleet.workers i ⟨(fleet.workers i).handle, some outcome.handle⟩,
        outcome.store, record call outcome.result fleet.history⟩
  | .settle i =>
    match (fleet.workers i).pending with
    | none => fleet
    | some handle => { fleet with workers := Function.update fleet.workers i ⟨handle, none⟩ }

section Step

variable {store : RowStore σ} {fleet : Fleet ι σ} {i : ι}

theorem step_start (h : (fleet.workers i).pending = none) {fault : Option StoreError}
    {call : HandleCall} :
    fleet.step store (.start i fault call) =
      ⟨Function.update fleet.workers i ⟨(fleet.workers i).handle,
          some (call.run (store.failing fault) (fleet.workers i).handle fleet.store).handle⟩,
        (call.run (store.failing fault) (fleet.workers i).handle fleet.store).store,
        record call (call.run (store.failing fault) (fleet.workers i).handle fleet.store).result
          fleet.history⟩ := by
  simp only [step, h]

theorem step_start_of_busy {handle : Handle} (h : (fleet.workers i).pending = some handle)
    {fault : Option StoreError} {call : HandleCall} :
    fleet.step store (.start i fault call) = fleet := by
  simp only [step, h]

theorem step_settle {handle : Handle} (h : (fleet.workers i).pending = some handle) :
    fleet.step store (.settle i) =
      { fleet with workers := Function.update fleet.workers i ⟨handle, none⟩ } := by
  simp only [step, h]

theorem step_settle_of_free (h : (fleet.workers i).pending = none) :
    fleet.step store (.settle i) = fleet := by
  simp only [step, h]

end Step

/-- A fleet after steps in turn. -/
def run (store : RowStore σ) (fleet : Fleet ι σ) (steps : List (FleetStep ι)) : Fleet ι σ :=
  steps.foldl (step store) fleet

/-- Every handle is about the asset, and the stored document is that of the
    history. -/
structure Recorded (view : RowView σ) (asset : AssetId) (fleet : Fleet ι σ) : Prop where
  /-- What the handles are about, and will be. -/
  about : ∀ i, (fleet.workers i).About asset
  /-- What is stored, key by key. -/
  document : ∃ row, view.holds fleet.store asset (some row) ∧
    ∀ key, row.document.fields.lookup key = lastValue? key fleet.history

section Recorded

variable {store : RowStore σ} {view : RowView σ} {asset : AssetId} {fleet : Fleet ι σ}

omit [DecidableEq ι] in
theorem recorded_launch {handles : ι → Handle} (hhandles : ∀ i, (handles i).asset = asset)
    {state : σ} (hstate : view.holds state asset (some .blank)) :
    Recorded view asset (launch handles state) := by
  exact ⟨fun i => Worker.about_free (hhandles i), .blank, hstate, fun _ => rfl⟩

/-- An answered operation changes the document as it changes the history. -/
theorem lookup_next {row : Row} {history : List DocumentWrite}
    (h : ∀ key, row.document.fields.lookup key = lastValue? key history) (call : HandleCall)
    (key : String) :
    (call.next row).document.fields.lookup key = lastValue? key (record call (.ok ()) history) := by
  have hmerge (updates : Document) : (row.document.merge updates).fields.lookup key =
      (updates.fields.lookup key).or (lastValue? key history) := by
    rw [← h key]
    exact Ordered.lookup_merge_of_distinct updates.distinct row.document.fields key
  cases call with
  | get path default => exact h key
  | save updates now => exact hmerge updates
  | setStatus status now => exact hmerge _
  | delete now => rfl
  | refresh => exact h key

theorem about_update {worker : Worker} (hworker : worker.About asset)
    (hothers : ∀ j, (fleet.workers j).About asset) (i : ι) :
    ∀ j, (Function.update fleet.workers i worker j).About asset :=
  (Function.forall_update_iff _ fun _ (worker : Worker) => worker.About asset).2
    ⟨hworker, fun j _ => hothers j⟩

/-- An operation that begins is refused, and then nothing is written and nothing
    recorded, or it is answered, and then both are. -/
theorem recorded_start (hstore : store.Keeps view) (hview : ∀ state call, view.admits state call)
    (h : Recorded view asset fleet) {i : ι} (hfree : (fleet.workers i).pending = none)
    (fault : Option StoreError) {call : HandleCall} (hcall : call.DistinctKeys) :
    Recorded view asset (fleet.step store (.start i fault call)) := by
  rcases h with ⟨habout, row, hrow, hdocument⟩
  have hasset := (habout i).1
  -- A store with a fault keeps rows as well, so one lemma is for both.
  have heffect := HandleCall.run_of_keeps (RowStore.keeps_failing hstore fault) hcall
    (fun found _ => hview _ found) (hasset ▸ hrow)
  rw [step_start hfree]
  generalize call.run (store.failing fault) (fleet.workers i).handle fleet.store = outcome at *
  rcases heffect with ⟨error, hresult, hhandle, hstate⟩ | ⟨hresult, hnext, hafter, -⟩
  · have hworker : Worker.About asset ⟨(fleet.workers i).handle, some outcome.handle⟩ :=
      Worker.about_busy hasset (hhandle ▸ hasset)
    refine ⟨about_update hworker habout i, row, ?_, fun key => ?_⟩
    · rw [hstate]
      exact hrow
    · rw [hresult, record_error]
      exact hdocument key
  · have hworker : Worker.About asset ⟨(fleet.workers i).handle, some outcome.handle⟩ :=
      Worker.about_busy hasset (hnext.trans hasset)
    refine ⟨about_update hworker habout i, call.next row, hasset ▸ hafter, fun key => ?_⟩
    rw [hresult]
    exact lookup_next hdocument call key

/-- A step keeps the stored document that of the history. -/
theorem recorded_step (hstore : store.Keeps view) (hview : ∀ state call, view.admits state call)
    (h : Recorded view asset fleet) {step : FleetStep ι} (hstep : step.DistinctKeys) :
    Recorded view asset (fleet.step store step) := by
  cases step with
  | start i fault call =>
    rcases hpending : (fleet.workers i).pending with _ | handle
    · exact recorded_start hstore hview h hpending fault hstep
    · rwa [step_start_of_busy hpending]
  | settle i =>
    rcases hpending : (fleet.workers i).pending with _ | handle
    · rwa [step_settle_of_free hpending]
    · -- Only a copy changes, and the invariant does not speak of copies.
      rw [step_settle hpending]
      have hworker : Worker.About asset ⟨handle, none⟩ :=
        Worker.about_free ((h.about i).2 handle hpending)
      exact ⟨about_update hworker h.about i, h.document⟩

theorem recorded_run (hstore : store.Keeps view) (hview : ∀ state call, view.admits state call)
    (h : Recorded view asset fleet) {steps : List (FleetStep ι)}
    (hsteps : ∀ step ∈ steps, step.DistinctKeys) :
    Recorded view asset (fleet.run store steps) := by
  induction steps generalizing fleet with
  | nil => exact h
  | cons step rest ih =>
    rcases List.forall_mem_cons.1 hsteps with ⟨hstep, hrest⟩
    exact ih (recorded_step hstore hview h hstep) hrest

end Recorded

/-- What of a worker does not depend on copies. -/
def outline (worker : Worker) : AssetId × Option AssetId :=
  (worker.handle.asset, worker.pending.map Handle.asset)

/-- Fleets that differ in their copies only. -/
structure Alike (fleet other : Fleet ι σ) : Prop where
  /-- The stores are equal. -/
  store : fleet.store = other.store
  /-- So are the histories. -/
  history : fleet.history = other.history
  /-- The handles are about the same assets, and held by operations at the same
      time. -/
  workers : ∀ i, outline (fleet.workers i) = outline (other.workers i)

section Alike

variable {store : RowStore σ} {fleet other : Fleet ι σ}

theorem outline_update {worker twin : Worker} (hworker : outline worker = outline twin)
    (h : ∀ j, outline (fleet.workers j) = outline (other.workers j)) (i j : ι) :
    outline (Function.update fleet.workers i worker j) =
      outline (Function.update other.workers i twin j) := by
  by_cases hj : j = i
  · subst hj
    rw [Function.update_self, Function.update_self]
    exact hworker
  · rw [Function.update_of_ne hj, Function.update_of_ne hj]
    exact h j

theorem pending_of_outline {worker twin : Worker} (h : outline worker = outline twin) :
    worker.pending = none ∧ twin.pending = none ∨
      ∃ next after, worker.pending = some next ∧ twin.pending = some after ∧
        next.asset = after.asset := by
  have hpending : worker.pending.map Handle.asset = twin.pending.map Handle.asset :=
    congrArg Prod.snd h
  rcases hworker : worker.pending with _ | next
  · rw [hworker] at hpending
    exact Or.inl ⟨rfl, Option.map_eq_none_iff.1 hpending.symm⟩
  · rw [hworker, Option.map_some] at hpending
    rcases Option.map_eq_some_iff.1 hpending.symm with ⟨after, hafter, hasset⟩
    exact Or.inr ⟨next, after, rfl, hafter, hasset.symm⟩

/-- A step does not look at copies. -/
theorem alike_step (h : Alike fleet other) (step : FleetStep ι) :
    Alike (fleet.step store step) (other.step store step) := by
  rcases h with ⟨hstore, hhistory, hworkers⟩
  cases step with
  | start i fault call =>
    rcases pending_of_outline (hworkers i) with ⟨hfree, hother⟩ | ⟨next, after, hbusy, hother, -⟩
    · have hasset : (fleet.workers i).handle.asset = (other.workers i).handle.asset :=
        congrArg Prod.fst (hworkers i)
      -- Both calls go to equal stores, and a call does not see the copy.
      rcases HandleCall.run_congr (store.failing fault) hasset fleet.store call with
        ⟨hresult, hafter, hnext⟩
      rw [step_start hfree, step_start hother, ← hstore, ← hhistory, ← hresult, ← hafter]
      refine ⟨rfl, rfl, outline_update ?_ hworkers i⟩
      rw [outline, outline, hasset, Option.map_some, Option.map_some, hnext]
    · rw [step_start_of_busy hbusy, step_start_of_busy hother]
      exact ⟨hstore, hhistory, hworkers⟩
  | settle i =>
    rcases pending_of_outline (hworkers i) with
      ⟨hfree, hother⟩ | ⟨next, after, hbusy, hother, hasset⟩
    · rw [step_settle_of_free hfree, step_settle_of_free hother]
      exact ⟨hstore, hhistory, hworkers⟩
    · rw [step_settle hbusy, step_settle hother]
      refine ⟨hstore, hhistory, outline_update ?_ hworkers i⟩
      rw [outline, outline, hasset]

theorem alike_run (h : Alike fleet other) (steps : List (FleetStep ι)) :
    Alike (fleet.run store steps) (other.run store steps) := by
  induction steps generalizing fleet other with
  | nil => exact h
  | cons step rest ih => exact ih (alike_step h step)

end Alike

section History

omit [DecidableEq ι] in
/-- The stored members are the texts of what the history leaves. -/
theorem texts?_of_recorded {medium : Medium} {asset : AssetId} {fleet : Fleet ι medium.State}
    (h : Recorded medium.written asset fleet) :
    ∃ texts, medium.texts? fleet.store asset = some texts ∧ Ordered.Distinct texts ∧
      ∀ key, texts.lookup key = (lastValue? key fleet.history).map Json.compact := by
  rcases h.document with ⟨row, hrow, hdocument⟩
  refine ⟨_, Medium.texts?_of_written hrow, ?_, fun key => ?_⟩
  · exact Ordered.distinct_mapValues Json.compact row.document.distinct
  · rw [Ordered.lookup_mapValues, hdocument key]

omit [DecidableEq ι] in
theorem text?_of_recorded {medium : Medium} {asset : AssetId} {fleet : Fleet ι medium.State}
    (h : Recorded medium.written asset fleet) (key : String) :
    medium.text? fleet.store asset key = (lastValue? key fleet.history).map Json.compact := by
  rcases texts?_of_recorded h with ⟨texts, htexts, -, hlookup⟩
  rw [Medium.text?, htexts, Option.bind_some, hlookup]

omit [DecidableEq ι] in
theorem lastValue?_record {i : ι} {fault : Option StoreError} {call : HandleCall} {key : String}
    (h : ¬ (FleetStep.start i fault call).Touches key) (result : Except DeploymentError Unit)
    (history : List DocumentWrite) :
    lastValue? key (record call result history) = lastValue? key history := by
  unfold record
  split
  · rename_i write now value hwrite
    refine lastValue?_of_not_touches (fun htouches => h ⟨write, ?_, htouches⟩) history
    rw [FleetStep.write?, hwrite, Option.map_some]
  · rfl

/-- A step that does not touch a key leaves what the history has under it. -/
theorem lastValue?_step {store : RowStore σ} {fleet : Fleet ι σ} {step : FleetStep ι}
    {key : String} (h : ¬ step.Touches key) :
    lastValue? key (fleet.step store step).history = lastValue? key fleet.history := by
  cases step with
  | start i fault call =>
    rcases hpending : (fleet.workers i).pending with _ | handle
    · rw [step_start hpending]
      exact lastValue?_record h _ _
    · rw [step_start_of_busy hpending]
  | settle i =>
    rcases hpending : (fleet.workers i).pending with _ | handle
    · rw [step_settle_of_free hpending]
    · rw [step_settle hpending]

end History

/-- No update is lost. The handles of a fleet start with whatever copies they
    have, over a row that was just created, and take any steps in any order.
    Then the stored document has under each key what the committed writes gave
    it last, and no other key: there is the text of that value, which is the
    text of no other. The copies do not count for what is stored or committed. A
    step leaves what is stored under the keys that it does not touch. And where
    the writes of two disjoint merges were committed in either order, the
    documents are equal as maps. -/
theorem text?_eq_lastValue? (medium : Medium) {asset : AssetId} {before created : medium.State}
    (habsent : medium.calls.load asset before = (.ok none, before))
    (hcreate : medium.calls.create asset before = (.ok (), created)) {handles : ι → Handle}
    (hhandles : ∀ i, (handles i).asset = asset) {steps : List (FleetStep ι)}
    (hsteps : ∀ step ∈ steps, step.DistinctKeys) :
    let final := (launch handles created).run medium.calls steps
    (∃ texts, medium.texts? final.store asset = some texts ∧ Ordered.Distinct texts ∧
      ∀ key, texts.lookup key = (lastValue? key final.history).map Json.compact) ∧
    (∀ key value, medium.text? final.store asset key = some value.compact ↔
      lastValue? key final.history = some value) ∧
    (∀ copies : ι → Handle, (∀ i, (copies i).asset = asset) →
      ((launch copies created).run medium.calls steps).store = final.store ∧
      ((launch copies created).run medium.calls steps).history = final.history) ∧
    (∀ step : FleetStep ι, step.DistinctKeys → ∀ key, ¬ step.Touches key →
      medium.text? (final.step medium.calls step).store asset key =
        medium.text? final.store asset key) ∧
    ∀ others : List (FleetStep ι), (∀ step ∈ others, step.DistinctKeys) →
      ∀ (first second : Document) (newer older : List DocumentWrite),
        (∀ key ∈ first.keys, key ∉ second.keys) →
        final.history = newer ++ .merge first :: .merge second :: older →
        ((launch handles created).run medium.calls others).history =
          newer ++ .merge second :: .merge first :: older →
        ∀ key, medium.text? ((launch handles created).run medium.calls others).store asset key =
          medium.text? final.store asset key := by
  -- There was no row, so the one that was made is blank.
  have hcreated : medium.written.holds created asset (some .blank) := by
    rcases medium.keeps_written.create (medium.admits_written _ _)
      (Medium.written_none_of_load habsent) with ⟨error, hrefused⟩ | ⟨after, hanswered, hafter⟩
    · cases hcreate.symm.trans hrefused
    · cases hcreate.symm.trans hanswered
      exact hafter
  have hlaunch := recorded_launch hhandles hcreated
  have hfinal := recorded_run medium.keeps_written medium.admits_written hlaunch hsteps
  refine ⟨texts?_of_recorded hfinal, ?_, ?_, ?_, ?_⟩
  · intro key value
    rw [text?_of_recorded hfinal key, Option.map_eq_some_iff]
    constructor
    · rintro ⟨found, hfound, htext⟩
      rw [hfound, Json.compact_injective htext]
    · intro hvalue
      exact ⟨value, hvalue, rfl⟩
  · intro copies hcopies
    have halike : Alike (launch copies created) (launch handles created) :=
      ⟨rfl, rfl, fun i => congrArg (·, none) ((hcopies i).trans (hhandles i).symm)⟩
    exact ⟨(alike_run halike steps).store, (alike_run halike steps).history⟩
  · intro step hstep key hkey
    have hnext := recorded_step medium.keeps_written medium.admits_written hfinal hstep
    rw [text?_of_recorded hnext key, lastValue?_step hkey, text?_of_recorded hfinal key]
  · intro others hothers first second newer older hdisjoint hhistory hother key
    have hsecond := recorded_run medium.keeps_written medium.admits_written hlaunch hothers
    rw [text?_of_recorded hsecond key, text?_of_recorded hfinal key, hhistory, hother,
      lastValue?_swap hdisjoint]

/-- Two handles whose saves overlap, one of which begins an operation while
    another holds it, and whose delete fails. -/
def overlappingSteps : List (FleetStep Bool) :=
  [.start true none (.save (.single "label" (.string "a\nb")) 20),
    .start false none (.save (.ofList [("flags", .array [.null]), ("label", .bool true)]) 10),
    .settle false,
    .start true none (.delete 30),
    .settle true,
    .start false (some (.engine "busy")) (.delete 40),
    .settle false,
    .start true none (.setStatus .synced 5)]

/-- Handles whose copies were never stored. -/
def staleHandles (_ : Bool) : Handle :=
  ⟨⟨"aX"⟩, .single "stale" .null, some 99⟩

theorem text?_eq_lastValue?_overlappingSteps :
    ((launch staleHandles (MemoryStore.empty.create ⟨"aX"⟩)).run Medium.memory.calls
        overlappingSteps).history =
      [.merge (.single "status" (.string "synced")),
        .merge (.ofList [("flags", .array [.null]), ("label", .bool true)]),
        .merge (.single "label" (.string "a\nb"))] ∧
    Medium.database.calls.load ⟨"aX"⟩ Medium.database.empty = (.ok none, Medium.database.empty) ∧
      ∃ created, Medium.database.calls.create ⟨"aX"⟩ Medium.database.empty = (.ok (), created) ∧
        ∃ texts, Medium.database.texts? ((launch staleHandles created).run Medium.database.calls
            overlappingSteps).store ⟨"aX"⟩ = some texts ∧ Ordered.Distinct texts ∧
          ∀ key, texts.lookup key = (lastValue? key ((launch staleHandles created).run
            Medium.database.calls overlappingSteps).history).map Json.compact := by
  have hsteps : ∀ step ∈ overlappingSteps, step.DistinctKeys := by
    decide
  have hload : Medium.database.calls.load ⟨"aX"⟩ Medium.database.empty =
      (.ok none, Medium.database.empty) := rfl
  exact ⟨rfl, hload, _, rfl, (text?_eq_lastValue? .database hload rfl (fun _ => rfl) hsteps).1⟩

end Fleet

end Fieldwork
