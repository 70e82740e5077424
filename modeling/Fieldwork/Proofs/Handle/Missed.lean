import Fieldwork.Proofs.Handle.Coherence
import Mathlib.Data.List.Induction

/-!
# Writes Without a Row

What the copy of a handle shows once its row is gone.

A row can be taken out behind the back of a handle. Writes of the handle still
succeed then, with a receipt that counts no row. The stamp of the copy heeds
that receipt, the document does not: it takes the updates as if they had been
stored. So the copy is what it was only if it had every pair that was sent,
and otherwise each later read finds what no row ever had.

How far this goes is said of whole runs, with writers of all kinds. Every pair
of the copy has one of two sources: the row had it at some moment of the run,
or the handle sent it while there was no row. A handle none of whose merges
missed its row shows only what was stored.

## Main definitions

* `HandleEvent.DistinctKeys`: Events among which others may write the row.
* `HandleCall.call?`: The store call of an operation.
* `Attached`: What every run keeps, whoever writes.
* `WasStored`, `WasMissed`: The two sources of a pair.

## Theorems

* `eq_self_iff_of_missed`: When a merge without a row leaves the handle.
* `attached_run`: A handle stays with its asset, and the store keeps rows.
* `mem_copy_of_run`: Where the copy has a pair from, after one operation.
* `wasStored_or_wasMissed`: The same after a run.
* `copy_of_missed_merge`: What a merge without a row does to the copy.
-/

namespace Fieldwork

namespace HandleEvent

/-- The values of updates have each key once, whoever sends them. -/
def DistinctKeys : HandleEvent → Prop
  | own _ call => call.DistinctKeys
  | elsewhere call => call.DistinctKeys

instance (event : HandleEvent) : Decidable event.DistinctKeys :=
  match event with
  | own _ call => inferInstanceAs (Decidable call.DistinctKeys)
  | elsewhere call => inferInstanceAs (Decidable call.DistinctKeys)

theorem runAll_concat {σ : Type} (store : RowStore σ) (session : Handle × σ)
    (events : List HandleEvent) (event : HandleEvent) :
    runAll store session (events ++ [event]) = event.run store (runAll store session events) :=
  List.foldl_concat ..

end HandleEvent

namespace HandleCall

variable {σ : Type}

theorem settle_eq (handle : Handle) (kind : WriteKind) (keys : List String)
    (change : Document → Document) (written : Except StoreError Receipt × σ) :
    (done (handle.settle kind keys change written)).store = written.2 ∧
      (done (handle.settle kind keys change written)).handle.asset = handle.asset := by
  rcases written with ⟨_ | receipt, state⟩
  · exact ⟨rfl, rfl⟩
  · exact ⟨rfl, rfl⟩

/-- An operation does its one store call, and stays with its asset. -/
theorem run_eq (store : RowStore σ) (handle : Handle) (state : σ) (call : HandleCall) :
    (call.run store handle state).store =
        ((call.call? handle.asset).elim state fun found => (found.run store state).2) ∧
      (call.run store handle state).handle.asset = handle.asset := by
  cases call with
  | get path default => exact ⟨rfl, rfl⟩
  | save updates now => exact settle_eq ..
  | setStatus status now => exact settle_eq ..
  | delete now => exact settle_eq ..
  | refresh =>
    have hrefresh : (handle.refresh store state).store = (store.load handle.asset state).2 ∧
        (handle.refresh store state).handle.asset = handle.asset := by
      unfold Handle.refresh
      rcases store.load handle.asset state with ⟨_ | _ | row, after⟩
      · exact ⟨rfl, rfl⟩
      · exact ⟨rfl, rfl⟩
      · exact ⟨rfl, rfl⟩
    exact hrefresh

/-- The row has a pair, or a read of it finds one. -/
def Shows (view : RowView σ) (state : σ) (asset : AssetId) (entry : String × Json) : Prop :=
  ∃ found, view.holds state asset (some found) ∧
    (entry ∈ found.document.fields ∨ entry ∈ (view.read found.document).fields)

/-- A write of a pair goes to the row, unless there is none. -/
theorem mem_settle {view : RowView σ} {handle : Handle} {row : Option Row} {updates : Document}
    {state : σ} {now : Stamp} {written : Except StoreError Receipt × σ}
    (h : (∃ error, written = (.error error, state)) ∨
      ∃ after, written = (.ok (.ofRow row now), after) ∧
        view.holds after handle.asset (row.map fun row => row.written (·.merge updates) now))
    {kind : WriteKind} {keys : List String} {entry : String × Json}
    (hentry : entry ∈
      (done (handle.settle kind keys (·.merge updates) written)).handle.document.fields) :
    entry ∈ handle.document.fields ∨
      Shows view (done (handle.settle kind keys (·.merge updates) written)).store handle.asset
        entry ∨
      row = none ∧ entry ∈ updates.fields := by
  rcases h with ⟨error, rfl⟩ | ⟨after, rfl, hrow⟩
  · exact Or.inl hentry
  · -- The copy takes the updates over whether or not there was a row for them.
    rcases Ordered.mem_of_mem_merge hentry with hcopy | hsent
    · exact Or.inl hcopy
    · cases row with
      | none => exact Or.inr (Or.inr ⟨rfl, hsent⟩)
      | some found =>
        exact Or.inr (Or.inl ⟨_, hrow, Or.inl
          (Ordered.mem_merge_of_mem found.document.distinct updates.distinct hsent)⟩)

/-- Where the copy has a pair from after an operation: it had it before, the
    row shows it now, or it was sent and there was no row. -/
theorem mem_copy_of_run {store : RowStore σ} {view : RowView σ} (hstore : store.Keeps view)
    (hview : ∀ state call, view.admits state call) {call : HandleCall} (hcall : call.DistinctKeys)
    {handle : Handle} {state : σ} {row : Option Row} (hrow : view.holds state handle.asset row)
    {entry : String × Json}
    (h : entry ∈ (call.run store handle state).handle.document.fields) :
    entry ∈ handle.document.fields ∨
      Shows view (call.run store handle state).store handle.asset entry ∨
      row = none ∧ ∃ updates now, call.write? = some (.merge updates, now) ∧
        entry ∈ updates.fields := by
  cases call with
  | get path default => exact Or.inl h
  | save updates now =>
    rcases mem_settle (hstore.merge hcall (hview _ _) hrow) h with hcopy | hstored | ⟨hnone, hsent⟩
    · exact Or.inl hcopy
    · exact Or.inr (Or.inl hstored)
    · exact Or.inr (Or.inr ⟨hnone, updates, now, rfl, hsent⟩)
  | setStatus status now =>
    rcases mem_settle (hstore.merge (distinctKeys_status status) (hview _ _) hrow) h with
      hcopy | hstored | ⟨hnone, hsent⟩
    · exact Or.inl hcopy
    · exact Or.inr (Or.inl hstored)
    · exact Or.inr (Or.inr ⟨hnone, _, now, rfl, hsent⟩)
  | delete now =>
    replace h : entry ∈ (handle.delete store now state).handle.document.fields := h
    unfold Handle.delete at h
    have hclear := hstore.clear (hview state (.clear handle.asset now)) hrow
    rcases hclear with ⟨error, hclear⟩ | ⟨after, hclear, -⟩
    · rw [hclear] at h
      exact Or.inl h
    · -- An emptied copy has no pair.
      rw [hclear] at h
      cases h
  | refresh =>
    unfold run Handle.refresh at h ⊢
    rcases hstore.load (hview _ _) hrow with ⟨error, hload⟩ | ⟨after, hload, hafter⟩
    · rw [hload] at h
      exact Or.inl h
    · rw [hload] at h ⊢
      cases row with
      | none => exact Or.inl h
      | some found => exact Or.inr (Or.inl ⟨found, hafter, Or.inr h⟩)

end HandleCall

/-- A handle with its asset, over a store that has some row or none for it. The
    copy may be anything. -/
structure Attached {σ : Type} (view : RowView σ) (asset : AssetId) (session : Handle × σ) :
    Prop where
  /-- The handle is about the asset. -/
  about : session.1.asset = asset
  /-- The store keeps rows for the asset. -/
  rows : ∃ row, view.holds session.2 asset row

section Attached

variable {σ : Type} {store : RowStore σ} {view : RowView σ} {asset : AssetId}
  {session : Handle × σ}

/-- Whoever does something, the handle stays with its asset and the store keeps
    rows. -/
theorem attached_run (hstore : store.Keeps view) (hview : ∀ state call, view.admits state call)
    (h : Attached view asset session) {event : HandleEvent} (hevent : event.DistinctKeys) :
    Attached view asset (event.run store session) := by
  rcases h.rows with ⟨row, hrow⟩
  have hnext {store : RowStore σ} (hstore : store.Keeps view) {call : StoreCall}
      (hcall : call.DistinctKeys) :
      ∃ row, view.holds (call.run store session.2).2 asset row :=
    hstore.exists_holds_after hview (List.forall_mem_singleton.2 hcall) hrow
  cases event with
  | own fault call =>
    rcases HandleCall.run_eq (store.failing fault) session.1 session.2 call with ⟨hafter, habout⟩
    refine ⟨habout.trans h.about, ?_⟩
    rw [HandleEvent.run, hafter]
    rcases hcall : call.call? session.1.asset with _ | found
    · exact h.rows
    · have hfound := HandleCall.distinctKeys_call? hevent found hcall
      exact hnext (RowStore.keeps_failing hstore fault) hfound
  | elsewhere call => exact ⟨h.about, hnext hstore hevent⟩

theorem attached_runAll (hstore : store.Keeps view) (hview : ∀ state call, view.admits state call)
    (h : Attached view asset session) {events : List HandleEvent}
    (hevents : ∀ event ∈ events, event.DistinctKeys) :
    Attached view asset (HandleEvent.runAll store session events) := by
  induction events generalizing session with
  | nil => exact h
  | cons event rest ih =>
    rcases List.forall_mem_cons.1 hevents with ⟨hevent, hrest⟩
    exact ih (attached_run hstore hview h hevent) hrest

end Attached

namespace Handle

section Opened

variable {σ : Type} {store : RowStore σ} {view : RowView σ} {asset : AssetId}

/-- A handle that is opened is about its asset, and its copy is what a read finds
    of the row. -/
theorem opened_of_keeps (hstore : store.Keeps view) (hview : ∀ state call, view.admits state call)
    {state opened : σ} {row : Option Row} (hrow : view.holds state asset row) {handle : Handle}
    (h : open? store asset state = (.ok handle, opened)) :
    handle.asset = asset ∧
      ∃ found, view.holds opened asset (some found) ∧ handle.row = found.readBy view.read := by
  unfold open? at h
  rcases hstore.load (hview _ _) hrow with ⟨error, hload⟩ | ⟨after, hload, hafter⟩
  · rw [hload] at h
    cases h
  · rw [hload] at h
    cases row with
    | none => cases h
    | some found =>
      cases h
      exact ⟨rfl, found, hafter, rfl⟩

theorem created_of_keeps (hstore : store.Keeps view) (hview : ∀ state call, view.admits state call)
    {state opened : σ} {row : Option Row} (hrow : view.holds state asset row) {handle : Handle}
    (h : create? store asset state = (.ok handle, opened)) :
    handle.asset = asset ∧
      ∃ found, view.holds opened asset (some found) ∧ handle.row = found.readBy view.read := by
  unfold create? at h
  rcases hstore.create (hview _ _) hrow with ⟨error, hcreate⟩ | ⟨after, hcreate, hafter⟩
  · rw [hcreate] at h
    cases h
  · -- A handle is created by opening the row that was made.
    rw [hcreate] at h
    exact opened_of_keeps hstore hview hafter h

end Opened

section Sources

variable {medium : Medium} {asset : AssetId} {session : Handle × medium.State}
  {events : List HandleEvent} {entry : String × Json}

/-- A pair is stored: under the key there is the text of the value, or a text
    that a reader takes for it. -/
def IsStored (medium : Medium) (asset : AssetId) (state : medium.State) (entry : String × Json) :
    Prop :=
  ∃ texts text, medium.texts? state asset = some texts ∧ (entry.1, text) ∈ texts ∧
    (text = entry.2.compact ∨ ∃ limit, StoredText.value? limit text = some entry.2)

/-- A pair was stored at some moment of a run. -/
def WasStored (medium : Medium) (asset : AssetId) (session : Handle × medium.State)
    (events : List HandleEvent) (entry : String × Json) : Prop :=
  ∃ front, front <+: events ∧
    IsStored medium asset (HandleEvent.runAll medium.calls session front).2 entry

/-- The handle sent a pair at a moment of a run at which there was no row. -/
def WasMissed (medium : Medium) (asset : AssetId) (session : Handle × medium.State)
    (events : List HandleEvent) (entry : String × Json) : Prop :=
  ∃ front call, front ++ [.own none call] <+: events ∧
    medium.row? (HandleEvent.runAll medium.calls session front).2 asset = none ∧
      ∃ updates now, call.write? = some (.merge updates, now) ∧ entry ∈ updates.fields

theorem WasStored.concat (h : WasStored medium asset session events entry) (event : HandleEvent) :
    WasStored medium asset session (events ++ [event]) entry := by
  rcases h with ⟨front, hfront, hrow⟩
  exact ⟨front, hfront.trans (List.prefix_append ..), hrow⟩

theorem WasMissed.concat (h : WasMissed medium asset session events entry) (event : HandleEvent) :
    WasMissed medium asset session (events ++ [event]) entry := by
  rcases h with ⟨front, call, hfront, hsent⟩
  exact ⟨front, call, hfront.trans (List.prefix_append ..), hsent⟩

/-- The pair that a read finds is stored with a text that is read as its
    value. -/
theorem exists_mem_of_mem_read {state : medium.State} {found : Row}
    (hrow : medium.written.holds state asset (some found))
    (h : entry ∈ (medium.written.read found.document).fields) :
    ∃ value, (entry.1, value) ∈ found.document.fields ∧
      (value = entry.2 ∨ ∃ limit, StoredText.value? limit value.compact = some entry.2) := by
  cases medium with
  | memory => exact ⟨entry.2, h, Or.inl rfl⟩
  | database =>
    rcases Database.exists_stored_of_holds hrow with ⟨stored, -, ⟨-, hspelled⟩, -⟩
    have hfields : entry ∈ Ordered.mapValues Json.reread found.document.fields := by
      rw [← Json.rereadMembers_eq]
      exact h
    rcases List.mem_map.1 hfields with ⟨⟨key, value⟩, hmem, rfl⟩
    have hjson := Json.json?_toWritten value (hspelled.distinct _ hmem) value.depth (Nat.le_refl _)
    refine ⟨value, hmem, Or.inr ⟨value.depth, ?_⟩⟩
    rw [StoredText.value?, Json.read?_compact, Option.bind_some, hjson]

/-- What a row shows is stored. -/
theorem isStored_of_shows {state : medium.State}
    (h : HandleCall.Shows medium.written state asset entry) :
    IsStored medium asset state entry := by
  rcases h with ⟨found, hrow, hentry⟩
  have htexts := Medium.texts?_of_written hrow
  have hmem {value : Json} (hvalue : (entry.1, value) ∈ found.document.fields) :
      (entry.1, value.compact) ∈ Ordered.mapValues Json.compact found.document.fields :=
    List.mem_map_of_mem hvalue
  rcases hentry with hself | hread
  · exact ⟨_, _, htexts, hmem hself, Or.inl rfl⟩
  · rcases exists_mem_of_mem_read hrow hread with ⟨value, hvalue, rfl | hlimit⟩
    · exact ⟨_, _, htexts, hmem hvalue, Or.inl rfl⟩
    · exact ⟨_, _, htexts, hmem hvalue, Or.inr hlimit⟩

/-- After a run every pair of the copy was stored, or sent without a row. The
    run starts with a copy of what a read finds. -/
theorem wasStored_or_wasMissed {row : Row} (habout : session.1.asset = asset)
    (hrow : medium.written.holds session.2 asset (some row))
    (hcopy : session.1.row = row.readBy medium.written.read)
    (hevents : ∀ event ∈ events, event.DistinctKeys)
    (h : entry ∈ (HandleEvent.runAll medium.calls session events).1.document.fields) :
    WasStored medium asset session events entry ∨
      WasMissed medium asset session events entry := by
  -- The last event decides, so the induction takes events off the end.
  induction events using List.reverseRecOn with
  | nil =>
    refine Or.inl ⟨[], List.prefix_rfl, isStored_of_shows ⟨row, hrow, Or.inr ?_⟩⟩
    rw [show medium.written.read row.document = session.1.document from
      (congrArg Row.document hcopy).symm]
    exact h
  | append_singleton front event ih =>
    have hfront : ∀ event ∈ front, event.DistinctKeys := fun event hevent =>
      hevents event (List.mem_append_left _ hevent)
    have hevent : event.DistinctKeys :=
      hevents event (List.mem_append_right _ (List.mem_singleton_self event))
    have hearlier (hmem : entry ∈
        (HandleEvent.runAll medium.calls session front).1.document.fields) :
        WasStored medium asset session (front ++ [event]) entry ∨
          WasMissed medium asset session (front ++ [event]) entry :=
      (ih hfront hmem).imp (·.concat event) (·.concat event)
    rw [HandleEvent.runAll_concat] at h
    match event with
    | .elsewhere call => exact hearlier h
    | .own (some error) call =>
      rw [HandleEvent.run, (call.run_failing _ _ _ _).1] at h
      exact hearlier h
    | .own none call =>
      have hattached := attached_runAll medium.keeps_written medium.admits_written
        ⟨habout, _, hrow⟩ hfront
      rcases hattached.rows with ⟨found, hfound⟩
      rcases HandleCall.mem_copy_of_run medium.keeps_written medium.admits_written hevent
        (hattached.about.symm ▸ hfound) h with hmem | hshows | ⟨rfl, hsent⟩
      · exact hearlier hmem
      · refine Or.inl ⟨_, List.prefix_rfl, isStored_of_shows ?_⟩
        rw [HandleEvent.runAll_concat]
        exact hattached.about ▸ hshows
      · refine Or.inr ⟨front, call, List.prefix_rfl, ?_, hsent⟩
        exact Medium.row?_of_written hfound

end Sources

section Missed

variable {σ : Type} {store : RowStore σ} {handle : Handle} {updates : Document} {now : Stamp}
  {state : σ} {receipt : Receipt}

/-- A merge whose receipt counts no row changes the document of the copy and
    nothing else of it. -/
theorem save_of_missed (h : (handle.save store updates now state).result = .ok receipt)
    (hrows : receipt.rows = 0) :
    (handle.save store updates now state).handle =
      { handle with document := handle.document.merge updates } := by
  unfold save at h ⊢
  generalize store.merge handle.asset updates now state = written at h ⊢
  rcases written with ⟨error | found, after⟩
  · cases h
  · cases h
    simp only [settle, committed, Receipt.applied, hrows, bne_self_eq_false, Bool.false_eq_true,
      if_false]

/-- Such a merge leaves the handle exactly when the copy had all that was sent. -/
theorem eq_self_iff_of_missed (h : (handle.save store updates now state).result = .ok receipt)
    (hrows : receipt.rows = 0) :
    (handle.save store updates now state).handle = handle ↔
      ∀ entry ∈ updates.fields, entry ∈ handle.document.fields := by
  rw [save_of_missed h hrows,
    ← Ordered.merge_eq_self_iff handle.document.distinct updates.distinct]
  constructor
  · intro heq
    exact congrArg (·.document.fields) heq
  · intro hmerge
    exact Handle.ext rfl (Document.ext hmerge) rfl

/-- A merge that succeeds without counting a row has found none. -/
theorem holds_none_of_missed {view : RowView σ} (hstore : store.Keeps view)
    (hview : ∀ state call, view.admits state call) (hupdates : updates.toJson.DistinctKeys)
    {row : Option Row} (hrow : view.holds state handle.asset row)
    (h : (handle.save store updates now state).result = .ok receipt) (hrows : receipt.rows = 0) :
    row = none := by
  unfold save at h
  rcases hstore.merge hupdates (hview _ _) hrow with ⟨error, hmerge⟩ | ⟨after, hmerge, -⟩
  · rw [hmerge] at h
    cases h
  · rw [hmerge] at h
    cases h
    cases row with
    | none => rfl
    | some found => cases hrows

end Missed

/-- What a merge without a row does to the copy. A handle is opened or created
    in any state that a store can be brought to, and then events come in any
    order, of the handle and of others who may write or take out its row. If a
    merge of the handle succeeds and counts no row, then there is no row, the
    stamp of the copy stays, and the document of the copy takes the updates all
    the same; so the handle is left as it was exactly when its copy had every
    pair that was sent. Storing a status is such a merge. In every state every
    pair of the copy was either stored during the run or sent by the handle
    while there was no row. -/
theorem copy_of_missed_merge (medium : Medium) {calls : List StoreCall}
    (hcalls : ∀ call ∈ calls, call.DistinctKeys) {asset : AssetId} {handle : Handle}
    {opened : medium.State}
    (hopened : create? medium.calls asset (medium.calls.after medium.empty calls) =
        (.ok handle, opened) ∨
      open? medium.calls asset (medium.calls.after medium.empty calls) = (.ok handle, opened))
    {events : List HandleEvent} (hevents : ∀ event ∈ events, event.DistinctKeys) :
    let session := HandleEvent.runAll medium.calls (handle, opened) events
    (∀ (updates : Document) (now : Stamp) (receipt : Receipt), updates.toJson.DistinctKeys →
      (session.1.save medium.calls updates now session.2).result = .ok receipt →
      receipt.rows = 0 →
        medium.row? session.2 asset = none ∧
        (session.1.save medium.calls updates now session.2).handle =
          { session.1 with document := session.1.document.merge updates } ∧
        ((session.1.save medium.calls updates now session.2).handle = session.1 ↔
          ∀ entry ∈ updates.fields, entry ∈ session.1.document.fields)) ∧
    (∀ (status : Status) (now : Stamp) (receipt : Receipt),
      (session.1.setStatus medium.calls status now session.2).result = .ok receipt →
      receipt.rows = 0 →
        medium.row? session.2 asset = none ∧
        ((session.1.setStatus medium.calls status now session.2).handle = session.1 ↔
          (Document.statusKey, Json.string status.label) ∈ session.1.document.fields)) ∧
    ∀ entry ∈ session.1.document.fields,
      WasStored medium asset (handle, opened) events entry ∨
        WasMissed medium asset (handle, opened) events entry := by
  have hstate : ∃ row, medium.written.holds (medium.calls.after medium.empty calls) asset row :=
    medium.keeps_written.exists_holds_after medium.admits_written hcalls
      (medium.written_empty asset)
  rcases hstate with ⟨start, hstart⟩
  have hhandle : handle.asset = asset ∧ ∃ found,
      medium.written.holds opened asset (some found) ∧
        handle.row = found.readBy medium.written.read := by
    rcases hopened with hcreate | hopen
    · exact created_of_keeps medium.keeps_written medium.admits_written hstart hcreate
    · exact opened_of_keeps medium.keeps_written medium.admits_written hstart hopen
  rcases hhandle with ⟨habout, found, hfound, hcopy⟩
  have hattached : Attached medium.written asset
      (HandleEvent.runAll medium.calls (handle, opened) events) :=
    attached_runAll medium.keeps_written medium.admits_written ⟨habout, _, hfound⟩ hevents
  rcases hattached.rows with ⟨row, hrow⟩
  -- A merge that changed no row found no row.
  have hgone {updates : Document} {now : Stamp} {receipt : Receipt}
      (hupdates : updates.toJson.DistinctKeys)
      (h : ((HandleEvent.runAll medium.calls (handle, opened) events).1.save medium.calls updates
        now (HandleEvent.runAll medium.calls (handle, opened) events).2).result = .ok receipt)
      (hrows : receipt.rows = 0) :
      medium.row? (HandleEvent.runAll medium.calls (handle, opened) events).2 asset = none := by
    cases holds_none_of_missed medium.keeps_written medium.admits_written hupdates
      (hattached.about.symm ▸ hrow) h hrows
    exact Medium.row?_of_written hrow
  refine ⟨?_, ?_, fun entry hentry =>
    wasStored_or_wasMissed habout hfound hcopy hevents hentry⟩
  · intro updates now receipt hupdates h hrows
    exact ⟨hgone hupdates h hrows, save_of_missed h hrows, eq_self_iff_of_missed h hrows⟩
  · intro status now receipt h hrows
    refine ⟨hgone (HandleCall.distinctKeys_status status) h hrows, ?_⟩
    exact (eq_self_iff_of_missed h hrows).trans List.forall_mem_singleton

/-- A run in which somebody else takes the row out. -/
def orphanedRun : List HandleEvent :=
  [.own none (.save (.single "active" (.bool false)) 20),
    .elsewhere (.delete ⟨"aX"⟩)]

theorem copy_of_missed_merge_orphanedRun :
    ∃ handle opened,
      create? MemoryStore.calls ⟨"aX"⟩ .empty = (.ok handle, opened) ∧
      let session := HandleEvent.runAll MemoryStore.calls (handle, opened) orphanedRun
      let outcome := session.1.save MemoryStore.calls (.single "active" (.bool true)) 30 session.2
      outcome.result = .ok ⟨30, 0⟩ ∧ Medium.memory.row? session.2 ⟨"aX"⟩ = none ∧
        outcome.handle =
          { session.1 with document := session.1.document.merge (.single "active" (.bool true)) } ∧
        (outcome.handle = session.1 ↔
          ∀ entry ∈ (Document.single "active" (.bool true)).fields,
            entry ∈ session.1.document.fields) := by
  have hcalls : ∀ call ∈ ([] : List StoreCall), call.DistinctKeys := by
    decide
  have hcreated : create? Medium.memory.calls ⟨"aX"⟩
      (Medium.memory.calls.after Medium.memory.empty []) =
        (.ok ⟨⟨"aX"⟩, .empty, none⟩, MemoryStore.empty.create ⟨"aX"⟩) := rfl
  have hevents : ∀ event ∈ orphanedRun, event.DistinctKeys := by
    decide
  have hmissed := (copy_of_missed_merge .memory hcalls (Or.inl hcreated) hevents).1
    (.single "active" (.bool true)) 30 ⟨30, 0⟩ (by decide) rfl rfl
  exact ⟨_, _, hcreated, rfl, hmissed⟩

/-- A merge that counts no row changes what is read: the handle had stored
    nothing, its row was taken out, and the flag that it sends then reads as
    set. -/
theorem active_of_missed_merge :
    ∃ handle opened,
      create? MemoryStore.calls ⟨"aX"⟩ .empty = (.ok handle, opened) ∧
      let removed := (MemoryStore.calls.delete ⟨"aX"⟩ opened).2
      let outcome := handle.save MemoryStore.calls (.single "active" (.bool true)) 30 removed
      outcome.result = .ok ⟨30, 0⟩ ∧ handle.document.fields = [] ∧
        outcome.handle.document.fields = [("active", .bool true)] ∧
        handle.active = false ∧ outcome.handle.active = true ∧
        outcome.handle.stamp = handle.stamp :=
  ⟨_, _, rfl, rfl, rfl, rfl, by decide, by decide, rfl⟩

end Handle

end Fieldwork
