import Fieldwork.Config.Build
import Fieldwork.Proofs.Disk.Names
import Fieldwork.Proofs.Fallible
import Mathlib.Data.List.TakeWhile

/-!
# Sound Configurations

What a check of a configuration is worth to those who build from it.

A configuration is checked section by section, and each section again by
whoever builds from it. The path of a database is even checked twice by
different rules: once as a field of the configuration and once more by the
database itself, which knows nothing of blanks and looks at the disk. None of
this is of use unless all the checks agree. They agree here with one statement
of when a configuration is sound, which is made without any of them.

What is sound depends on how paths are measured. The checks measure what is
shown for a path. For a path that is a text this is the path itself. For one
that is not it may be longer, and such a path is refused although its own bytes
are few enough.

A sound section then has everything that is built from it, unchanged, and what
can still go wrong is not the configuration's affair. A section that is not
sound builds nothing, whoever asks.

## Main definitions

* `Path.Fits`: A path within the limits, by its own bytes.
* `Path.Usable`: A path within the limits, by what is shown for it.
* `StoreSection.Sound`, `BackfillSection.Sound`, `AuditSection.Sound`: A section
  that can be built from, for either kind of measure.
* `Config.Sound`: All of them.

## Theorems

* `isEmpty_trim_iff`: A text is blank when all of it is.
* `Path.usable_ofText_iff`: A text may be measured either way.
* `PathField.check_eq_ok_iff`: When a path passes as a field.
* `DatabaseConfig.check_eq_ok_iff`: When it passes as the path of a database.
* `Config.check_eq_ok_iff`: When a configuration passes.
* `Config.check_agrees`: What passes can be built, and nothing else is.
* `Config.check_unlike_fits`: A path that is no text, and a wait that is too
  long.
-/

namespace Fieldwork

/-- A path within the limits by its own bytes: it is not blank, the whole has at
    most 4096 of them, and a component at most 255. -/
structure Path.Fits (path : Path) : Prop where
  /-- Not all of it is blank. -/
  nonblank : ∃ c ∈ path.text.toList, Text.isBlank c = false
  /-- The whole has at most 4096 bytes. -/
  length : path.bytes.length ≤ 4096
  /-- A component has at most 255 bytes. -/
  components : ∀ component ∈ path.components, component.length ≤ 255

/-- A path within the limits by what is shown for it, which is what a field may
    have. -/
structure Path.Usable (path : Path) : Prop where
  /-- Not all of it is blank. -/
  nonblank : ∃ c ∈ path.text.toList, Text.isBlank c = false
  /-- The text of the whole has at most 4096 bytes. -/
  length : path.text.utf8ByteSize ≤ 4096
  /-- The text of a component has at most 255 bytes. -/
  components : ∀ component ∈ path.components, (shownText component).utf8ByteSize ≤ 255

/-- A row store that can be built: rows in memory have no path, and a database
    has one and some time to wait. -/
def StoreSection.Sound (limits : Path → Prop) (store : StoreSection) : Prop :=
  store.kind = .memory ∧ store.path = none ∨
    store.kind = .database ∧ (∃ path, store.path = some path ∧ limits path) ∧
      0 < store.busyTimeout

/-- A backfill that can be built: a page has room, and not too much. -/
def BackfillSection.Sound (backfill : BackfillSection) : Prop :=
  1 ≤ backfill.pageSize ∧ backfill.pageSize ≤ 1000000

/-- An audit log that can be built: a file has a path, and nothing else has. -/
def AuditSection.Sound (limits : Path → Prop) (audit : AuditSection) : Prop :=
  audit.sink = .file ∧ (∃ path, audit.path = some path ∧ limits path) ∨
    audit.sink ≠ .file ∧ audit.path = none

/-- A configuration that can be built from. -/
structure Config.Sound (limits : Path → Prop) (config : Config) : Prop where
  /-- The row store can be built. -/
  store : config.store.Sound limits
  /-- The backfill can be built. -/
  backfill : config.backfill.Sound
  /-- The audit log can be built. -/
  audit : config.audit.Sound limits

/-- A text is blank when all of it is. -/
theorem Text.isEmpty_trim_iff {cs : List Char} :
    (trim cs).isEmpty = true ↔ ∀ c ∈ cs, isBlank c = true := by
  unfold trim trimLeft
  rw [List.isEmpty_iff, List.reverse_eq_nil_iff, List.dropWhile_eq_nil_iff]
  constructor
  · intro h c hc
    -- What was dropped in front is blank, and so is what was dropped behind it.
    rw [← List.takeWhile_append_dropWhile (p := isBlank) (l := cs), List.mem_append] at hc
    rcases hc with hc | hc
    · exact List.mem_takeWhile_imp hc
    · exact h c (List.mem_reverse.2 hc)
  · intro h c hc
    exact h c ((List.dropWhile_sublist isBlank).subset (List.mem_reverse.1 hc))

namespace Path

theorem isTooLong_eq_false_iff {path : Path} :
    path.isTooLong = false ↔ path.text.utf8ByteSize ≤ 4096 := by
  unfold isTooLong lengthLimit
  rw [decide_eq_false_iff_not, Nat.not_lt]

theorem hasLongComponent_eq_false_iff {path : Path} :
    path.hasLongComponent = false ↔
      ∀ component ∈ path.components, (shownText component).utf8ByteSize ≤ 255 := by
  unfold hasLongComponent componentLimit
  simp only [List.any_eq_false, decide_eq_true_eq, Nat.not_lt]

theorem text_ofText (text : String) : (ofText text).text = text :=
  shownText_bytesOf text

/-- A text may be measured either way. -/
theorem usable_ofText_iff (text : String) : Usable (ofText text) ↔ Fits (ofText text) := by
  have hlength : (ofText text).text.utf8ByteSize = (ofText text).bytes.length := by
    rw [text_ofText, ofText, length_bytesOf]
  have hcomponent : ∀ component ∈ (ofText text).components,
      (shownText component).utf8ByteSize = component.length := by
    intro component h
    rcases exists_text_of_mem_components h with ⟨part, rfl⟩
    rw [shownText_bytesOf, length_bytesOf]
  constructor
  · intro h
    exact ⟨h.nonblank, hlength ▸ h.length, fun component hmem =>
      hcomponent component hmem ▸ h.components component hmem⟩
  · intro h
    exact ⟨h.nonblank, hlength ▸ h.length, fun component hmem =>
      (hcomponent component hmem).symm ▸ h.components component hmem⟩

end Path

/-- When a path passes as a field. -/
theorem PathField.check_eq_ok_iff {field : PathField} {path : Path} :
    field.check path = .ok () ↔ path.Usable := by
  unfold PathField.check
  -- The faults are looked for in turn, and each contradicts one field of `Usable`.
  by_cases hblank : (Text.trim path.text.toList).isEmpty = true
  · rw [if_pos hblank]
    refine iff_of_false (fun h => by cases h) fun h => ?_
    rcases h.nonblank with ⟨c, hc, hne⟩
    rw [Text.isEmpty_trim_iff.1 hblank c hc] at hne
    cases hne
  rw [if_neg hblank]
  by_cases hlong : path.isTooLong = true
  · rw [if_pos hlong]
    refine iff_of_false (fun h => by cases h) fun h => ?_
    rw [Path.isTooLong_eq_false_iff.2 h.length] at hlong
    cases hlong
  rw [if_neg hlong]
  by_cases hcomponent : path.hasLongComponent = true
  · rw [if_pos hcomponent]
    refine iff_of_false (fun h => by cases h) fun h => ?_
    rw [Path.hasLongComponent_eq_false_iff.2 h.components] at hcomponent
    cases hcomponent
  rw [if_neg hcomponent]
  refine iff_of_true rfl ⟨?_, ?_, ?_⟩
  · by_contra hnone
    refine hblank (Text.isEmpty_trim_iff.2 fun c hc => ?_)
    by_contra hc'
    exact hnone ⟨c, hc, Bool.not_eq_true _ ▸ hc'⟩
  · exact Path.isTooLong_eq_false_iff.1 (Bool.not_eq_true _ ▸ hlong)
  · exact Path.hasLongComponent_eq_false_iff.1 (Bool.not_eq_true _ ▸ hcomponent)

namespace StoreSection

/-- When the section of the row store passes. -/
theorem check_eq_ok_iff {store : StoreSection} :
    store.check = .ok () ↔ store.Sound Path.Usable := by
  rcases store with ⟨kind, path, timeout, journal, sync⟩
  unfold check Sound
  cases kind with
  | memory => cases path <;> simp
  | database =>
    cases path with
    | none => simp
    | some path =>
      simp only [reduceCtorEq, false_and, true_and, Option.some.injEq, exists_eq_left', false_or]
      cases hfield : PathField.store.check path with
      | error fault =>
        refine iff_of_false (fun h => by cases h) fun h => ?_
        rw [PathField.check_eq_ok_iff.2 h.1] at hfield
        cases hfield
      | ok =>
        have husable := PathField.check_eq_ok_iff.1 hfield
        by_cases hzero : timeout = 0
        · simp [hzero]
        · simp [hzero, husable, UInt64.pos_iff_ne_zero]

end StoreSection

namespace BackfillSection

/-- When the section of the backfill passes. -/
theorem check_eq_ok_iff {backfill : BackfillSection} :
    backfill.check = .ok () ↔ backfill.Sound := by
  unfold check Sound pageSizeLimit
  by_cases hzero : backfill.pageSize = 0
  · rw [if_pos hzero, hzero]
    decide
  rw [if_neg hzero]
  by_cases hlarge : 1000000 < backfill.pageSize
  · rw [if_pos hlarge]
    exact iff_of_false (fun h => by cases h) fun h => absurd hlarge (UInt32.not_lt.2 h.2)
  · rw [if_neg hlarge]
    refine iff_of_true rfl ⟨?_, UInt32.not_lt.1 hlarge⟩
    rw [UInt32.le_iff_toNat_le]
    have : backfill.pageSize.toNat ≠ 0 := fun h => hzero (UInt32.toNat_inj.1 h)
    exact Nat.one_le_iff_ne_zero.2 this

/-- Nothing is asked for by a section at fault. -/
theorem job_of_check_error {backfill : BackfillSection} {fault : ConfigFault}
    (h : backfill.check = .error fault) : backfill.job = .error fault := by
  unfold job
  rw [h]

/-- What a section that passes asks for. -/
theorem job_of_sound {backfill : BackfillSection} (h : backfill.Sound) :
    ∃ job, backfill.job = .ok job ∧ job.skip = backfill.skip ∧
      job.pageSize = backfill.pageSize := by
  -- The job asks again for a page size that is not zero.
  have hne : backfill.pageSize ≠ 0 := by
    intro hzero
    have := h.1
    rw [hzero] at this
    revert this
    decide
  refine ⟨⟨backfill.skip, backfill.pageSize, hne⟩, ?_, rfl, rfl⟩
  unfold job
  rw [check_eq_ok_iff.2 h]
  exact dif_neg hne

end BackfillSection

namespace AuditSection

/-- When the section of the audit log passes. -/
theorem check_eq_ok_iff {audit : AuditSection} :
    audit.check = .ok () ↔ audit.Sound Path.Usable := by
  rcases audit with ⟨sink, path⟩
  unfold check Sound
  cases sink with
  | file => cases path <;> simp [PathField.check_eq_ok_iff]
  | terminal => cases path <;> simp
  | nowhere => cases path <;> simp

/-- Nothing is built from a section at fault. -/
theorem build_of_check_error {audit : AuditSection} {fault : ConfigFault}
    (h : audit.check = .error fault) (disk : Disk) :
    audit.build disk = (.error (.invalid fault), disk) := by
  unfold build
  rw [h]

/-- A section that passes is not at fault when it is built from. -/
theorem build_ne_invalid {audit : AuditSection} (h : audit.check = .ok ()) (disk : Disk)
    (fault : ConfigFault) : (audit.build disk).1 ≠ .error (.invalid fault) := by
  simp only [build, h]
  split
  · -- A file that cannot be opened is the machine's affair.
    split <;> simp
  · simp
  · simp

end AuditSection

namespace DatabaseConfig

/-- When a path that passes as a field passes as the path of a database. -/
theorem check_eq_ok_iff {config : DatabaseConfig} (h : config.path.Usable) (disk : Disk) :
    config.check disk = .ok () ↔ disk.isDirectory config.path = false := by
  -- A path with something in it that is no blank is not empty.
  have hne : config.path.bytes ≠ [] := by
    intro hempty
    rcases h.nonblank with ⟨c, hc, -⟩
    rw [Path.text, hempty] at hc
    cases hc
  unfold check fault?
  rw [if_neg hne, Path.isTooLong_eq_false_iff.2 h.length,
    Path.hasLongComponent_eq_false_iff.2 h.components]
  cases disk.isDirectory config.path <;> simp

end DatabaseConfig

namespace StoreSection

/-- Only a section that asks for a database names one. -/
theorem database?_eq_some_iff {store : StoreSection} {database : DatabaseConfig} :
    store.database? = some database ↔
      store.kind = .database ∧ store.path = some database.path ∧
        database.busyTimeout = store.busyTimeout ∧ database.journal = store.journal ∧
        database.sync = store.sync := by
  rcases store with ⟨kind, path, timeout, journal, sync⟩
  rcases database with ⟨path', timeout', journal', sync'⟩
  unfold database?
  -- Only a store of that kind with a path is turned into a configuration.
  cases kind with
  | memory => simp
  | database => cases path <;> simp [eq_comm]

/-- A sound section names a database if it asks for one. -/
theorem isSome_database?_of_sound {store : StoreSection} (h : store.Sound Path.Usable) :
    store.database?.isSome = true ↔ store.kind = .database := by
  rcases h with ⟨hkind, -⟩ | ⟨hkind, ⟨path, hpath, -⟩, -⟩
  · simp [database?, hkind]
  · simp [database?, hkind, hpath]

/-- What a sound section names can have a database, unless a directory is there. -/
theorem check_database_of_sound {store : StoreSection} {database : DatabaseConfig}
    (h : store.Sound Path.Usable) (hdatabase : store.database? = some database) (disk : Disk) :
    database.check disk = .ok () ↔ disk.isDirectory database.path = false := by
  -- The configuration that is built has the path that was found usable.
  rcases database?_eq_some_iff.1 hdatabase with ⟨hkind, hpath, -⟩
  rcases h with ⟨hmemory, -⟩ | ⟨-, ⟨path, hpath', husable⟩, -⟩
  · rw [hkind] at hmemory
    cases hmemory
  · rw [hpath] at hpath'
    cases hpath'
    exact DatabaseConfig.check_eq_ok_iff husable disk

/-- A section that passes is not at fault when it is built from. -/
theorem build_ne_invalid {store : StoreSection} (h : store.check = .ok ()) (disk : Disk)
    (fault : ConfigFault) : (store.build disk).1 ≠ some (.error (.invalid fault)) := by
  simp only [build, h]
  split
  · simp
  · -- What the database refuses is passed on as its own error.
    split <;> simp

end StoreSection

namespace Config

/-- When a configuration passes. -/
theorem check_eq_ok_iff {config : Config} : config.check = .ok () ↔ config.Sound Path.Usable := by
  unfold check
  constructor
  · intro h
    rcases Fallible.bind_eq_ok_iff.1 h with ⟨_, hstore, h⟩
    rcases Fallible.bind_eq_ok_iff.1 h with ⟨_, hbackfill, haudit⟩
    exact ⟨StoreSection.check_eq_ok_iff.1 hstore, BackfillSection.check_eq_ok_iff.1 hbackfill,
      AuditSection.check_eq_ok_iff.1 haudit⟩
  · intro h
    refine Fallible.bind_eq_ok_iff.2 ⟨(), StoreSection.check_eq_ok_iff.2 h.store, ?_⟩
    exact Fallible.bind_eq_ok_iff.2 ⟨(), BackfillSection.check_eq_ok_iff.2 h.backfill,
      AuditSection.check_eq_ok_iff.2 h.audit⟩

/-- What passes can be built, and nothing else is. A path that is a text is
    measured by its own bytes, and any other by what is shown for it. The parts
    of a database are those of the section, its path passes there too unless a
    directory is in its place, and a section at fault is refused by whoever
    builds from it, without a change to the disk. -/
theorem check_agrees (config : Config) :
    (config.check = .ok () ↔ config.Sound Path.Usable) ∧
      (∀ text, Path.Usable (.ofText text) ↔ Path.Fits (.ofText text)) ∧
      (config.check = .ok () →
        (config.store.database?.isSome = true ↔ config.store.kind = .database) ∧
        (∀ database, config.store.database? = some database →
          config.store.path = some database.path ∧
          database.busyTimeout = config.store.busyTimeout ∧
          database.journal = config.store.journal ∧ database.sync = config.store.sync ∧
          ∀ disk, database.check disk = .ok () ↔ disk.isDirectory database.path = false) ∧
        (∃ job, config.backfill.job = .ok job ∧ job.skip = config.backfill.skip ∧
          job.pageSize = config.backfill.pageSize) ∧
        ∀ disk fault, (config.store.build disk).1 ≠ some (.error (.invalid fault)) ∧
          (config.audit.build disk).1 ≠ .error (.invalid fault)) ∧
      ∀ fault,
        (config.store.check = .error fault →
          ∀ disk, config.store.build disk = (some (.error (.invalid fault)), disk)) ∧
        (config.backfill.check = .error fault → config.backfill.job = .error fault) ∧
        (config.audit.check = .error fault →
          ∀ disk, config.audit.build disk = (.error (.invalid fault), disk)) := by
  refine ⟨check_eq_ok_iff, Path.usable_ofText_iff, fun hcheck => ?_, fun fault => ⟨?_, ?_, ?_⟩⟩
  · have hsound := check_eq_ok_iff.1 hcheck
    refine ⟨StoreSection.isSome_database?_of_sound hsound.store, fun database hdatabase => ?_,
      BackfillSection.job_of_sound hsound.backfill, fun disk fault => ⟨?_, ?_⟩⟩
    · rcases StoreSection.database?_eq_some_iff.1 hdatabase with
        ⟨-, hpath, htimeout, hjournal, hsync⟩
      exact ⟨hpath, htimeout, hjournal, hsync,
        StoreSection.check_database_of_sound hsound.store hdatabase⟩
    · exact StoreSection.build_ne_invalid (StoreSection.check_eq_ok_iff.2 hsound.store) disk fault
    · exact AuditSection.build_ne_invalid (AuditSection.check_eq_ok_iff.2 hsound.audit) disk fault
  · exact StoreSection.build_of_check_error
  · exact BackfillSection.job_of_check_error
  · exact AuditSection.build_of_check_error

/-- A configuration with a database and a log in a file passes, and so its
    parts are found; without a path for the log, the log alone is refused. -/
theorem check_agrees_databaseAndFile :
    let store : StoreSection := ⟨.database, some (.ofText "data/rows.db"), 250, .delete, .normal⟩
    let sound : Config := ⟨store, ⟨true, 40⟩, ⟨.file, some (.ofText "audit.log")⟩⟩
    let faulty : Config := { sound with audit := ⟨.file, none⟩ }
    (sound.check = .ok () ∧ sound.Sound Path.Usable ∧ store.database?.isSome = true ∧
        ∀ disk fault, (store.build disk).1 ≠ some (.error (.invalid fault))) ∧
      (faulty.audit.check = .error .missingAuditPath ∧
        ∀ disk, faulty.audit.build disk = (.error (.invalid .missingAuditPath), disk)) := by
  intro store sound faulty
  have hcheck : sound.check = .ok () := by decide +kernel
  have hagrees := check_agrees sound
  rcases hagrees.2.2.1 hcheck with ⟨hdatabase, -, -, hbuild⟩
  exact ⟨⟨hcheck, hagrees.1.1 hcheck, hdatabase.2 rfl, fun disk fault => (hbuild disk fault).1⟩,
    rfl, ((check_agrees faulty).2.2.2 .missingAuditPath).2.2 rfl⟩

/-- The checks do not measure the bytes of a path, and not all that passes can be
    built. A path of a hundred bytes that are no text is refused, because three
    bytes are shown for each of them. A wait of more milliseconds than the engine
    can be told passes, and then the program gives up. -/
theorem check_unlike_fits :
    let garbled : Path := ⟨List.replicate 100 0xFF⟩
    let refused : Config :=
      { default with
        store := { StoreSection.default with kind := .database, path := some garbled } }
    let patient : StoreSection := ⟨.database, some (.ofText "x.db"), 0x80000000, .wal, .full⟩
    ¬ (refused.check = .ok () ↔ refused.Sound Path.Fits) ∧
      patient.check = .ok () ∧ (patient.build ⟨[], []⟩).1 = none := by
  intro garbled refused patient
  have hfits : garbled.Fits :=
    ⟨⟨Utf8Phase.replacement, by decide +kernel, by decide⟩, by decide, by decide +kernel⟩
  have hsound : refused.Sound Path.Fits := by
    have hbackfill : refused.backfill.Sound := ⟨by decide, by decide⟩
    exact ⟨Or.inr ⟨rfl, ⟨garbled, rfl, hfits⟩, by decide⟩, hbackfill, Or.inr ⟨by decide, rfl⟩⟩
  have hcheck : refused.check = .error (.path .store .component) := by decide +kernel
  have hnone : (patient.build ⟨[], []⟩).1.isNone = true := by decide +kernel
  refine ⟨fun hiff => ?_, by decide +kernel, Option.isNone_iff_eq_none.1 hnone⟩
  cases hcheck.symm.trans (hiff.2 hsound)

end Config

end Fieldwork
