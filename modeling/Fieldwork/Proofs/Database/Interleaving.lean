import Fieldwork.Proofs.Database.Backfill

/-!
# A Backfill Among Others

A backfill as the transactions it is made of, with what happens between them.

Each page of a run is a transaction of its own. Between two pages somebody may
register principals, and a page may fail: then it is undone, the run is over,
and the pages before it stay. So the tables that a run walks through grow under
it, and a run may have to be started again from where another one was cut off.

Neither can be seen in the end. Registration appends a key beyond all others,
so whatever is new lies ahead of the cursor, and what lies behind the cursor
has its detail. The keys that a run has filled are therefore always the first
of those that were missing, and those still missing are the rest. `Worked`
says this of the tables against the same tables without the run, in which only
the registrations took place. The order in which pages and registrations came
does not enter it, nor does it matter where a run stops: whoever fills the
rest comes out at the same tables.

## Main definitions

* `BackfillRun`, `BackfillStep`: A run between two transactions, and what may
  come next.
* `BackfillStep.runAll`: A run after steps in turn.
* `BackfillStep.registerAll`: What the steps register, without the run.
* `PrincipalTables.Worked`: The tables of a run that is under way.

## Theorems

* `worked_committed`, `worked_register`: A page and a registration keep it.
* `worksOn_runAll`: So do all steps of a run.
* `backfill_of_worksOn`: Another run comes out where one alone would have.
* `backfill_of_finished`: So does a run that ends.
* `runAll_pages`: The pages of a run in turn are the run.
* `backfill_among_steps`: Runs that are cut off, and runs among registrations.
-/

namespace Fieldwork

/-- How far a run of a backfill has come. -/
inductive BackfillPhase where
  /-- A page comes next. -/
  | running
  /-- A page had no key. -/
  | finished
  /-- A page failed. -/
  | failed (error : DatabaseError)
  deriving DecidableEq

/-- A run of a backfill between two of its transactions. -/
structure BackfillRun where
  /-- How many keys a page has at most. -/
  size : Nat
  /-- The last key of the page before. -/
  last : Nat
  /-- What was committed so far. -/
  report : BackfillReport
  /-- How far it has come. -/
  phase : BackfillPhase
  deriving DecidableEq

namespace BackfillRun

/-- A run before its first page. -/
def start (config : BackfillConfig) : BackfillRun :=
  ⟨config.pageSize.toNat, 0, ⟨false, 0, 0⟩, .running⟩

/-- A run after a page that has a key. -/
def committed (run : BackfillRun) (key made : Nat) : BackfillRun :=
  { run with
    last := key
    report := ⟨false, run.report.pages + 1, run.report.inserted + made⟩ }

end BackfillRun

/-- What may come next while a backfill is run. -/
inductive BackfillStep where
  /-- The transaction of a page; it fails if there is a fault. -/
  | page (fault : Option DatabaseError)
  /-- Somebody registers a principal. -/
  | register (principal : PrincipalId)

namespace Database

/-- The transaction of a page. A fault may come as late as when it commits. -/
def fillPage (fault : Option DatabaseError) (size last : Nat) (db : Database) :
    Except DatabaseError ((Option Nat × Nat) × Database) :=
  match db.principalTables with
  | .error error => .error error
  | .ok tables =>
    let (page, after) := tables.fillPage size last
    match fault with
    | some error => .error error
    | none => .ok (page, { db with principals := some after })

end Database

namespace BackfillStep

/-- A run and its database after a step. A run that is over does no page. -/
def run (session : BackfillRun × Database) : BackfillStep → BackfillRun × Database
  | page fault =>
    match session.1.phase with
    | .running =>
      match session.2.transact (Database.fillPage fault session.1.size session.1.last) with
      | (.error error, db) => ({ session.1 with phase := .failed error }, db)
      | (.ok (none, _), db) => ({ session.1 with phase := .finished }, db)
      | (.ok (some key, made), db) => (session.1.committed key made, db)
    | _ => session
  | register principal => (session.1, ((session.2.register principal).toOption.getD session.2))

/-- A run and its database after steps in turn. -/
def runAll (session : BackfillRun × Database) (steps : List BackfillStep) :
    BackfillRun × Database :=
  steps.foldl run session

/-- What a step does to a database when there is no run. -/
def registerOnly (db : Database) : BackfillStep → Database
  | page _ => db
  | register principal => (db.register principal).toOption.getD db

/-- What steps do to a database when there is no run. -/
def registerAll (db : Database) (steps : List BackfillStep) : Database :=
  steps.foldl registerOnly db

end BackfillStep

namespace PrincipalTables

section Register

variable {principal : PrincipalId} {tables : PrincipalTables}

theorem principals_register (h : tables.key? principal = none) :
    (tables.register principal).principals =
      tables.principals ++ [(tables.lastKey + 1, principal)] := by
  unfold register
  split
  · rename_i hkey
    rw [h] at hkey
    cases hkey
  · rfl

theorem lastKey_register (principal : PrincipalId) (tables : PrincipalTables) :
    (tables.register principal).lastKey = tables.lastKey + 1 := by
  unfold register
  split
  · rfl
  · rfl

/-- A new principal has no detail. -/
theorem lacking_register (h : tables.key? principal = none) :
    (tables.register principal).lacking = tables.lacking ++ [tables.lastKey + 1] := by
  -- A detail belongs to a key that was used, and the new key was not.
  have hnew : tables.details.lookup (tables.lastKey + 1) = none := by
    rw [← Option.not_isSome_iff_eq_none]
    intro hdetail
    have hkey := tables.owned _ (hasDetail_iff.1 hdetail)
    exact absurd (tables.used _ hkey).2 (by omega)
  rw [lacking, principals_register h, details_register, Ordered.keys, List.map_append,
    List.filter_append]
  simp [lacking, Ordered.keys, hnew]

theorem isSome_key?_iff :
    (tables.key? principal).isSome = true ↔ principal ∈ tables.principals.map Prod.snd := by
  rw [key?, Option.isSome_map, List.find?_isSome, List.mem_map]
  simp only [decide_eq_true_eq]

/-- Whoever was there stays, and who is registered comes in. -/
theorem isSome_key?_register_iff (other : PrincipalId) :
    ((tables.register principal).key? other).isSome = true ↔
      (tables.key? other).isSome = true ∨ other = principal := by
  rcases hkey : tables.key? principal with _ | key
  · rw [isSome_key?_iff, isSome_key?_iff, principals_register hkey, List.map_append,
      List.mem_append, List.map_singleton, List.mem_singleton]
  · have hthere : (tables.key? principal).isSome = true := by rw [hkey]; rfl
    rw [register_of_isSome_key? hthere]
    -- A key that is used up changes nobody's key.
    change (tables.key? other).isSome = true ↔ _
    refine (or_iff_left_of_imp ?_).symm
    rintro rfl
    exact hthere

theorem nodup_lacking (tables : PrincipalTables) : tables.lacking.Nodup :=
  (tables.ascending.sublist List.filter_sublist).imp Nat.ne_of_lt

theorem skipped_fillFrom (size last : Nat) (tables : PrincipalTables) :
    (tables.fillFrom size last).1.skipped = false := by
  rw [fillFrom]
  split <;> rfl

theorem mem_keys_of_key? {key : Nat} (h : tables.key? principal = some key) :
    key ∈ Ordered.keys tables.principals := by
  rcases Option.map_eq_some_iff.1 h with ⟨entry, hentry, rfl⟩
  exact List.mem_map_of_mem (List.mem_of_find?_eq_some hentry)

end Register

/-- Tables in which a run that is under way has filled some details, against
    the `whole` tables, which are what they would be without the run. -/
structure Worked (whole : PrincipalTables) (run : BackfillRun) (filled : List Nat)
    (tables : PrincipalTables) : Prop where
  /-- The same principals are registered. -/
  principals : tables.principals = whole.principals
  /-- The same keys were used. -/
  lastKey : tables.lastKey = whole.lastKey
  /-- The details of the run are behind the others. -/
  details : tables.details = withBlanks whole.details filled
  /-- The run has filled the first of the keys that lacked a detail. -/
  lacking : filled ++ tables.lacking = whole.lacking
  /-- No key that lacks a detail is behind the cursor. -/
  ahead : ∀ key ∈ tables.lacking, run.last < key
  /-- The cursor is at a key that was used. -/
  last_le : run.last ≤ tables.lastKey
  /-- The run counts what it has filled. -/
  inserted : run.report.inserted = filled.length

section Worked

variable {whole tables : PrincipalTables} {run : BackfillRun} {filled : List Nat}

theorem mem_lacking_iff {key : Nat} : key ∈ tables.lacking ↔
    key ∈ Ordered.keys tables.principals ∧ ¬ tables.hasDetail key = true := by
  rw [lacking, List.mem_filter, hasDetail, Bool.not_eq_true, Option.isSome_eq_false_iff]

/-- What lies ahead of the cursor without a detail is all that has none. -/
theorem pending_of_ahead {last : Nat} (h : ∀ key ∈ tables.lacking, last < key) :
    tables.pending last = tables.lacking := by
  refine List.filter_congr fun key hkey => ?_
  rw [Bool.eq_iff_iff, isPending_iff, hasDetail, Bool.not_eq_true, Option.isSome_eq_false_iff]
  exact and_iff_right_of_imp fun hnone => h key (List.mem_filter.2 ⟨hkey, hnone⟩)

theorem worked_start (config : BackfillConfig) (tables : PrincipalTables) :
    tables.Worked (.start config) [] tables where
  principals := rfl
  lastKey := rfl
  details := (List.append_nil _).symm
  lacking := rfl
  ahead key hkey := (tables.used key (List.mem_filter.1 hkey).1).1
  last_le := Nat.zero_le _
  inserted := rfl

/-- It does not matter whether the run goes on. -/
theorem Worked.ended (h : whole.Worked run filled tables) (phase : BackfillPhase) :
    whole.Worked { run with phase } filled tables :=
  ⟨h.principals, h.lastKey, h.details, h.lacking, h.ahead, h.last_le, h.inserted⟩

/-- After a page, whoever still lacks a detail comes after its last key. -/
theorem ahead_of_fillPage {size last key made : Nat} {after : PrincipalTables}
    (h : ∀ other ∈ tables.lacking, last < other)
    (hpage : fillPage size last tables = ((some key, made), after)) :
    ∀ other ∈ after.lacking, key < other := by
  have hafter : after = (fillPage size last tables).2 := by rw [hpage]
  have hlast : (tables.pageKeys size last).getLast? = some key :=
    congrArg (fun r => r.1.1) hpage
  intro other hother
  rw [mem_lacking_iff, hafter, principals_fillPage, hasDetail_fillPage_iff] at hother
  -- It lacked a detail before, and the page had no room for it.
  have hold : other ∈ tables.pending last := by
    rw [pending_of_ahead h]
    exact mem_lacking_iff.2 ⟨hother.1, fun hdetail => hother.2 (Or.inl hdetail)⟩
  rw [← List.take_append_drop size (tables.pending last), ← pageKeys_eq_take] at hold
  rcases List.mem_append.1 hold with hfilled | hleft
  · exact absurd (Or.inr hfilled) hother.2
  · exact lt_of_mem_drop (List.mem_of_getLast? hlast) hleft

/-- A page keeps what was filled and what is missing the parts of one list. -/
theorem worked_committed (h : whole.Worked run filled tables) {key made : Nat}
    {after : PrincipalTables}
    (hpage : fillPage run.size run.last tables = ((some key, made), after)) :
    whole.Worked (run.committed key made) (filled ++ tables.lacking.take run.size) after := by
  have hafter : after = (fillPage run.size run.last tables).2 := by rw [hpage]
  have hmade : made = (tables.pageKeys run.size run.last).length :=
    (congrArg (fun r => r.1.2) hpage).symm
  have hlast : (tables.pageKeys run.size run.last).getLast? = some key :=
    congrArg (fun r => r.1.1) hpage
  have hkey := mem_keys_of_mem_pageKeys (List.mem_of_getLast? hlast)
  have hpending := pending_of_ahead h.ahead
  have hpageKeys : tables.pageKeys run.size run.last = tables.lacking.take run.size := by
    rw [pageKeys_eq_take, hpending]
  have hahead := ahead_of_fillPage h.ahead hpage
  -- The page took the first of what was missing, so what is left is the rest.
  have hlacking : after.lacking = tables.lacking.drop run.size := by
    rw [← pending_of_ahead hahead, pending_fillPage hpage, hpending]
  refine ⟨?_, ?_, ?_, ?_, hahead, ?_, ?_⟩
  · rw [hafter, principals_fillPage]
    exact h.principals
  · rw [hafter]
    exact h.lastKey
  · rw [hafter, details_fillPage, h.details, withBlanks_append, hpageKeys]
  · rw [hlacking, List.append_assoc, List.take_append_drop]
    exact h.lacking
  · rw [hafter]
    exact (tables.used key hkey).2
  · show run.report.inserted + made = _
    rw [h.inserted, hmade, hpageKeys, List.length_append]

/-- A page without a key changes nothing, and nobody lacks a detail. -/
theorem lacking_of_last_page (hsize : 0 < run.size) (h : whole.Worked run filled tables)
    {made : Nat} {after : PrincipalTables}
    (hpage : fillPage run.size run.last tables = ((none, made), after)) :
    after = tables ∧ tables.lacking = [] := by
  have hafter : after = (fillPage run.size run.last tables).2 := by rw [hpage]
  have hnil := pending_eq_nil_of_fillPage hsize hpage
  refine ⟨PrincipalTables.ext ?_ ?_ ?_, ?_⟩
  · rw [hafter, principals_fillPage]
  · rw [hafter, details_fillPage, pageKeys_eq_take, hnil, List.take_nil]
    exact List.append_nil _
  · rw [hafter]
    rfl
  · rw [← pending_of_ahead h.ahead, hnil]

/-- A new principal comes after all keys that were used, so it is ahead of
    every cursor. -/
theorem worked_register (h : whole.Worked run filled tables) (principal : PrincipalId) :
    (whole.register principal).Worked run filled (tables.register principal) := by
  have hkeys : tables.key? principal = whole.key? principal := by rw [key?, key?, h.principals]
  have hlast : (tables.register principal).lastKey = (whole.register principal).lastKey := by
    rw [lastKey_register, lastKey_register, h.lastKey]
  have hle : run.last ≤ (tables.register principal).lastKey := by
    rw [lastKey_register]
    exact Nat.le_succ_of_le h.last_le
  rcases hkey : whole.key? principal with _ | key
  · -- The new key is one more than the greatest that was used, and the cursor is at one of these.
    rw [hkey] at hkeys
    refine ⟨?_, hlast, ?_, ?_, ?_, hle, h.inserted⟩
    · rw [principals_register hkeys, principals_register hkey, h.principals, h.lastKey]
    · rw [details_register, details_register, h.details]
    · rw [lacking_register hkeys, lacking_register hkey, ← List.append_assoc, h.lacking, h.lastKey]
    · rw [lacking_register hkeys]
      refine List.forall_mem_append.2 ⟨h.ahead, List.forall_mem_singleton.2 ?_⟩
      exact Nat.lt_succ_of_le h.last_le
  · -- A principal that was there uses up a key with the run and without it.
    have hwhole : whole.register principal = whole.useKey :=
      register_of_isSome_key? (by rw [hkey]; rfl)
    have htables : tables.register principal = tables.useKey :=
      register_of_isSome_key? (by rw [hkeys, hkey]; rfl)
    rw [htables, hwhole] at hlast
    rw [htables] at hle
    rw [htables, hwhole]
    exact ⟨h.principals, hlast, h.details, h.lacking, h.ahead, hle, h.inserted⟩

/-- Who fills the rest comes out where one run would have. -/
theorem filled_of_worked (h : whole.Worked run filled tables) {final alone : PrincipalTables}
    (hfinal : tables.Filled 0 final) (halone : whole.Filled 0 alone) : final = alone := by
  refine PrincipalTables.ext ?_ ?_ ?_
  · rw [hfinal.principals, halone.principals, h.principals]
  · rw [hfinal.details, halone.details, pending_zero, pending_zero, h.details, withBlanks_append,
      h.lacking]
  · rw [hfinal.lastKey, halone.lastKey, h.lastKey]

end Worked

end PrincipalTables

namespace Database

open BackfillStep (page runAll registerOnly registerAll)

/-- The database of a run that is under way. `alone` is what it would be
    without the run. -/
def WorksOn (alone : Database) (session : BackfillRun × Database) : Prop :=
  0 < session.1.size ∧ ∃ whole filled tables, alone.principals = some whole ∧
    session.2 = { alone with principals := some tables } ∧
    whole.Worked session.1 filled tables

theorem WorksOn.principals {alone : Database} {session : BackfillRun × Database}
    (h : alone.WorksOn session) : ∃ tables, session.2.principals = some tables := by
  rcases h with ⟨-, -, -, tables, -, hdb, -⟩
  exact ⟨tables, by rw [hdb]⟩

section Steps

variable {db alone : Database} {tables : PrincipalTables} {session : BackfillRun × Database}

theorem transact_fillPage (htables : db.principals = some tables) (size last : Nat) :
    db.transact (fillPage none size last) =
      (.ok (tables.fillPage size last).1,
        { db with principals := some (tables.fillPage size last).2 }) := by
  rw [transact, fillPage, principalTables, htables]

/-- A page that fails is undone. -/
theorem transact_fillPage_fault (htables : db.principals = some tables) (error : DatabaseError)
    (size last : Nat) : db.transact (fillPage (some error) size last) = (.error error, db) := by
  rw [transact, fillPage, principalTables, htables]

theorem toOption_register (htables : db.principals = some tables) (principal : PrincipalId) :
    (db.register principal).toOption.getD db =
      { db with principals := some (tables.register principal) } := by
  rw [register, principalTables, htables]
  rfl

theorem run_last_page (htables : session.2.principals = some tables)
    (hrunning : session.1.phase = .running) {made : Nat} {after : PrincipalTables}
    (hpage : tables.fillPage session.1.size session.1.last = ((none, made), after)) :
    (page none).run session =
      ({ session.1 with phase := .finished }, { session.2 with principals := some after }) := by
  simp only [BackfillStep.run, hrunning, transact_fillPage htables, hpage]

theorem run_page (htables : session.2.principals = some tables)
    (hrunning : session.1.phase = .running) {key made : Nat} {after : PrincipalTables}
    (hpage : tables.fillPage session.1.size session.1.last = ((some key, made), after)) :
    (page none).run session =
      (session.1.committed key made, { session.2 with principals := some after }) := by
  simp only [BackfillStep.run, hrunning, transact_fillPage htables, hpage]

theorem run_page_fault (htables : session.2.principals = some tables)
    (hrunning : session.1.phase = .running) (error : DatabaseError) :
    (page (some error)).run session =
      ({ session.1 with phase := .failed error }, session.2) := by
  simp only [BackfillStep.run, hrunning, transact_fillPage_fault htables]

theorem worksOn_start (config : BackfillConfig) (htables : db.principals = some tables) :
    db.WorksOn (.start config, db) := by
  refine ⟨config.pageSize_pos, tables, [], tables, htables, ?_, PrincipalTables.worked_start _ _⟩
  rw [← htables]

theorem worksOn_page (h : alone.WorksOn session) (fault : Option DatabaseError) :
    alone.WorksOn ((page fault).run session) := by
  rcases h with ⟨hsize, whole, filled, tables, hwhole, hdb, hworked⟩
  have htables : session.2.principals = some tables := by rw [hdb]
  by_cases hrunning : session.1.phase = .running
  · rcases fault with _ | error
    · rcases hpage : tables.fillPage session.1.size session.1.last with ⟨⟨_ | key, made⟩, after⟩
      · -- The last page fills nothing, so only the phase is another.
        rw [run_last_page htables hrunning hpage,
          (PrincipalTables.lacking_of_last_page hsize hworked hpage).1]
        exact ⟨hsize, whole, filled, tables, hwhole, by rw [hdb], hworked.ended _⟩
      · rw [run_page htables hrunning hpage]
        exact ⟨hsize, whole, _, after, hwhole, by rw [hdb],
          PrincipalTables.worked_committed hworked hpage⟩
    · -- A page that fails is undone, and only the phase is another.
      rw [run_page_fault htables hrunning]
      exact ⟨hsize, whole, filled, tables, hwhole, hdb, hworked.ended _⟩
  · -- The run is over.
    have hstep : (page fault).run session = session := by
      simp only [BackfillStep.run]
    rw [hstep]
    exact ⟨hsize, whole, filled, tables, hwhole, hdb, hworked⟩

theorem worksOn_register (h : alone.WorksOn session) (principal : PrincipalId) :
    (registerOnly alone (.register principal)).WorksOn
      ((BackfillStep.register principal).run session) := by
  rcases h with ⟨hsize, whole, filled, tables, hwhole, hdb, hworked⟩
  have htables : session.2.principals = some tables := by rw [hdb]
  rw [BackfillStep.run, registerOnly, toOption_register htables, toOption_register hwhole]
  exact ⟨hsize, _, filled, _, rfl, by rw [hdb],
    PrincipalTables.worked_register hworked principal⟩

theorem registerAll_replicate (db : Database) (count : Nat) :
    registerAll db (List.replicate count (page none)) = db := by
  induction count with
  | zero => rfl
  | succ count ih => exact ih

/-- The registrations change the tables of principals only, and register
    whom they are for. -/
theorem registerAll_eq (htables : db.principals = some tables) (steps : List BackfillStep) :
    ∃ whole, registerAll db steps = { db with principals := some whole } ∧
      ∀ principal, (whole.key? principal).isSome = true ↔
        (tables.key? principal).isSome = true ∨ .register principal ∈ steps := by
  induction steps generalizing db tables with
  | nil =>
    refine ⟨tables, ?_, fun principal => (or_iff_left List.not_mem_nil).symm⟩
    rw [← htables]
    rfl
  | cons step rest ih =>
    cases step with
    | page fault =>
      -- Without a run a page does nothing, and it registers nobody.
      rcases ih htables with ⟨whole, hwhole, hnames⟩
      refine ⟨whole, hwhole, fun principal => (hnames principal).trans ?_⟩
      have hne : BackfillStep.register principal ≠ page fault := nofun
      rw [List.mem_cons, or_iff_right hne]
    | register newcomer =>
      have hthere : ({ db with principals := some (tables.register newcomer) } :
          Database).principals = some (tables.register newcomer) := rfl
      rcases ih hthere with ⟨whole, hwhole, hnames⟩
      refine ⟨whole, ?_, fun principal => (hnames principal).trans ?_⟩
      · rw [registerAll, List.foldl_cons, registerOnly, toOption_register htables]
        exact hwhole
      · rw [PrincipalTables.isSome_key?_register_iff, List.mem_cons, BackfillStep.register.injEq,
          or_assoc]

/-- Whatever happens between the pages of a run, it fills what the
    registrations alone would have left to fill. -/
theorem worksOn_runAll (h : alone.WorksOn session) (steps : List BackfillStep) :
    (registerAll alone steps).WorksOn (runAll session steps) := by
  induction steps generalizing alone session with
  | nil => exact h
  | cons step rest ih =>
    cases step with
    | page fault => exact ih (worksOn_page h fault)
    | register principal => exact ih (worksOn_register h principal)

/-- Another run fills the rest and comes out where one run would have. -/
theorem backfill_of_worksOn (h : alone.WorksOn session) {config again : BackfillConfig}
    (hskip : config.skip = false) (hagain : again.skip = false) :
    ∃ (whole between final : PrincipalTables) (filled : List Nat) (report : BackfillReport),
      alone.principals = some whole ∧
      session.2 = { alone with principals := some between } ∧
      (alone.backfill config).2 = { alone with principals := some final } ∧
      session.2.backfill again =
        (.ok (report, .backfill report.event), { alone with principals := some final }) ∧
      between.details = PrincipalTables.withBlanks whole.details filled ∧
      final.details = PrincipalTables.withBlanks between.details between.lacking ∧
      filled ++ between.lacking = whole.lacking ∧
      session.1.report.inserted = filled.length ∧ report.inserted = between.lacking.length := by
  rcases h with ⟨hsize, whole, filled, between, hwhole, hdb, hworked⟩
  have hbetween : session.2.principals = some between := by rw [hdb]
  rcases backfill_eq hskip hwhole with ⟨once, honce, hrun⟩
  rcases backfill_eq hagain hbetween with ⟨final, hfinal, hrerun⟩
  have hdetails := hfinal.details
  rw [PrincipalTables.pending_zero] at hdetails
  -- Filling what the run has left comes to the same as filling what it started
  -- from.
  rw [← PrincipalTables.filled_of_worked hworked hfinal honce] at hrun
  have hother : { session.2 with principals := some final } =
      { alone with principals := some final } := by rw [hdb]
  rw [hother] at hrerun
  exact ⟨whole, between, final, filled, _, hwhole, hdb, congrArg Prod.snd hrun, hrerun,
    hworked.details, hdetails, hworked.lacking, hworked.inserted, rfl⟩

/-- A run that ends at an empty page leaves nothing to fill. -/
theorem backfill_of_finished (h : alone.WorksOn session) (hrunning : session.1.phase = .running)
    (hfinished : ((page none).run session).1.phase = .finished) {config : BackfillConfig}
    (hskip : config.skip = false) :
    ∃ whole final, alone.principals = some whole ∧ whole.Filled 0 final ∧
      ((page none).run session).2 = { alone with principals := some final } ∧
      (alone.backfill config).2 = { alone with principals := some final } := by
  rcases h with ⟨hsize, whole, filled, tables, hwhole, hdb, hworked⟩
  have htables : session.2.principals = some tables := by rw [hdb]
  rcases backfill_eq hskip hwhole with ⟨once, honce, hrun⟩
  rcases hpage : tables.fillPage session.1.size session.1.last with ⟨⟨_ | key, made⟩, after⟩
  · -- Nothing is missing any more, so the tables are already those that a run fills.
    rcases PrincipalTables.lacking_of_last_page hsize hworked hpage with ⟨hafter, hnil⟩
    have hself : tables.Filled 0 tables := by
      refine ⟨rfl, rfl, ?_⟩
      rw [PrincipalTables.pending_zero, hnil]
      exact (List.append_nil _).symm
    have honce' := PrincipalTables.filled_of_worked hworked hself honce
    subst honce'
    refine ⟨whole, tables, hwhole, honce, ?_, congrArg Prod.snd hrun⟩
    rw [run_last_page htables hrunning hpage, hafter, hdb]
  · -- A page with a key lets the run go on.
    rw [run_page htables hrunning hpage] at hfinished
    cases hrunning.symm.trans hfinished

end Steps

section Pages

variable {config : BackfillConfig} {db : Database} {tables : PrincipalTables}

/-- As long as there are pages with a key, a run goes on. -/
theorem runAll_replicate (htables : db.principals = some tables) {size last count : Nat}
    (hcount : count ≤ (tables.fillFrom size last).1.pages) (pages made : Nat) :
    let session := runAll (⟨size, last, ⟨false, pages, made⟩, .running⟩, db)
      (List.replicate count (page none))
    session.1.phase = .running ∧ session.1.report.pages = pages + count := by
  -- One page of the tables is one step of the run.
  fun_induction PrincipalTables.fillFrom size last tables
    generalizing db count pages made with
  | case1 last tables added after hpage =>
    obtain rfl := Nat.le_zero.1 hcount
    exact ⟨rfl, rfl⟩
  | case2 last tables key added after hpage report final hrest ih =>
    rcases count with _ | count
    · exact ⟨rfl, rfl⟩
    · rw [hrest] at ih
      have hthere : ({ db with principals := some after } : Database).principals = some after := rfl
      have hmore := ih hthere (Nat.le_of_succ_le_succ hcount) (pages + 1) (made + added)
      rw [Nat.add_right_comm] at hmore
      rw [List.replicate_succ, runAll, List.foldl_cons, run_page htables rfl hpage]
      exact hmore

/-- The pages of a run, and the empty one at which it ends, are the run. -/
theorem runAll_pages (htables : db.principals = some tables) (size last pages made : Nat) :
    let (report, final) := tables.fillFrom size last
    let session := runAll (⟨size, last, ⟨false, pages, made⟩, .running⟩, db)
      (List.replicate (report.pages + 1) (page none))
    session.1.phase = .finished ∧
      session.1.report = ⟨false, pages + report.pages, made + report.inserted⟩ ∧
      session.2 = { db with principals := some final } := by
  -- The counters start anywhere, because the pages behind the first one go on from
  -- its counts.
  fun_induction PrincipalTables.fillFrom size last tables generalizing db pages made with
  | case1 last tables added after hpage =>
    dsimp only
    rw [runAll, List.replicate_one, List.foldl_cons, List.foldl_nil,
      run_last_page htables rfl hpage]
    exact ⟨rfl, rfl, rfl⟩
  | case2 last tables key added after hpage report final hrest ih =>
    rw [hrest] at ih
    have hthere : ({ db with principals := some after } : Database).principals = some after := rfl
    have hmore := ih hthere (pages + 1) (made + added)
    dsimp only at hmore ⊢
    rw [Nat.add_right_comm, Nat.add_assoc made, Nat.add_comm added] at hmore
    rw [List.replicate_succ, runAll, List.foldl_cons, run_page htables rfl hpage]
    exact hmore

/-- A backfill is its pages in turn. -/
theorem backfill_eq_runAll (htables : db.principals = some tables) (hskip : config.skip = false) :
    ∃ pages, (tables.fillFrom config.pageSize.toNat 0).1.pages = pages ∧
      let session := runAll (.start config, db) (List.replicate (pages + 1) (page none))
      session.1.phase = .finished ∧ session.1.report.pages = pages ∧
        db.backfill config =
          (.ok (session.1.report, .backfill session.1.report.event), session.2) := by
  have hskipped := PrincipalTables.skipped_fillFrom config.pageSize.toNat 0 tables
  have hpages := runAll_pages htables config.pageSize.toNat 0 0 0
  rcases hfill : tables.fillFrom config.pageSize.toNat 0 with ⟨⟨skipped, pages, inserted⟩, final⟩
  rw [hfill] at hskipped hpages
  cases hskipped
  dsimp only at hpages
  rw [Nat.zero_add, Nat.zero_add] at hpages
  rcases hpages with ⟨hphase, hreport, hdb⟩
  refine ⟨pages, rfl, hphase, congrArg BackfillReport.pages hreport, ?_⟩
  rw [BackfillRun.start, hreport, hdb, backfill, hskip, if_neg Bool.false_ne_true, principalTables,
    htables]
  dsimp only
  rw [hfill]

/-- A backfill that is cut off, and one among registrations, for all tables of
    principals and details and every size of a page.

    A backfill is its pages in turn. If a page fails, however many were
    committed before, and another run follows, then the tables are those of
    one run. The first run has filled the first of the keys that were missing
    and the other run the rest, none of them twice, and they report how many.

    If principals are registered between the pages, in whatever order, and the
    run ends at a page without a key, then everybody who was registered until
    then has one detail. -/
theorem backfill_among_steps (config : BackfillConfig) (htables : db.principals = some tables)
    (hskip : config.skip = false) :
    let blank := (Json.object [("name", .string ""), ("organization", .string "")]).compact
    ∃ pages,
      let complete := runAll (.start config, db) (List.replicate (pages + 1) (page none))
      (complete.1.phase = .finished ∧ complete.1.report.pages = pages ∧
        db.backfill config =
          (.ok (complete.1.report, .backfill complete.1.report.event), complete.2)) ∧
      (∀ (again : BackfillConfig) (cut : Nat) (error : DatabaseError), again.skip = false →
        let session := runAll (.start config, db)
          (List.replicate cut (page none) ++ [page (some error)])
        (cut ≤ pages → session.1.phase = .failed error ∧ session.1.report.pages = cut) ∧
        ∃ (between final : PrincipalTables) (first second : List Nat) (report : BackfillReport),
          session.2 = { db with principals := some between } ∧
          session.2.backfill again =
            (.ok (report, .backfill report.event), { db with principals := some final }) ∧
          (db.backfill config).2 = { db with principals := some final } ∧
          between.details = tables.details ++ first.map (fun key => (key, blank)) ∧
          final.details = between.details ++ second.map (fun key => (key, blank)) ∧
          first ++ second = tables.lacking ∧ tables.lacking.Nodup ∧
          session.1.report.inserted = first.length ∧ report.inserted = second.length) ∧
      (∀ steps : List BackfillStep,
        let session := runAll (.start config, db) steps
        let ended := (page none).run session
        session.1.phase = .running → ended.1.phase = .finished →
        ∃ final : PrincipalTables,
          ended.2 = { db with principals := some final } ∧
          ((registerAll db steps).backfill config).2 = ended.2 ∧
          ∀ principal, (tables.key? principal).isSome = true ∨ .register principal ∈ steps →
            ∃ key, final.key? principal = some key ∧
              (Ordered.keys final.details).count key = 1) := by
  intro blank
  have hstart := worksOn_start config htables
  rcases backfill_eq_runAll htables hskip with ⟨pages, hpages, hcomplete⟩
  refine ⟨pages, hcomplete, ?_, ?_⟩
  · intro again cut error hagain session
    -- The pages before the cut register nobody, so the tables without the run are the
    -- old ones.
    have hcommitted : db.WorksOn (runAll (.start config, db) (List.replicate cut (page none))) := by
      have hsteps := worksOn_runAll hstart (List.replicate cut (page none))
      rwa [registerAll_replicate] at hsteps
    have hsession : session = (page (some error)).run
        (runAll (.start config, db) (List.replicate cut (page none))) := List.foldl_append
    have hworks : db.WorksOn session := hsession ▸ worksOn_page hcommitted (some error)
    rcases backfill_of_worksOn hworks hskip hagain with ⟨whole, between, final, filled, report,
      hwhole, hbetween, hrun, hrerun, hfirst, hsecond, hlacking, hfilled, hrest⟩
    cases htables.symm.trans hwhole
    refine ⟨fun hcut => ?_, between, final, filled, between.lacking, report, hbetween, hrerun, hrun,
      hfirst, hsecond, hlacking, tables.nodup_lacking, hfilled, hrest⟩
    rcases runAll_replicate htables (hpages.symm ▸ hcut) 0 0 with ⟨hrunning, hcount⟩
    rcases hcommitted.principals with ⟨done, hdone⟩
    have hfault := run_page_fault hdone hrunning error
    rw [hsession]
    refine ⟨congrArg (fun s => s.1.phase) hfault, ?_⟩
    exact (congrArg (fun s => s.1.report.pages) hfault).trans (hcount.trans (Nat.zero_add cut))
  · intro steps session ended hrunning hfinished
    -- The steps without the run leave the tables that one run at the end would fill.
    rcases registerAll_eq htables steps with ⟨whole, hregister, hnames⟩
    have hworks : (registerAll db steps).WorksOn session := worksOn_runAll hstart steps
    rcases backfill_of_finished hworks hrunning hfinished hskip with
      ⟨whole', final, hwhole, hfilled, hended, hrun⟩
    rw [hregister] at hwhole hended
    cases hwhole
    refine ⟨final, hended, hrun.trans ?_, fun principal hregistered => ?_⟩
    · rw [hregister]
      exact hended.symm
    · rcases Option.isSome_iff_exists.1 ((hnames principal).2 hregistered) with ⟨key, hkey⟩
      refine ⟨key, ?_, hfilled.count_eq_one (PrincipalTables.mem_keys_of_key? hkey)⟩
      rw [PrincipalTables.key?, hfilled.principals]
      exact hkey

/-- Three details are missing, and pages have two. A sixth principal comes
    between two pages, and an error cuts a run off after the first. -/
theorem backfill_among_steps_gappedRoster :
    let db : Database := ⟨some currentVersion, some [], some gappedRoster⟩
    let config : BackfillConfig := ⟨false, 2, by decide⟩
    let session := runAll (.start config, db) [page none, .register ⟨"6"⟩, page none]
    let failed := runAll (.start config, db) [page none, page (some .missingTable)]
    db.principals = some gappedRoster ∧ config.skip = false ∧
      session.1.phase = .running ∧ ((page none).run session).1.phase = .finished ∧
      (∃ (final : PrincipalTables) (key : Nat),
        ((page none).run session).2 = { db with principals := some final } ∧
        final.key? ⟨"6"⟩ = some key ∧ (Ordered.keys final.details).count key = 1) ∧
      failed.1.phase = .failed .missingTable ∧ failed.1.report = ⟨false, 1, 2⟩ ∧
      ∃ report : BackfillReport, report.inserted = 1 ∧
        failed.2.backfill config =
          (.ok (report, .backfill report.event), (db.backfill config).2) := by
  intro db config session failed
  have htables : db.principals = some gappedRoster := rfl
  have hrunning : session.1.phase = .running := by decide +kernel
  have hfinished : ((page none).run session).1.phase = .finished := by decide +kernel
  have hcut : failed.1.report = ⟨false, 1, 2⟩ := by decide +kernel
  rcases backfill_among_steps config htables rfl with ⟨pages, -, hinterrupted, hamong⟩
  rcases hamong _ hrunning hfinished with ⟨final, hended, -, hdetails⟩
  rcases hdetails ⟨"6"⟩ (Or.inr (by simp)) with ⟨key, hkey, hcount⟩
  rcases (hinterrupted config 1 .missingTable rfl).2 with
    ⟨between, whole, first, second, report, -, hrerun, hrun, -, -, hlacking, -, hfirst, hsecond⟩
  have hthree : first.length + second.length = 3 := by
    rw [← List.length_append, hlacking]
    decide
  have htwo : first.length = 2 := hfirst.symm.trans (congrArg BackfillReport.inserted hcut)
  refine ⟨htables, rfl, hrunning, hfinished, ⟨final, key, hended, hkey, hcount⟩, ?_, hcut, report,
    by omega, ?_⟩
  · decide +kernel
  · rw [hrun]
    exact hrerun

end Pages

end Database

end Fieldwork
