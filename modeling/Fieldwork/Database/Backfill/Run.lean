import Fieldwork.Database.Backfill.Config
import Fieldwork.Database.Backfill.Page
import Fieldwork.Database.Roster

/-!
# Detail Backfill

Gives every principal that has none a blank detail.

Principals were registered before there were details. The backfill goes
through those without one in the order of their keys, a page at a time; each
page is a transaction of its own, so others can write between two pages, and a
run that is cut off keeps the pages it has done. It ends at the first page
that has no key. The one event of a run is written when it has ended; a run
that fails leaves none.

## Main definitions

* `PrincipalTables.fillFrom`: All pages.
* `Database.backfill`: The run, with its report and its event.
-/

namespace Fieldwork

namespace PrincipalTables

/-- All pages beyond a key, up to the first that has none. -/
def fillFrom (size last : Nat) (tables : PrincipalTables) : BackfillReport × PrincipalTables :=
  match _h : fillPage size last tables with
  | ((none, _), after) => (⟨false, 0, 0⟩, after)
  | ((some key, made), after) =>
    let (report, final) := fillFrom size key after
    (⟨false, report.pages + 1, report.inserted + made⟩, final)
termination_by (tables.pending last).length
decreasing_by exact pending_fillPage_lt _h

end PrincipalTables

namespace Database

/-- A backfill, with the event that it leaves unless it fails. -/
def backfill (config : BackfillConfig) (db : Database) :
    Except DatabaseError (BackfillReport × AuditEvent) × Database :=
  if config.skip then
    let report : BackfillReport := ⟨true, 0, 0⟩
    (.ok (report, .backfill report.event), db)
  else
    match db.principalTables with
    | .error error => (.error error, db)
    | .ok tables =>
      let (report, tables) := tables.fillFrom config.pageSize.toNat 0
      (.ok (report, .backfill report.event), { db with principals := some tables })

end Database

end Fieldwork
