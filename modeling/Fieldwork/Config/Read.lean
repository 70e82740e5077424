import Fieldwork.Config.Basic
import Fieldwork.Toml.Reader

/-!
# Reading Configurations

From a TOML table to a configuration.

A section is a table with some of its fields, or an array of its first fields
in their order; what follows in an array is passed over. A table has no key
that is not known. The file itself is always a table. A configuration that was
read is also checked.

## Main definitions

* `Toml.fields?`: The fields of a section.
* `StoreSection.ofToml?`, `BackfillSection.ofToml?`, `AuditSection.ofToml?`:
  The sections.
* `Config.parse`: The configuration of a text.
-/

namespace Fieldwork

namespace Toml

/-- The fields of a section. -/
def fields? (names : List String) : Toml → Option (List (String × Toml))
  | table entries => if entries.all fun entry => names.contains entry.1 then some entries else none
  | array items => some (names.zip items)
  | _ => none

/-- The name of a case of an enumeration: a string, or a table with the name
    as its only key and nothing under it. -/
def case? : Toml → Option String
  | string name => some name
  | table [(name, table [])] | table [(name, array [])] => some name
  | _ => none

/-- A field with a default. -/
def field? {α : Type} (fields : List (String × Toml)) (name : String) (default : α)
    (read : Toml → Option α) : Option α :=
  match fields.lookup name with
  | none => some default
  | some value => read value

/-- A path that is a text. -/
def path? (value : Toml) : Option (Option Path) :=
  value.string?.map fun text => some (.ofText text)

/-- An integer of a word of 64 bits. -/
def uint64? (value : Toml) : Option UInt64 :=
  value.integer?.bind fun n =>
    if 0 ≤ n && n < 0x10000000000000000 then some (UInt64.ofNat n.toNat) else none

/-- An integer of a word of 32 bits. -/
def uint32? (value : Toml) : Option UInt32 :=
  value.integer?.bind fun n =>
    if 0 ≤ n && n < 0x100000000 then some (UInt32.ofNat n.toNat) else none

end Toml

namespace StoreSection

/-- The names of the fields. -/
def fieldNames : List String := ["type", "path", "busy_timeout_ms", "journal_mode", "sync_mode"]

/-- The section that a value holds. -/
def ofToml? (value : Toml) : Option StoreSection :=
  (value.fields? fieldNames).bind fun fields => do
    let kind ← Toml.field? fields "type" default.kind fun v => v.case?.bind StoreKind.ofLabel?
    let path ← Toml.field? fields "path" default.path Toml.path?
    let busyTimeout ← Toml.field? fields "busy_timeout_ms" default.busyTimeout Toml.uint64?
    let journal ←
      Toml.field? fields "journal_mode" default.journal fun v => v.case?.bind JournalMode.ofLabel?
    let sync ← Toml.field? fields "sync_mode" default.sync fun v => v.case?.bind SyncMode.ofLabel?
    some ⟨kind, path, busyTimeout, journal, sync⟩

end StoreSection

namespace BackfillSection

/-- The section that a value holds. -/
def ofToml? (value : Toml) : Option BackfillSection :=
  (value.fields? BackfillConfig.fieldNames).bind fun fields => do
    let skip ← Toml.field? fields "skip_heavy_migrations" default.skip Toml.boolean?
    let pageSize ← Toml.field? fields "page_size" default.pageSize Toml.uint32?
    some ⟨skip, pageSize⟩

end BackfillSection

namespace AuditSection

/-- The names of the fields. -/
def fieldNames : List String := ["sink", "path"]

/-- The section that a value holds. -/
def ofToml? (value : Toml) : Option AuditSection :=
  (value.fields? fieldNames).bind fun fields => do
    let sink ← Toml.field? fields "sink" default.sink fun v => v.case?.bind SinkKind.ofLabel?
    let path ← Toml.field? fields "path" default.path Toml.path?
    some ⟨sink, path⟩

end AuditSection

namespace Config

/-- The names of the sections. -/
def sectionNames : List String := ["store", "backfill", "audit"]

/-- The configuration that a table holds. -/
def ofToml? (entries : List (String × Toml)) : Option Config :=
  ((Toml.table entries).fields? sectionNames).bind fun fields => do
    let store ← Toml.field? fields "store" StoreSection.default StoreSection.ofToml?
    let backfill ← Toml.field? fields "backfill" BackfillSection.default BackfillSection.ofToml?
    let audit ← Toml.field? fields "audit" AuditSection.default AuditSection.ofToml?
    some ⟨store, backfill, audit⟩

/-- The configuration of a text. -/
def parse (text : String) : Except ConfigError Config :=
  match (Toml.parse? text).bind ofToml? with
  | none => .error .malformed
  | some config =>
    match config.check with
    | .error fault => .error (.invalid fault)
    | .ok () => .ok config

end Config

end Fieldwork
