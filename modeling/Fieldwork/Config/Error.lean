import Fieldwork.Database.Error

/-!
# Configuration Errors

Why a configuration cannot be used.

A configuration that was read may still contradict itself or go beyond a
limit; such a fault names the field. The other errors have their reason
elsewhere: in the grammar of the file, in the machine, or in the database that
was to be opened.

## Main definitions

* `PathField`, `PathFault`: What is wrong with the path of a field.
* `ConfigFault`: What is wrong with a configuration.
* `ConfigError`: Why a configuration cannot be used.
-/

namespace Fieldwork

/-- The fields that hold a path. -/
inductive PathField where
  /-- The path of the database. -/
  | store
  /-- The path of the audit log. -/
  | audit
  deriving DecidableEq

/-- The name of a field. -/
def PathField.name : PathField → String
  | store => "store.path"
  | audit => "audit.path"

/-- What is wrong with a path. -/
inductive PathFault where
  /-- It is blank. -/
  | blank
  /-- It is too long. -/
  | length
  /-- A component is too long. -/
  | component
  deriving DecidableEq

/-- What is said about a path, behind the name of its field. -/
def PathFault.text : PathFault → String
  | blank => " must be non-empty"
  | length => " exceeds max length"
  | component => " path component too long"

/-- The most principals of a page that a configuration may ask for. -/
def pageSizeLimit : UInt32 := 1000000

/-- What is wrong with a configuration. -/
inductive ConfigFault where
  /-- A store in memory has a path. -/
  | memoryPath
  /-- A store in a database has none. -/
  | missingStorePath
  /-- A path cannot be used. -/
  | path (field : PathField) (fault : PathFault)
  /-- No time is left to wait. -/
  | zeroTimeout
  /-- A page has no room. -/
  | zeroPage
  /-- A page is too large. -/
  | largePage
  /-- A log in a file has no path. -/
  | missingAuditPath
  /-- A log that is in no file has a path. -/
  | strayAuditPath
  /-- The path of the configuration file is too long. -/
  | filePathLength
  /-- A component of that path is too long. -/
  | filePathComponent
  /-- The configuration file is too large. -/
  | fileSize
  /-- The configuration file is no text. -/
  | fileEncoding
  deriving DecidableEq

/-- The wording of a fault. -/
def ConfigFault.reason : ConfigFault → String
  | memoryPath => "memory store must not set path"
  | missingStorePath => "sqlite store requires path"
  | path field fault => field.name ++ fault.text
  | zeroTimeout => "store.busy_timeout_ms must be greater than zero"
  | zeroPage => "backfill.page_size must be greater than zero"
  | largePage => "backfill.page_size exceeds max " ++ toString pageSizeLimit.toNat
  | missingAuditPath => "file audit sink requires path"
  | strayAuditPath => "audit.path is only valid for the file sink"
  | filePathLength => "config path exceeds max length"
  | filePathComponent => "config path component too long"
  | fileSize => "config file exceeds size limit"
  | fileEncoding => "config file must be utf-8"

/-- Why a configuration cannot be used. -/
inductive ConfigError where
  /-- The machine refused a file. -/
  | machine
  /-- The database could not be opened. -/
  | database (error : DatabaseError)
  /-- The file breaks the grammar, or holds what no configuration has. -/
  | malformed
  /-- The configuration is at fault. -/
  | invalid (fault : ConfigFault)
  deriving DecidableEq

/-- The wording of an error. -/
def ConfigError.message : ConfigError → String
  | machine => "config io error: " ++ elided
  | database error => "config io error: " ++ error.message
  | malformed => "config parse error: " ++ elided
  | invalid fault => "invalid config: " ++ fault.reason

end Fieldwork
