import Fieldwork.Config.Read

/-!
# Loading Configurations

From a file on a disk to a configuration.

The path is given, or taken from the environment, where it has to be a text, or
it is a fixed name in the current directory. Its limits are checked before the
disk is asked, and the size of the file before its text is looked at. A file
that is not UTF-8 is no text.

## Main definitions

* `ConfigSource`: Where the path comes from.
* `Config.load`: The configuration of a file.
-/

namespace Fieldwork

/-- Where the path of a configuration comes from. -/
inductive ConfigSource where
  /-- It is given. -/
  | given (path : Path)
  /-- It is in the environment. -/
  | environment (path : String)
  /-- There is none. -/
  | unspecified
  deriving DecidableEq

namespace ConfigSource

/-- The name of the file in the current directory. -/
def defaultName : String := "survey-deploy.toml"

/-- The variable of the environment that holds the path. -/
def variableName : String := "SURVEY_DEPLOY_CONFIG"

/-- The path, unless it is beyond a limit. -/
def path (source : ConfigSource) : Except ConfigFault Path :=
  let path := match source with
    | given path => path
    | environment path => .ofText path
    | unspecified => .ofText defaultName
  if path.isTooLong then .error .filePathLength
  else if path.hasLongComponent then .error .filePathComponent
  else .ok path

end ConfigSource

namespace Config

/-- The most bytes of a configuration file. -/
def fileSizeLimit : Nat := 1024 * 1024

/-- The configuration of the bytes of a file. -/
def ofBytes (bytes : ByteArray) : Except ConfigError Config :=
  if fileSizeLimit < bytes.size then .error (.invalid .fileSize)
  else match String.fromUTF8? bytes with
    | none => .error (.invalid .fileEncoding)
    | some text => parse text

/-- The configuration of a file. -/
def load (source : ConfigSource) (disk : Disk) : Except ConfigError Config :=
  match source.path with
  | .error fault => .error (.invalid fault)
  | .ok path =>
    -- The whole file is read before its size is looked at.
    match disk.read? path with
    | none => .error .machine
    | some bytes => ofBytes bytes

end Config

end Fieldwork
