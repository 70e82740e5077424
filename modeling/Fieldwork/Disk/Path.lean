import Fieldwork.Text.Utf8

/-!
# Paths

How a path is written.

A path is bytes, which need not be a text. It has components with slashes
between them. Empty components vanish, and so do single points, except at the
start of a relative path. A leading slash is a component of its own.

There is a limit for the whole and for each component. What is measured is not
the path but the text that is shown for it, which may be longer where the path
is no text.

## Main definitions

* `Path`, `Path.ofText`: Paths, and those that are texts.
* `Path.components`: The components of a path.
* `Path.text`: The text that is shown for a path.
* `Path.isTooLong`, `Path.hasLongComponent`: Beyond the limits.
-/

namespace Fieldwork

/-- A path. -/
structure Path where
  /-- Its bytes. -/
  bytes : List UInt8
  deriving DecidableEq

/-- The name of a file or a directory. -/
abbrev FileName := List UInt8

namespace Path

/-- The path that is a text. -/
def ofText (text : String) : Path :=
  ⟨bytesOf text⟩

/-- The byte between components. -/
def slash : UInt8 := 0x2F

/-- The pieces of bytes between slashes; `piece` is what the first one has so
    far, last first. -/
def piecesFrom (piece : FileName) : List UInt8 → List FileName
  | [] => [piece.reverse]
  | byte :: rest =>
    if byte = slash then piece.reverse :: piecesFrom [] rest else piecesFrom (byte :: piece) rest

/-- The pieces of a path between slashes. -/
def pieces (path : Path) : List FileName :=
  piecesFrom [] path.bytes

/-- Whether a path starts at the root. -/
def isAbsolute (path : Path) : Bool :=
  path.bytes.head? = some slash

/-- The component for the root. -/
def root : FileName := bytesOf "/"

/-- The component for the directory itself. -/
def here : FileName := bytesOf "."

/-- The component for the directory above. -/
def above : FileName := bytesOf ".."

/-- The components of a path. -/
def components (path : Path) : List FileName :=
  let names := path.pieces.filter fun piece => piece != [] && piece != here
  if path.isAbsolute then root :: names
  else if path.pieces.head? = some here then here :: names
  else names

/-- The text that is shown for a path. -/
def text (path : Path) : String :=
  shownText path.bytes

/-- The most bytes of the text of a path. -/
def lengthLimit : Nat := 4096

/-- The most bytes of the text of a component. -/
def componentLimit : Nat := 255

/-- Whether the text of a path has too many bytes. -/
def isTooLong (path : Path) : Bool :=
  lengthLimit < path.text.utf8ByteSize

/-- Whether the text of a component of a path has too many bytes. -/
def hasLongComponent (path : Path) : Bool :=
  path.components.any fun component => componentLimit < (shownText component).utf8ByteSize

end Path

end Fieldwork
