/-!
# Messages

Pieces that the messages of several modules share.

A message names a cause that this library decides in full. Where the cause is
that a text breaks the rules of a standard format (JSON, base64, a date, a
configuration file), or that the machine refuses a file, the place of the
reason is kept by `elided`: its wording belongs to whoever reads the format.

## Main definitions

* `elided`: Stands for a reason that is not worded here.
-/

namespace Fieldwork

/-- Stands in a message for a reason that is not worded here. -/
def elided : String := "<library>"

end Fieldwork
