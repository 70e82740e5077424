import Fieldwork.Document.Basic
import Fieldwork.Proofs.Json.Nesting
import Fieldwork.Proofs.Json.NumberText
import Fieldwork.Proofs.Ordered

/-!
# Values after Reading

What becomes of a value whose text is read.

Only a number can come back as another one, and always as some number. So the
value that is read has the shape of the value that was written: the same keys
in the same order, and other numbers at most. A merge does not look at numbers,
which is why it makes no difference whether documents are merged and then read
or read and then merged (`Document.reread_merge`).

## Main definitions

* `Json.reread`: The value that the text of a value is read as.
* `Document.reread`: The document that the text of a document is read as.

## Theorems

* `rereadMembers_eq`: Each member keeps its key.
* `reread_merge`: Reading goes through a merge.
-/

namespace Fieldwork

namespace Json

mutual

/-- The value that the compact text of a value is read as. -/
def reread : Json → Json
  | null => null
  | bool value => bool value
  | number value => number value.reread
  | string value => string value
  | array items => array (rereadItems items)
  | object members => object (rereadMembers members)

/-- The values that the texts of a list of values are read as. -/
def rereadItems : List Json → List Json
  | [] => []
  | item :: rest => item.reread :: rereadItems rest

/-- The members that the texts of a list of members are read as. -/
def rereadMembers : List (String × Json) → List (String × Json)
  | [] => []
  | (key, value) :: rest => (key, value.reread) :: rereadMembers rest

end

theorem rereadMembers_eq (members : List (String × Json)) :
    rereadMembers members = Ordered.mapValues reread members := by
  induction members with
  | nil => rfl
  | cons entry rest ih =>
    rw [rereadMembers, ih]
    rfl

theorem rereadItems_eq_self {items : List Json} (h : ∀ item ∈ items, item.reread = item) :
    rereadItems items = items := by
  induction items with
  | nil => rfl
  | cons item rest ih =>
    rcases List.forall_mem_cons.1 h with ⟨hitem, hrest⟩
    rw [rereadItems, hitem, ih hrest]

theorem rereadMembers_eq_self {members : List (String × Json)}
    (h : ∀ entry ∈ members, entry.2.reread = entry.2) : rereadMembers members = members := by
  induction members with
  | nil => rfl
  | cons entry rest ih =>
    rcases List.forall_mem_cons.1 h with ⟨hentry, hrest⟩
    rw [rereadMembers, hentry, ih hrest]

theorem distinct_rereadMembers {members : List (String × Json)} (h : Ordered.Distinct members) :
    Ordered.Distinct (rereadMembers members) := by
  rw [rereadMembers_eq]
  exact Ordered.distinct_mapValues reread h

end Json

namespace Document

/-- The document that the compact text of a document is read as. -/
def reread (document : Document) : Document :=
  ⟨Json.rereadMembers document.fields, Json.distinct_rereadMembers document.distinct⟩

theorem toJson_reread (document : Document) : document.reread.toJson = document.toJson.reread := by
  rw [toJson, toJson, Json.reread]
  rfl

/-- Reading goes through a merge. -/
theorem reread_merge (document updates : Document) :
    (document.merge updates).reread = document.reread.merge updates.reread := by
  refine Document.ext ?_
  simp only [reread, merge, Json.rereadMembers_eq]
  exact Ordered.mapValues_merge Json.reread document.fields updates.fields

end Document

end Fieldwork
