import Fieldwork.Store.Basic

/-!
# Rows in Memory

The plainest row store: a map from assets to rows.

It never fails. It is also the measure of the others, because here a merge is
the merge of documents and nothing else.

## Main definitions

* `MemoryStore`: Rows under assets.
* `MemoryStore.calls`: Its calls.

## Theorems

* `find?_update`: A write changes one row and no other.
-/

namespace Fieldwork

/-- Rows under assets. -/
@[ext]
structure MemoryStore where
  /-- The rows. -/
  rows : List (AssetId × Row)

namespace MemoryStore

/-- The store without rows. -/
def empty : MemoryStore :=
  ⟨[]⟩

instance : Inhabited MemoryStore := ⟨empty⟩

/-- The row of an asset. -/
def find? (store : MemoryStore) (asset : AssetId) : Option Row :=
  store.rows.lookup asset

/-- Makes an empty row unless there is one. -/
def create (asset : AssetId) (store : MemoryStore) : MemoryStore :=
  match store.find? asset with
  | some _ => store
  | none => ⟨Ordered.insert asset Row.blank store.rows⟩

/-- Changes the document of a row, if there is one, and stamps the row. -/
def update (asset : AssetId) (change : Document → Document) (now : Stamp) (store : MemoryStore) :
    Receipt × MemoryStore :=
  match store.find? asset with
  | none => (⟨now, 0⟩, store)
  | some row =>
    let stamp := nextStamp row.stamp now
    (⟨stamp, 1⟩, ⟨Ordered.insert asset ⟨change row.document, some stamp⟩ store.rows⟩)

/-- Takes a row out, and says whether there was one. -/
def delete (asset : AssetId) (store : MemoryStore) : Bool × MemoryStore :=
  ((store.find? asset).isSome, ⟨Ordered.erase asset store.rows⟩)

/-- The calls of the store, none of which fails. -/
def calls : RowStore MemoryStore where
  create asset store := (.ok (), store.create asset)
  load asset store := (.ok (store.find? asset), store)
  merge asset updates now store :=
    let (receipt, store) := store.update asset (·.merge updates) now
    (.ok receipt, store)
  clear asset now store :=
    let (receipt, store) := store.update asset Document.clear now
    (.ok receipt, store)
  delete asset store :=
    let (existed, store) := store.delete asset
    (.ok existed, store)

/-- A write changes one row and no other. -/
theorem find?_update {asset other : AssetId} (h : other ≠ asset) (change : Document → Document)
    (now : Stamp) (store : MemoryStore) :
    (store.update asset change now).2.find? other = store.find? other := by
  simp only [update]
  split
  · rfl
  · simp [find?, Ordered.lookup_insert, h]

end MemoryStore

end Fieldwork
