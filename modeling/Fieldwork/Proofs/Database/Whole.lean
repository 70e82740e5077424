import Fieldwork.Proofs.Database.Views

/-!
# Merges Are Whole

A merge into a database does all of what it is asked, or nothing.

A merge becomes several statements, and each of them may fail or find no row.
It is checked key by key before the first statement, it ends early without a
row, and it fails at any of the statements. None of this can be seen. On a row
that is there the statements edit the text one after the other, and what the
table gets is the last text, under one stamp. A failure at any place leaves
nothing behind, and without a row there is nothing to leave.

What the text was does not matter for that. For what becomes of its members
it does. If it is an object in which the keys of the updates cannot be taken
for others, then each key has its new value, and a name that is not among them
has its old value in its old place. If a name comes twice, the engine sets the
first member and a reader takes the last, so the update is there and is not
seen. And where it is seen, its numbers are those that a reader finds in the
text.

## Main definitions

* `Written.Named`, `Written.Updated`: Members in which keys have been set.

## Theorems

* `updated_setAll`: Setting members updates an object.
* `rewriteAll_ne_ok`: A text that is not read stops a merge.
* `merge_eq_error`: Reasons for a merge to fail.
* `merge_of_twiceNamed`: An update that is not seen.
* `merge_whole`: All of it or nothing.
-/

namespace Fieldwork

namespace Written

/-- Whether a reader finds a key among the spellings. -/
def Named (spellings : List String) (key : String) : Prop :=
  ∃ spelling ∈ spellings, unquote? spelling = some key

instance (spellings : List String) (key : String) : Decidable (Named spellings key) :=
  inferInstanceAs (Decidable (∃ spelling ∈ spellings, unquote? spelling = some key))

/-- Members in which the keys of updates have been set. -/
structure Updated (members : List (String × Written)) (updates : List (String × Json))
    (after : List (String × Written)) : Prop where
  /-- The names are in their places, and the new keys come last. -/
  names : Ordered.keys after = Ordered.keys members ++
    (Ordered.keys updates).filter fun key => ¬ Named (Ordered.keys members) key
  /-- Each key has its new value, and has it once. -/
  set : ∀ entry ∈ updates, valuesOf entry.1 after = [entry.2.toWritten]
  /-- Every other member is as it was, and where it was. -/
  kept : ∀ (i : Nat) (entry : String × Written), members[i]? = some entry →
    (∀ key ∈ Ordered.keys updates, unquote? entry.1 ≠ some key) → after[i]? = some entry

/-- The engine finds a key just where a reader does. -/
theorem finds_iff {spellings : List String} {key : String} (hkey : MemberPath.Quotable key)
    (h : Singular spellings key) : Finds spellings key ↔ Named spellings key := by
  constructor
  · rintro ⟨spelling, hmem, hfound⟩
    exact ⟨spelling, hmem, h.whole spelling hmem hfound⟩
  · rintro ⟨spelling, hmem, hname⟩
    exact ⟨spelling, hmem, keyOf?_of_unquote?_of_quotable hkey hname⟩

/-- Setting members updates an object. -/
theorem updated_setAll {members : List (String × Written)} {updates : List (String × Json)}
    (h : Settable members updates) : Updated members updates (setAll members updates) where
  names := by
    rw [keys_setAll h]
    refine congrArg _ (List.filter_congr fun key hkey => ?_)
    rcases List.mem_map.1 hkey with ⟨entry, hentry, rfl⟩
    simp only [finds_iff (h.quotable entry hentry) (h.singular entry hentry)]
  set entry hentry := valuesOf_setAll h hentry
  kept _ _ hentry hkeys := getElem?_setAll h hentry hkeys

end Written

namespace MergeStatement

/-- A text that the engine cannot read stops the statement that sets the first
    keys. -/
theorem rewriteAll_ne_ok {stamp : Stamp} {asset : AssetId} {groups : List (List (String × Json))}
    {row after : StoredRow} (hgroups : groups.flatten ≠ [])
    (h : StoredText.read? row.text = none) :
    rewriteAll stamp asset (groups.map ofGroup) row ≠ .ok after := by
  induction groups generalizing row with
  | nil => exact absurd rfl hgroups
  | cons group rest ih =>
    intro hall
    rw [List.map_cons, rewriteAll_cons] at hall
    rcases hfirst : rewriteBound stamp asset row (ofGroup group) with error | middle
    · rw [hfirst] at hall
      cases hall
    · rw [hfirst] at hall
      rcases exists_text_of_rewriteBound hfirst with ⟨text, htext, rfl⟩
      rcases group with _ | ⟨entry, others⟩
      · -- A statement that sets nothing does not read the text.
        cases htext
        have hsame : StoredText.read? (StoredRow.mk row.text (some stamp)).text = none := h
        exact ih hgroups hsame hall
      · have hread : (ofGroup (entry :: others)).edit? row.text = none := by
          rw [edit?, h]
          rfl
        cases hread.symm.trans htext

end MergeStatement

namespace Database

section Merge

variable {db : Database} {asset : AssetId} {updates : Document} {now : Stamp}

/-- A reason for a merge to fail, wherever in the updates it is. -/
theorem merge_eq_error
    (h : (∃ entry ∈ updates.fields, ¬ MemberPath.Quotable entry.1) ∨
      updateLimit < MergeStatement.encodedSize updates.fields ∨
      updates.fields ≠ [] ∧ ∃ row, db.stored? asset = some row ∧
        StoredText.read? row.text = none) :
    ∃ error, calls.merge asset updates now db = (.error error, db) := by
  -- Each of the three would contradict what an answer says.
  rcases hmerge : db.merge asset updates now with error | ⟨receipt, after⟩
  · exact ⟨error.toStoreError, call_error hmerge⟩
  exfalso
  rcases merge_eq_ok hmerge with
    ⟨hkeys, hsize, assets, group, groups, hassets, hflatten, -, hdone⟩
  rcases h with ⟨entry, hentry, hkey⟩ | hlarge | ⟨hsome, row, hrow, hread⟩
  · exact hkey (hkeys entry hentry)
  · exact absurd hsize (Nat.not_le.2 hlarge)
  · rw [stored?, hassets, Option.bind_some] at hrow
    rcases hdone with ⟨hnone, -⟩ | ⟨found, rewritten, hfound, -, hall, -⟩
    · cases hnone.symm.trans hrow
    · cases hfound.symm.trans hrow
      rw [← hflatten] at hsome
      exact MergeStatement.rewriteAll_ne_ok hsome hread hall

/-- An object that names a key twice, and an update of this key. The first
    member is set, a reader takes the last, and so the update is not seen. -/
theorem merge_of_twiceNamed :
    let asset : AssetId := ⟨"a"⟩
    let updates : Document := .single "a" (.ofUInt64 3)
    let before : StoredRow := ⟨"\x7b\"a\":1,\"a\":2\x7d", none⟩
    let after : Database :=
      ⟨some currentVersion, some [(asset, ⟨"\x7b\"a\":3,\"a\":2\x7d", some 5⟩)], some .empty⟩
    (∃ members, Written.read? before.text.toList = some (.object members)) ∧
      calls.merge asset updates 5 ⟨some currentVersion, some [(asset, before)], some .empty⟩ =
        (.ok ⟨5, 1⟩, after) ∧
      after.load asset = .ok (some ⟨.single "a" (.ofUInt64 2), some 5⟩) ∧
      (Document.single "a" (.ofUInt64 2)).fields.lookup "a" ≠ updates.fields.lookup "a" := by
  intro asset updates before after
  refine ⟨⟨[("a", .number "1"), ("a", .number "2")], by decide +kernel⟩, by decide +kernel,
    by decide +kernel, ?_⟩
  simp [updates, Document.single, Json.ofUInt64, Word.ofUInt64]

/-- A merge takes effect as a whole or not at all, for every database, whatever
    is stored in it.

    A merge that fails changes nothing, and it does fail if a key cannot be
    quoted, the values are too large together, or the stored text is not read.
    Otherwise it counts one row or none, and one just if there was one. Without
    a row it changes nothing. With one it puts another text under its stamp into
    the row, and changes no other row and no other table. If the text was that
    of an object in which no key of the updates can be taken for another, then
    these keys are set in it and the other members are as they were; and if it
    was read as a document, the updates are merged into that, with the numbers
    that a reader finds. -/
theorem merge_whole (db : Database) (asset : AssetId) (updates : Document) (now : Stamp) :
    (∀ error after, calls.merge asset updates now db = (.error error, after) → after = db) ∧
      ((∃ entry ∈ updates.fields, ¬ MemberPath.Quotable entry.1) ∨
          updateLimit < MergeStatement.encodedSize updates.fields ∨
          (updates.fields ≠ [] ∧ ∃ row, db.stored? asset = some row ∧
            StoredText.read? row.text = none) →
        ∃ error, calls.merge asset updates now db = (.error error, db)) ∧
      ∀ receipt after, calls.merge asset updates now db = (.ok receipt, after) →
        receipt.rows = (if (db.stored? asset).isSome then 1 else 0) ∧
        (receipt.rows = 0 → after = db) ∧
        (receipt.rows = 1 → ∃ assets row text,
          db.assets = some assets ∧ assets.lookup asset = some row ∧
          after = { db with
            assets := some (Ordered.insert asset ⟨text, some receipt.stamp⟩ assets) } ∧
          ∀ members, Written.read? row.text.toList = some (.object members) →
            (∀ key ∈ Ordered.keys updates.fields,
              Written.Singular (Ordered.keys members) key) →
            (∃ set, Written.read? text.toList = some (.object set) ∧
              Written.Updated members updates.fields set) ∧
            ∀ document, StoredText.document row.text = .ok document →
              updates.toJson.DistinctKeys → updates.toJson.depth ≤ Json.depthLimit →
              StoredText.document text = .ok (document.merge updates.reread)) := by
  refine ⟨fun error after h => eq_of_call_eq_error h, merge_eq_error, fun receipt after h => ?_⟩
  rcases merge_eq_ok (call_eq_ok_iff.1 h) with
    ⟨hkeys, -, assets, group, groups, hassets, hflatten, -, hdone⟩
  rw [stored?, hassets, Option.bind_some]
  rcases hdone with ⟨hlookup, hrows, hafter⟩ | ⟨row, rewritten, hlookup, hrows, hall, hafter⟩
  · rw [hlookup, hrows]
    exact ⟨rfl, fun _ => hafter, fun hone => absurd hone (by decide)⟩
  · rw [hlookup, hrows]
    refine ⟨rfl, fun hzero => absurd hzero (by decide), fun _ => ?_⟩
    rcases MergeStatement.exists_text_of_rewriteAll hall with ⟨text, rfl⟩
    refine ⟨assets, row, text, rfl, hlookup, hafter, fun members hmembers hsingular => ?_⟩
    -- No key of the updates is ambiguous, so setting them is what a reader sees.
    have hsettable : Written.Settable members updates.fields :=
      ⟨hkeys, updates.distinct, fun entry hentry =>
        hsingular entry.1 (List.mem_map_of_mem hentry)⟩
    have htext := MergeStatement.eq_of_rewriteAll (hflatten ▸ hkeys) hmembers hall
    rw [hflatten] at htext
    cases htext
    have hset := StoredText.read?_edited hkeys hmembers
    refine ⟨⟨_, hset, Written.updated_setAll hsettable⟩, fun document hdocument hd hdepth => ?_⟩
    rw [StoredText.document_eq_ok_iff] at hdocument ⊢
    exact StoredText.value?_of_setAll hmembers hsettable hset hd hdepth hdocument

/-- A row that another program has written, with blanks and with a number that
    no document is spelled with, and a merge with a clock that is behind. -/
theorem merge_whole_foreignRow :
    let asset : AssetId := ⟨"a"⟩
    let row : StoredRow := ⟨"\x7b \"a\": 1, \"b\": [2.50] \x7d", some 9⟩
    let db : Database := ⟨some currentVersion, some [(asset, row)], some .empty⟩
    let updates : Document := .ofList [("a", .bool true), ("c", .null)]
    let refused : Document := .ofList [("c", .null), ("\"", .null)]
    (∃ error, calls.merge asset refused 5 db = (.error error, db)) ∧
      ∃ text set, calls.merge asset updates 5 db =
          (.ok ⟨9, 1⟩, { db with assets := some [(asset, ⟨text, some 9⟩)] }) ∧
        Written.read? text.toList = some (.object set) ∧
        Ordered.keys set = ["a", "b", "c"] ∧
        Written.valuesOf "a" set = [.bool true] ∧
        set[1]? = some ("b", .array [.number "2.50"]) := by
  intro asset row db updates refused
  have hread : Written.read? row.text.toList =
      some (.object [("a", .number "1"), ("b", .array [.number "2.50"])]) := by
    decide +kernel
  have hmerge : ∃ text, calls.merge asset updates 5 db =
      (.ok ⟨9, 1⟩, { db with assets := some [(asset, ⟨text, some 9⟩)] }) :=
    ⟨"\x7b\"a\":true,\"b\":[2.50],\"c\":null\x7d", by decide +kernel⟩
  have hsingular : ∀ key ∈ Ordered.keys updates.fields, Written.Singular ["a", "b"] key := by
    decide
  have hrefused : ("\"", Json.null) ∈ refused.fields :=
    List.mem_cons_of_mem _ (List.mem_singleton_self _)
  refine ⟨(merge_whole db asset refused 5).2.1 (Or.inl ⟨_, hrefused, by decide⟩), ?_⟩
  rcases hmerge with ⟨text, hmerge⟩
  rcases (merge_whole db asset updates 5).2.2 _ _ hmerge with ⟨-, -, hone⟩
  rcases hone rfl with ⟨assets, found, other, hassets, hfound, hafter, hmembers⟩
  cases hassets
  cases hfound
  cases hafter
  rcases hmembers _ hread hsingular with ⟨⟨set, hset, hupdated⟩, -⟩
  refine ⟨_, set, hmerge, hset, hupdated.names.trans (by decide), ?_, ?_⟩
  · exact hupdated.set ("a", .bool true) List.mem_cons_self
  · exact hupdated.kept 1 _ rfl (by decide)

end Merge

end Database

end Fieldwork
