import Fieldwork.Database.Placeholder
import Fieldwork.Proofs.Database.Members

/-!
# Chunks Do Not Show

A merge is cut into statements, and nobody can tell where.

The engine takes only so many arguments, so a merge of many keys becomes
several statements. Every pair is in one of them, in its place, and no
statement but that of an empty merge is without pairs. On a row they are
executed one after the other, and each reads what the one before has written.
What is left in the row is one text all the same, and it does not depend on the
cuts: it is the text of the stored object with all pairs set, also if there had
been one statement only.

A reader finds the document in it that a merge of documents makes, in the same
order of keys and with the numbers as a reader finds them, if no key of the
updates can be taken for another in the stored object. If one can, the engine
sets a member that is not the one that a reader finds under the key.

The engine refuses a statement, and then the merge as a whole, beyond a limit on
the depth and one on the size. The depth is that of the object and of the
updates, and the cuts are not in it. But every statement writes a row, and one
on the way may be too large where the last is not, so this is the one place
where the cuts can show.

## Main definitions

* `MergeStatement.Grouped`: The pairs of a merge in groups.
* `MergeStatement.Leaves`: What statements leave in a row.
* `MergeStatement.ActsAsMerge`: A merge that does to a text what it does to a
  document.

## Theorems

* `grouped_groupsOf`: A merge is cut into groups of one to `chunkKeys` pairs.
* `leaves_edited`: The same text is left, wherever the pairs were cut.
* `merge_in_chunks`: All of it.
* `edit?_of_deep`: A value that nests too deep is never set.
* `executeAll_unlike_merge`: Merges that do not act as such.
-/

namespace Fieldwork

namespace MergeStatement

/-- The pairs of a merge in groups: all of them in order, with at least one and
    at most `chunkKeys` in a group. Without pairs there is one group of none. -/
structure Grouped (fields : List (String × Json)) (groups : List (List (String × Json))) :
    Prop where
  /-- Together the groups are the pairs. -/
  flatten : groups.flatten = fields
  /-- How many pairs a group has. -/
  bounds : fields ≠ [] → ∀ group ∈ groups, 0 < group.length ∧ group.length ≤ chunkKeys
  /-- The group of an empty merge. -/
  blank : fields = [] → groups = [[]]

/-- A merge is cut into such groups. -/
theorem grouped_groupsOf (fields : List (String × Json)) : Grouped fields (groupsOf fields) := by
  refine ⟨flatten_groupsOf fields, fun hfields group hgroup => ?_, fun hfields => ?_⟩
  · rw [groupsOf, if_neg (by simpa using hfields)] at hgroup
    exact ⟨length_pos_of_mem_chunks hgroup, length_le_of_mem_chunks (by decide) hgroup⟩
  · rw [hfields]
    rfl

variable {stamp : Stamp} {asset : AssetId} {assets : AssetTable} {row : StoredRow}
  {members : List (String × Written)}

/-- Statements for groups of pairs leave a text in the row of an asset, under
    their stamp. Or they fail, but only if the object that was stored or one of
    the updates nests deeper than the engine goes, or if a text that is bound or
    a row on the way is larger than the engine takes. -/
def Leaves (stamp : Stamp) (asset : AssetId) (assets : AssetTable) (row : StoredRow)
    (members : List (String × Written)) (updates : Document)
    (groups : List (List (String × Json))) (text : String) : Prop :=
  executeAll stamp asset 0 (groups.map ofGroup) assets =
      .ok (1, Ordered.insert asset ⟨text, some stamp⟩ assets) ∨
    executeAll stamp asset 0 (groups.map ofGroup) assets = .error .malformedJson ∧
      ¬ ((Written.object members).depth ≤ StoredText.depthLimit ∧ Shallow updates.fields) ∨
    executeAll stamp asset 0 (groups.map ofGroup) assets = .error .tooBig ∧
      Overlong stamp asset row.text members groups

/-- The same text is left, wherever the pairs were cut. -/
theorem leaves_edited {updates : Document}
    (hkeys : ∀ entry ∈ updates.fields, MemberPath.Quotable entry.1)
    (hrow : assets.lookup asset = some row)
    (htext : Written.read? row.text.toList = some (.object members))
    {group : List (String × Json)} {groups : List (List (String × Json))}
    (hflatten : (group :: groups).flatten = updates.fields) :
    Leaves stamp asset assets row members updates (group :: groups)
      (StoredText.edited row.text members updates.fields) := by
  have hall := rewriteAll_object stamp asset (hflatten ▸ hkeys) htext
  rw [hflatten] at hall
  rw [Leaves, List.map_cons, executeAll_eq 0 _ _ hrow, ← List.map_cons]
  -- What the cut is does not show, because the text that is left speaks of the
  -- whole only.
  rcases hall with hall | ⟨hall, hdeep⟩ | ⟨hall, hlong⟩
  · rw [hall]
    exact Or.inl rfl
  · rw [hall]
    exact Or.inr (Or.inl ⟨rfl, hdeep⟩)
  · rw [hall]
    exact Or.inr (Or.inr ⟨rfl, hlong⟩)

/-- The statements of a merge do to a stored text what the merge does to the
    document that the text is read as. -/
def ActsAsMerge (updates : Document) (text : String) : Prop :=
  ∀ statements document, batch updates = .ok statements → StoredText.document text = .ok document →
    ∀ stamp asset, ∃ after,
      executeAll stamp asset 0 statements [(asset, ⟨text, none⟩)] =
          .ok (1, [(asset, ⟨after, some stamp⟩)]) ∧
        StoredText.document after = .ok (document.merge updates)

/-- They do not if a reader finds another document afterwards. -/
theorem not_actsAsMerge_of_read {updates before read : Document} {text after : String}
    {statements : List MergeStatement} (hbatch : batch updates = .ok statements)
    (hbefore : StoredText.document text = .ok before)
    (hrun : executeAll 0 ⟨"a"⟩ 0 statements [(⟨"a"⟩, ⟨text, none⟩)] =
      .ok (1, [(⟨"a"⟩, ⟨after, some 0⟩)]))
    (hread : StoredText.document after = .ok read)
    (hne : read.fields ≠ Ordered.merge before.fields updates.fields) :
    ¬ ActsAsMerge updates text := by
  intro h
  rcases h statements before hbatch hbefore 0 ⟨"a"⟩ with ⟨other, hother, hmerged⟩
  cases hrun.symm.trans hother
  exact hne (congrArg Document.fields (Except.ok.inj (hread.symm.trans hmerged)))

/-- A statement fails on any text if its one value nests deeper than the engine
    goes. -/
theorem edit?_of_deep {key : String} {value : Json} (hkey : MemberPath.Quotable key)
    (hdeep : StoredText.depthLimit < value.depth) (text : String) :
    (ofGroup [(key, value)]).edit? text = none := by
  have hset : ∀ tree, setPair tree (pairOf (key, value)) = none := fun tree =>
    (setPair_eq hkey tree).trans (if_neg (Nat.not_le_of_lt hdeep))
  have hpairs : (ofGroup [(key, value)]).pairs.isEmpty = false := rfl
  rw [edit?, hpairs, if_neg Bool.false_ne_true, ofGroup, List.map_cons, List.map_nil]
  -- Whether the text is read or not, the statement is refused.
  rcases StoredText.read? text with _ | tree
  · rfl
  · rw [Option.bind_some, List.foldlM_cons, hset]
    rfl

/-- So a merge of that value does not act so. -/
theorem not_actsAsMerge_of_deep {key : String} {value : Json} (hkey : MemberPath.Quotable key)
    (hsize : value.compact.utf8ByteSize ≤ updateLimit)
    (hdeep : StoredText.depthLimit < value.depth) {text : String} {before : Document}
    (hbefore : StoredText.document text = .ok before) : ¬ ActsAsMerge (.single key value) text := by
  intro h
  have hkeys : ∀ entry ∈ (Document.single key value).fields, MemberPath.Quotable entry.1 :=
    List.forall_mem_singleton.2 hkey
  rcases batch_of_size_le hkeys hsize with ⟨statements, hbatch⟩
  rcases h statements before hbatch hbefore 0 ⟨"a"⟩ with ⟨after, hrun, -⟩
  rcases groups_of_batch hbatch with ⟨-, rfl⟩
  -- There is a single statement, and it sets the one value that is too deep.
  have hgroups : groupsOf (Document.single key value).fields = [[(key, value)]] := by
    rw [Document.single, groupsOf, List.isEmpty_cons, if_neg Bool.false_ne_true, chunks,
      List.take_nil, List.drop_nil, chunks]
  have hrow : List.lookup (⟨"a"⟩ : AssetId) [(⟨"a"⟩, (⟨text, none⟩ : StoredRow))] =
      some ⟨text, none⟩ :=
    List.lookup_cons_self
  rw [hgroups, List.map_singleton, executeAll_eq 0 _ [] hrow, rewriteAll_cons] at hrun
  rcases hfirst : rewriteBound 0 ⟨"a"⟩ ⟨text, none⟩ (ofGroup [(key, value)]) with error | middle
  · rw [hfirst] at hrun
    cases hrun
  · rcases exists_text_of_rewriteBound hfirst with ⟨text, htext, -⟩
    cases (edit?_of_deep hkey hdeep _).symm.trans htext

/-- Three merges that are accepted and do not act so. A key is named twice, and
    the first of its members is set where a reader finds the last. A null
    character ends a key for the engine, so what is set is the member of a longer
    key. A value nests deeper than the engine goes. -/
theorem executeAll_unlike_merge :
    ¬ ActsAsMerge (.ofList [("a", .ofUInt64 3), ("c", .ofUInt64 4)])
        "\x7b\"a\":1,\"b\":0,\"a\":2\x7d" ∧
      ¬ ActsAsMerge (.single "a" (.ofUInt64 3)) "\x7b\"a\\u0000b\":1\x7d" ∧
      ¬ ActsAsMerge (.single "d" (Json.nested 1001 .null)) StoredText.blank := by
  -- A name that comes twice, a name with a null character, and a value that nests
  -- too deep.
  refine ⟨?_, ?_, ?_⟩
  · have hrun : executeAll 0 ⟨"a"⟩ 0 [⟨[("$.\"a\"", "3"), ("$.\"c\"", "4")]⟩]
        [(⟨"a"⟩, ⟨"\x7b\"a\":1,\"b\":0,\"a\":2\x7d", none⟩)] =
          .ok (1, [(⟨"a"⟩, ⟨"\x7b\"a\":3,\"b\":0,\"a\":2,\"c\":4\x7d", some 0⟩)]) := by
      decide +kernel
    have hbefore : StoredText.document "\x7b\"a\":1,\"b\":0,\"a\":2\x7d" =
        .ok (.ofList [("a", .ofUInt64 2), ("b", .ofUInt64 0)]) := by
      decide +kernel
    have hread : StoredText.document "\x7b\"a\":3,\"b\":0,\"a\":2,\"c\":4\x7d" =
        .ok (.ofList [("a", .ofUInt64 2), ("b", .ofUInt64 0), ("c", .ofUInt64 4)]) := by
      decide +kernel
    refine not_actsAsMerge_of_read (by decide +kernel) hbefore hrun hread ?_
    simp [Document.ofList, Ordered.ofList, Ordered.merge, Ordered.insert, Json.ofUInt64,
      Word.ofUInt64]
  · have hrun : executeAll 0 ⟨"a"⟩ 0 [⟨[("$.\"a\"", "3")]⟩]
        [(⟨"a"⟩, ⟨"\x7b\"a\\u0000b\":1\x7d", none⟩)] =
          .ok (1, [(⟨"a"⟩, ⟨"\x7b\"a\\u0000b\":3\x7d", some 0⟩)]) := by
      decide +kernel
    have hbefore : StoredText.document "\x7b\"a\\u0000b\":1\x7d" =
        .ok (.single "a\x00b" (.ofUInt64 1)) := by
      decide +kernel
    have hread : StoredText.document "\x7b\"a\\u0000b\":3\x7d" =
        .ok (.single "a\x00b" (.ofUInt64 3)) := by
      decide +kernel
    refine not_actsAsMerge_of_read (by decide +kernel) hbefore hrun hread ?_
    simp [Document.single, Ordered.merge, Ordered.insert]
  · have hdepth := Json.depth_nested 1001 .null
    have hsize := Json.utf8ByteSize_compact_nested 1001 .null
    have hnull : Json.null.depth = 0 ∧ Json.null.compact.utf8ByteSize = 4 := by decide
    have hblank : StoredText.document StoredText.blank = .ok .empty := by decide +kernel
    rw [hnull.1] at hdepth
    rw [hnull.2] at hsize
    refine not_actsAsMerge_of_deep (by decide) ?_ ?_ hblank
    · rw [hsize]
      decide
    · rw [hdepth]
      decide

/-- The number of pairs in a statement does not show, and neither do the cuts.

    The statements of a merge that is accepted set its pairs in order, every key
    once, one to `chunkKeys` of them in a statement, or none in the only
    statement of an empty merge. What is bound for a statement are the paths and
    the encoded values of its pairs, then the stamp and the asset, and the
    engine finds each of them at its placeholder.

    On a stored object the statements leave one text, and so do statements for
    any other groups of the same pairs, as far as the engine would take so many
    arguments, unless something nests too deep or is too large for it. If no key
    of the updates can be taken for another in the object, a reader finds the
    document in this text that a merge makes of the stored one, with the numbers
    of the updates as they are read, whatever the limit of the reader is. -/
theorem merge_in_chunks {updates : Document} {statements : List MergeStatement}
    (h : batch updates = .ok statements) :
    updates.keys.Nodup ∧
      let groups := groupsOf updates.fields
      statements = groups.map ofGroup ∧ Grouped updates.fields groups ∧
      (∀ group ∈ groups, ∀ stamp asset,
        (ofGroup group).bindings stamp asset =
            (group.flatMap fun entry =>
              [.text (MemberPath.path entry.1), .text entry.2.compact]) ++
              [.integer stamp, .text asset.name] ∧
          (ofGroup group).placeholders.resolve? ((ofGroup group).bindings stamp asset) =
            some (ofGroup group, stamp, asset)) ∧
      ∀ (stamp : Stamp) (asset : AssetId) (assets : AssetTable) row members,
        assets.lookup asset = some row → Written.read? row.text.toList = some (.object members) →
        ∃ text, Leaves stamp asset assets row members updates groups text ∧
          (∀ first rest, (first :: rest).flatten = updates.fields →
            Leaves stamp asset assets row members updates (first :: rest) text) ∧
          ((∀ key ∈ updates.keys, Written.Singular (Ordered.keys members) key) →
            updates.toJson.DistinctKeys →
              ∀ (limit : Nat) (document : Document), updates.toJson.depth ≤ limit →
                StoredText.value? limit row.text = some document.toJson →
                  StoredText.value? limit text = some (document.merge updates.reread).toJson) := by
  rcases groups_of_batch h with ⟨hkeys, hstatements⟩
  refine ⟨updates.distinct, hstatements, grouped_groupsOf updates.fields,
    fun group _ stamp asset => ⟨?_, ?_⟩, fun stamp asset assets row members hrow htext => ?_⟩
  · rw [bindings, ofGroup, List.flatMap_map]
    rfl
  · exact resolve?_bindings (ofGroup group) stamp asset
  have hleaves : ∀ first rest, (first :: rest).flatten = updates.fields →
      Leaves stamp asset assets row members updates (first :: rest)
        (StoredText.edited row.text members updates.fields) :=
    fun first rest => leaves_edited hkeys hrow htext
  refine ⟨_, ?_, hleaves, fun hsingular hdistinct limit document hdepth hvalue => ?_⟩
  · rcases List.exists_cons_of_ne_nil (groupsOf_ne_nil updates.fields) with
      ⟨group, groups, hgroups⟩
    rw [hgroups]
    exact hleaves group groups (hgroups ▸ flatten_groupsOf updates.fields)
  · have hsettable : Written.Settable members updates.fields :=
      ⟨hkeys, updates.distinct, fun entry hentry =>
        hsingular entry.1 (List.mem_map_of_mem hentry)⟩
    exact StoredText.value?_of_setAll htext hsettable (StoredText.read?_edited hkeys htext)
      hdistinct hdepth hvalue

/-- Statements that nest what the engine nests and are not too large leave a
    text. -/
theorem Leaves.executeAll_eq {updates : Document} {groups : List (List (String × Json))}
    {text : String} (h : Leaves stamp asset assets row members updates groups text)
    (hnests : (Written.object members).depth ≤ StoredText.depthLimit ∧ Shallow updates.fields)
    (hfits : ¬ Overlong stamp asset row.text members groups) :
    executeAll stamp asset 0 (groups.map ofGroup) assets =
      .ok (1, Ordered.insert asset ⟨text, some stamp⟩ assets) := by
  rcases h with h | ⟨-, hdeep⟩ | ⟨-, hlong⟩
  · exact h
  · exact absurd hnests hdeep
  · exact absurd hlong hfits

/-- So many keys, which are the digits of numbers. -/
def numbered (count : Nat) : Document :=
  .ofList ((List.range count).map fun i => (toString i, .bool true))

/-- One key more than a statement takes, some of them there already. The object
    was written by another program, with blanks. -/
theorem merge_in_chunks_overfull :
    let asset : AssetId := ⟨"a"⟩
    let row : StoredRow := ⟨"\x7b \"b\": [true], \"7\": 1 \x7d", some 9⟩
    let document : Document := .ofList [("b", .array [.bool true]), ("7", .ofUInt64 1)]
    let updates := numbered 51
    ∃ statements text, batch updates = .ok statements ∧ statements.length = 2 ∧
      executeAll 9 asset 0 statements [(asset, row)] = .ok (1, [(asset, ⟨text, some 9⟩)]) ∧
      executeAll 9 asset 0 [ofGroup updates.fields] [(asset, row)] =
        .ok (1, [(asset, ⟨text, some 9⟩)]) ∧
      StoredText.value? Json.depthLimit text = some (document.merge updates).toJson := by
  intro asset row document updates
  have hkeys : ∀ entry ∈ updates.fields, MemberPath.Quotable entry.1 := by decide +kernel
  have hsize : encodedSize updates.fields ≤ updateLimit := by decide +kernel
  rcases batch_of_size_le hkeys hsize with ⟨statements, hbatch⟩
  have hlength : statements.length = 2 := by
    have hgroups : (groupsOf updates.fields).length = 2 := by decide +kernel
    rw [(groups_of_batch hbatch).2, List.length_map, hgroups]
  have htext : Written.read? row.text.toList =
      some (.object [("b", .array [.bool true]), ("7", .number "1")]) := by
    decide +kernel
  have hnests : (Written.object [("b", .array [.bool true]), ("7", .number "1")]).depth ≤
      StoredText.depthLimit ∧ Shallow updates.fields := by
    decide +kernel
  have hfits : ¬ Overlong 9 asset row.text [("b", .array [.bool true]), ("7", .number "1")]
      (groupsOf updates.fields) := by
    decide +kernel
  rcases merge_in_chunks hbatch with ⟨-, hstatements, -, -, hrow⟩
  rcases hrow 9 asset [(asset, row)] row _ List.lookup_cons_self htext with
    ⟨text, hleaves, hany, hvalue⟩
  have hone := hany updates.fields [] (List.append_nil _)
  refine ⟨statements, text, hbatch, hlength, ?_, ?_, ?_⟩
  · rw [hstatements]
    exact hleaves.executeAll_eq hnests hfits
  · exact hone.executeAll_eq hnests (by decide +kernel)
  · exact hvalue (by decide +kernel) (by decide +kernel) Json.depthLimit document
      (by decide +kernel) (by decide +kernel)

end MergeStatement

end Fieldwork
