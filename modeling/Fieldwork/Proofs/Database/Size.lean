import Fieldwork.Proofs.Database.Edit
import Fieldwork.Proofs.Text.Bytes

/-!
# The Size of Documents and Rows

How many bytes a document takes as a text, and a row in the table.

The keys of a document that is stored are spelled as they are, so its text can
be counted to the byte: keys, values and punctuation. A merge puts in no pair
that is not sent, so its text is no longer than the two texts together. A row
takes a little more than its texts, and how much more is known to be little.

So there is a condition on a merge that can be told beforehand and keeps every
statement of it within what the engine takes: the stored text, the text of the
updates and the name of the asset together stay below the limit by
`StoredRow.margin`.

## Main definitions

* `MergeStatement.keySize`: The bytes of the keys.
* `MergeStatement.frameSize`: The bytes of an object besides keys and values.
* `MergeStatement.memberSize`: The bytes of a member with its punctuation.
* `StoredRow.margin`: What a row takes besides its texts, at most.

## Theorems

* `utf8ByteSize_compact_object`: The bytes of an object, part by part.
* `utf8ByteSize_compact_merge_le`: A merge is no longer than what is merged.
* `size_le`: The bytes of a row.
* `bindable_of_room`, `not_overlong`: A merge that has room.
-/

namespace Fieldwork

theorem Written.utf8ByteSize_quoted (body : String) :
    (String.ofList (quoted body)).utf8ByteSize = body.utf8ByteSize + 2 := by
  have hquote : '"'.utf8Size = 1 := rfl
  have hend : (String.ofList ['"']).utf8ByteSize = 1 := rfl
  rw [quoted, List.cons_append, utf8ByteSize_ofList_cons, utf8ByteSize_ofList_append,
    String.ofList_toList, hquote, hend]
  omega

namespace MergeStatement

/-- How many bytes the keys of a merge have together. -/
def keySize : List (String × Json) → Nat
  | [] => 0
  | (key, _) :: rest => key.utf8ByteSize + keySize rest

/-- How many bytes an object with so many members has besides its keys and
    values: the braces, then two quotes and a colon for every member, and a
    comma for every member but one. -/
def frameSize (count : Nat) : Nat :=
  2 + (4 * count - 1)

/-- The bytes of the members behind the first, up to the closing brace. -/
theorem utf8ByteSize_renderMembers {members : List (String × Json)}
    (h : ∀ entry ∈ members, MemberPath.Quotable entry.1) :
    (String.ofList (Written.renderMembers (Json.toWrittenMembers members))).utf8ByteSize =
      encodedSize members + keySize members + 4 * members.length + 1 := by
  have hcomma : ','.utf8Size = 1 := rfl
  have hcolon : ':'.utf8Size = 1 := rfl
  induction members with
  | nil => rfl
  | cons entry rest ih =>
    rcases entry with ⟨key, value⟩
    rcases List.forall_mem_cons.1 h with ⟨hkey, hrest⟩
    have hvalue : (String.ofList value.toWritten.render).utf8ByteSize =
        value.compact.utf8ByteSize := rfl
    rw [Json.toWrittenMembers_cons hkey, Written.renderMembers]
    -- Each member adds a comma, a colon and the two quotes of its key.
    simp only [List.cons_append, List.append_assoc, utf8ByteSize_ofList_cons,
      utf8ByteSize_ofList_append, Written.utf8ByteSize_quoted, ih hrest, hvalue, hcomma, hcolon,
      encodedSize, keySize, List.length_cons]
    omega

/-- The bytes of an object, part by part. -/
theorem utf8ByteSize_compact_object {members : List (String × Json)}
    (h : ∀ entry ∈ members, MemberPath.Quotable entry.1) :
    (Json.object members).compact.utf8ByteSize =
      encodedSize members + keySize members + frameSize members.length := by
  have hbrace : '\x7b'.utf8Size = 1 := rfl
  have hcolon : ':'.utf8Size = 1 := rfl
  rcases members with _ | ⟨⟨key, value⟩, rest⟩
  · rfl
  · rcases List.forall_mem_cons.1 h with ⟨hkey, hrest⟩
    have hvalue : (String.ofList value.toWritten.render).utf8ByteSize =
        value.compact.utf8ByteSize := rfl
    rw [Json.compact, Json.toWritten_object, Json.toWrittenMembers_cons hkey, Written.text,
      Written.render]
    simp only [List.cons_append, List.append_assoc, utf8ByteSize_ofList_cons,
      utf8ByteSize_ofList_append, Written.utf8ByteSize_quoted, utf8ByteSize_renderMembers hrest,
      hvalue, hbrace, hcolon, encodedSize, keySize, frameSize, List.length_cons]
    omega

/-- How many bytes a member takes with its quotes, its colon and a comma. -/
def memberSize (entry : String × Json) : Nat :=
  entry.2.compact.utf8ByteSize + entry.1.utf8ByteSize + 4

/-- How many bytes members take, each with a comma. -/
def membersSize (members : List (String × Json)) : Nat :=
  (members.map memberSize).sum

theorem membersSize_cons (entry : String × Json) (rest : List (String × Json)) :
    membersSize (entry :: rest) = memberSize entry + membersSize rest := by
  rw [membersSize, List.map_cons, List.sum_cons, ← membersSize]

theorem membersSize_eq (members : List (String × Json)) :
    membersSize members = encodedSize members + keySize members + 4 * members.length := by
  induction members with
  | nil => rfl
  | cons entry rest ih =>
    rcases entry with ⟨key, value⟩
    rw [membersSize_cons, ih, memberSize, encodedSize, keySize, List.length_cons]
    dsimp only
    omega

/-- The bytes of an object, member by member: the last has no comma. -/
theorem utf8ByteSize_compact_eq {members : List (String × Json)}
    (h : ∀ entry ∈ members, MemberPath.Quotable entry.1) :
    (Json.object members).compact.utf8ByteSize = 2 + (membersSize members - 1) := by
  rw [utf8ByteSize_compact_object h, membersSize_eq, frameSize]
  rcases members with _ | ⟨entry, rest⟩
  · rfl
  · rw [List.length_cons]
    omega

theorem membersSize_insert_le (key : String) (value : Json) (members : List (String × Json)) :
    membersSize (Ordered.insert key value members) ≤
      membersSize members + memberSize (key, value) := by
  induction members with
  | nil => exact Nat.le_of_eq (Nat.add_comm _ _)
  | cons entry rest ih =>
    rcases entry with ⟨other, old⟩
    rw [Ordered.insert]
    split
    · rename_i heq
      rw [heq, membersSize_cons, membersSize_cons]
      omega
    · rw [membersSize_cons, membersSize_cons]
      omega

theorem membersSize_merge_le (members updates : List (String × Json)) :
    membersSize (Ordered.merge members updates) ≤ membersSize members + membersSize updates := by
  induction updates generalizing members with
  | nil => exact Nat.le_refl _
  | cons entry rest ih =>
    rcases entry with ⟨key, value⟩
    have hfirst := membersSize_insert_le key value members
    have hrest := ih (Ordered.insert key value members)
    rw [Ordered.merge, List.foldl_cons, ← Ordered.merge, membersSize_cons]
    dsimp only
    omega

/-- The text of a merge is no longer than the texts of what is merged. -/
theorem utf8ByteSize_compact_merge_le {members updates : List (String × Json)}
    (hm : ∀ entry ∈ members, MemberPath.Quotable entry.1)
    (hu : ∀ entry ∈ updates, MemberPath.Quotable entry.1) :
    (Json.object (Ordered.merge members updates)).compact.utf8ByteSize ≤
      (Json.object members).compact.utf8ByteSize + (Json.object updates).compact.utf8ByteSize := by
  have hmerge : ∀ entry ∈ Ordered.merge members updates, MemberPath.Quotable entry.1 :=
    Ordered.forall_mem_merge (p := fun entry => MemberPath.Quotable entry.1) hm hu
  have hsize := membersSize_merge_le members updates
  rw [utf8ByteSize_compact_eq hmerge, utf8ByteSize_compact_eq hm, utf8ByteSize_compact_eq hu]
  omega

/-- What is sent of the front members is no longer than all of them. -/
theorem utf8ByteSize_compact_le_of_prefix {front members : List (String × Json)}
    (hfront : front <+: members) (hm : ∀ entry ∈ members, MemberPath.Quotable entry.1) :
    (Json.object front).compact.utf8ByteSize ≤ (Json.object members).compact.utf8ByteSize := by
  have hkeys : ∀ entry ∈ front, MemberPath.Quotable entry.1 := fun entry hentry =>
    hm entry (hfront.subset hentry)
  rcases hfront with ⟨rest, rfl⟩
  have hsum : membersSize (front ++ rest) = membersSize front + membersSize rest := by
    rw [membersSize, List.map_append, List.sum_append, ← membersSize, ← membersSize]
  rw [utf8ByteSize_compact_eq hkeys, utf8ByteSize_compact_eq hm, hsum]
  omega

theorem memberSize_le_of_mem {entry : String × Json} {members : List (String × Json)}
    (h : entry ∈ members) : memberSize entry ≤ membersSize members := by
  rcases List.append_of_mem h with ⟨front, rest, rfl⟩
  rw [membersSize, List.map_append, List.sum_append, List.map_cons, List.sum_cons]
  omega

end MergeStatement

theorem MemberPath.utf8ByteSize_path (key : String) :
    (MemberPath.path key).utf8ByteSize = key.utf8ByteSize + 4 := by
  have hchars : '$'.utf8Size = 1 ∧ '.'.utf8Size = 1 ∧ '"'.utf8Size = 1 := by decide
  have hend : (String.ofList ['"']).utf8ByteSize = 1 := rfl
  rw [path]
  simp only [List.cons_append, utf8ByteSize_ofList_cons, utf8ByteSize_ofList_append,
    String.ofList_toList, hchars, hend]
  omega

namespace StoredRow

/-- What a row takes besides its texts, at most. -/
def margin : Nat := 20

theorem countSize_le {n : Nat} (h : n < 2 ^ 35) : countSize n ≤ 5 := by
  rw [countSize]
  rcases Nat.eq_zero_or_pos n with rfl | hpos
  · decide
  · have hlog : n.log2 < 35 := (Nat.log2_lt (Nat.ne_of_gt hpos)).2 h
    omega

theorem integerSize_le (n : Int) : integerSize n ≤ 8 := by
  rw [integerSize]
  split_ifs <;> decide

/-- The bytes of a row whose texts have so many bytes. -/
theorem size_le {asset : AssetId} {row : StoredRow}
    (h : row.text.utf8ByteSize + asset.name.utf8ByteSize + margin ≤ StoredText.lengthLimit) :
    row.size asset ≤ StoredText.lengthLimit := by
  have hstamp : (row.stamp.map integerSize).getD 0 ≤ 8 := by
    rcases row.stamp with _ | stamp
    · exact Nat.zero_le 8
    · exact integerSize_le stamp
  rw [margin, StoredText.lengthLimit] at h
  have hname : countSize (2 * asset.name.utf8ByteSize + 13) ≤ 5 := countSize_le (by omega)
  have htext : countSize (2 * row.text.utf8ByteSize + 13) ≤ 5 := countSize_le (by omega)
  rw [size, StoredText.lengthLimit]
  omega

end StoredRow

namespace MergeStatement

variable {stamp : Stamp} {asset : AssetId} {members updates : List (String × Json)}

/-- What the statements of a merge bind has room, if the text of the updates
    has. -/
theorem bindable_of_room (hu : ∀ entry ∈ updates, MemberPath.Quotable entry.1)
    (hroom : (Json.object updates).compact.utf8ByteSize + asset.name.utf8ByteSize ≤
      StoredText.lengthLimit) {group : List (String × Json)} (hgroup : group ⊆ updates) :
    (ofGroup group).Bindable stamp asset := by
  rw [utf8ByteSize_compact_eq hu] at hroom
  intro binding hbinding
  rcases List.mem_append.1 hbinding with hpair | hrest
  · rcases List.mem_flatMap.1 hpair with ⟨pair, hmem, htexts⟩
    rcases List.mem_map.1 hmem with ⟨entry, hentry, rfl⟩
    -- A path has four characters more than its key, like a member without its value.
    have hsize := memberSize_le_of_mem (hgroup hentry)
    rw [memberSize] at hsize
    simp only [pairOf, List.mem_cons, List.not_mem_nil, or_false] at htexts
    rcases htexts with rfl | rfl
    · rw [Binding.textSize, MemberPath.utf8ByteSize_path]
      omega
    · rw [Binding.textSize]
      omega
  · simp only [List.mem_cons, List.not_mem_nil, or_false] at hrest
    rcases hrest with rfl | rfl
    · exact Nat.zero_le _
    · rw [Binding.textSize]
      omega

/-- Nothing is too large where the stored text and the text of the updates have
    room together. -/
theorem not_overlong (hm : ∀ entry ∈ members, MemberPath.Quotable entry.1)
    (hu : ∀ entry ∈ updates, MemberPath.Quotable entry.1)
    (hroom : (Json.object members).compact.utf8ByteSize +
      (Json.object updates).compact.utf8ByteSize + asset.name.utf8ByteSize + StoredRow.margin ≤
        StoredText.lengthLimit) {groups : List (List (String × Json))}
    (hflatten : groups.flatten = updates) :
    ¬ Overlong stamp asset (Json.object members).compact (Json.toWrittenMembers members)
      groups := by
  rintro (⟨group, hgroup, hbind⟩ | ⟨front, -, hfront, hsize⟩)
  · refine hbind (bindable_of_room hu (by omega) ?_)
    rw [← hflatten]
    exact fun entry hentry => List.mem_flatten_of_mem hgroup hentry
  · have hsent : front.flatten <+: updates := hflatten ▸ hfront.flatten
    have hkeys : ∀ entry ∈ front.flatten, MemberPath.Quotable entry.1 := fun entry hentry =>
      hu entry (hsent.subset hentry)
    have hmerged := utf8ByteSize_compact_merge_le hm hkeys
    have hfront := utf8ByteSize_compact_le_of_prefix hsent hu
    rw [StoredText.edited_compact hm hkeys] at hsize
    refine absurd (StoredRow.size_le ?_) (Nat.not_le.2 hsize)
    dsimp only
    omega

end MergeStatement

end Fieldwork
