import Fieldwork.Proofs.Database.Size

/-!
# The Size of a Merge

How large the text of a merge can be.

A merge is checked for its size while its values are encoded, and what is
added up are the texts of the values. The text of the whole map has more in
it: the keys, and for every member the quotes around its key, a colon and
mostly a comma. A key is taken only if it is spelled as it is, so all of this
can be counted to the byte, and what the check leaves out is known exactly.

It leaves out enough for the limit to bound nothing but values. A single
member may fill the limit with its value and have a key of any length, and
several members that fill it together are already beyond it with the shortest
keys. In the other direction nothing is lost: a map whose whole text keeps
within the limit is never refused for its size.

## Main definitions

* `letters`: A text of so many letters.

## Theorems

* `batch_eq_ok_iff`: When a merge is accepted.
* `payload_of_batch`: What is known of the text of an accepted merge.
* `batch_of_filledPair`: An accepted merge that is larger than the limit.
-/

namespace Fieldwork

namespace MergeStatement

/-- A merge is accepted just if its keys can be quoted and its values are small
    enough together. -/
theorem batch_eq_ok_iff {updates : Document} :
    (∃ statements, batch updates = .ok statements) ↔
      (∀ entry ∈ updates.fields, MemberPath.Quotable entry.1) ∧
        encodedSize updates.fields ≤ updateLimit := by
  constructor
  · rintro ⟨statements, h⟩
    exact ⟨(batch_eq_ok h).1, encodedSize_le_of_batch h⟩
  · intro h
    exact batch_of_size_le h.1 h.2

end MergeStatement

/-- A text of so many letters. -/
def letters (length : Nat) : String :=
  String.ofList (List.replicate length 'x')

theorem quotable_letters (length : Nat) : MemberPath.Quotable (letters length) := by
  intro c hc
  rw [letters, String.toList_ofList] at hc
  rw [List.eq_of_mem_replicate hc]
  rfl

theorem utf8ByteSize_letters (length : Nat) : (letters length).utf8ByteSize = length := by
  have hsize : ∀ c ∈ List.replicate length 'x', c.utf8Size = 1 := fun c hc =>
    List.eq_of_mem_replicate hc ▸ rfl
  rw [letters, utf8ByteSize_ofList hsize, List.length_replicate]

theorem utf8ByteSize_compact_letters (length : Nat) :
    (Json.string (letters length)).compact.utf8ByteSize = length + 2 := by
  have hplain := MemberPath.escape_of_quotable (quotable_letters length)
  rw [Json.compact, Json.toWritten, hplain, String.ofList_toList, Written.text, Written.render,
    Written.utf8ByteSize_quoted, utf8ByteSize_letters]

namespace MergeStatement

/-- What is known of the text of an accepted merge. Its values keep within the
    limit, and nothing else in it is counted: the text is longer by exactly its
    keys and its punctuation, so the limit holds for the text just if there is
    room for those beside the values. A map whose keys can be quoted and whose
    whole text keeps within the limit is accepted. -/
theorem payload_of_batch (updates : Document) :
    (∀ statements, batch updates = .ok statements →
      encodedSize updates.fields ≤ updateLimit ∧
        updates.toJson.compact.utf8ByteSize =
          encodedSize updates.fields + keySize updates.fields +
            frameSize updates.fields.length) ∧
      ((∀ statements, batch updates = .ok statements →
          updates.toJson.compact.utf8ByteSize ≤ updateLimit) ↔
        ((∀ entry ∈ updates.fields, MemberPath.Quotable entry.1) →
          encodedSize updates.fields ≤ updateLimit →
            encodedSize updates.fields + keySize updates.fields +
              frameSize updates.fields.length ≤ updateLimit)) ∧
      ((∀ entry ∈ updates.fields, MemberPath.Quotable entry.1) →
        updates.toJson.compact.utf8ByteSize ≤ updateLimit →
          ∃ statements, batch updates = .ok statements) := by
  -- What is tested and what is sent differ by the keys and the punctuation, and by
  -- nothing else.
  refine ⟨fun statements h => ?_, ⟨fun h hkeys hvalues => ?_, fun h statements hbatch => ?_⟩,
    fun hkeys hsize => ?_⟩
  · rcases batch_eq_ok_iff.1 ⟨statements, h⟩ with ⟨hkeys, hvalues⟩
    exact ⟨hvalues, utf8ByteSize_compact_object hkeys⟩
  · rcases batch_of_size_le hkeys hvalues with ⟨statements, hbatch⟩
    have hsize := h statements hbatch
    rwa [Document.toJson, utf8ByteSize_compact_object hkeys] at hsize
  · rcases batch_eq_ok_iff.1 ⟨statements, hbatch⟩ with ⟨hkeys, hvalues⟩
    rw [Document.toJson, utf8ByteSize_compact_object hkeys]
    exact h hkeys hvalues
  · refine batch_eq_ok_iff.2 ⟨hkeys, ?_⟩
    rw [Document.toJson, utf8ByteSize_compact_object hkeys] at hsize
    omega

/-- Two members of twenty-two bytes, seven of which are counted. -/
theorem payload_of_batch_twoMembers :
    let updates : Document := .ofList [("note", .string "x"), ("on", .bool true)]
    ∃ statements, batch updates = .ok statements ∧ encodedSize updates.fields = 7 ∧
      updates.toJson.compact.utf8ByteSize = 22 := by
  intro updates
  have hkeys : ∀ entry ∈ updates.fields, MemberPath.Quotable entry.1 := by
    decide
  have hcounted : encodedSize updates.fields = 7 := by
    decide
  have hsize : updates.toJson.compact.utf8ByteSize ≤ updateLimit := by
    decide
  rcases payload_of_batch updates with ⟨hbytes, -, haccepts⟩
  rcases haccepts hkeys hsize with ⟨statements, hbatch⟩
  refine ⟨statements, hbatch, hcounted, ?_⟩
  rw [(hbytes statements hbatch).2, hcounted]
  rfl

/-- Two values that fill the limit together. Neither the keys nor the
    punctuation has room beside them, and the merge is accepted. -/
theorem batch_of_filledPair :
    let value : Json := .string (letters 2097150)
    let updates : Document := .ofList [("k0", value), ("k1", value)]
    (∃ statements, batch updates = .ok statements) ∧
      ¬ updates.toJson.compact.utf8ByteSize ≤ updateLimit := by
  intro value updates
  have hfields : updates.fields = [("k0", value), ("k1", value)] := rfl
  have hkeys : ∀ entry ∈ updates.fields, MemberPath.Quotable entry.1 := by
    rw [hfields]
    simp only [List.forall_mem_cons, List.not_mem_nil, false_implies, implies_true, and_true]
    exact ⟨by decide, by decide⟩
  have hvalues : encodedSize updates.fields = updateLimit := by
    rw [hfields]
    simp only [encodedSize, value, utf8ByteSize_compact_letters]
    rfl
  refine ⟨batch_eq_ok_iff.2 ⟨hkeys, Nat.le_of_eq hvalues⟩, ?_⟩
  have hframe : frameSize updates.fields.length = 9 := rfl
  rw [Document.toJson, utf8ByteSize_compact_object hkeys, hvalues, hframe]
  omega

end MergeStatement

end Fieldwork
