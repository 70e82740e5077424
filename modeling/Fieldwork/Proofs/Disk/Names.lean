import Fieldwork.Disk.Path
import Fieldwork.Proofs.Text.Utf8

/-!
# The Names in a Text

A path that is a text has components that are texts.

Paths are cut at the byte of the slash. In a text this byte is the slash and
nothing else, so a cut goes between two characters, and what lies between two
cuts is the bytes of the characters there. A path that is no text may be cut
into anything.

## Theorems

* `exists_text_of_mem_pieces`: A piece of a text is a text.
* `exists_text_of_mem_components`: So is a component.
-/

namespace Fieldwork

namespace Path

/-- Bytes without a slash go to the piece that is being read. -/
theorem piecesFrom_append {bytes : List UInt8} (h : slash ∉ bytes) (piece : FileName)
    (rest : List UInt8) :
    piecesFrom piece (bytes ++ rest) = piecesFrom (bytes.reverse ++ piece) rest := by
  induction bytes generalizing piece with
  | nil => rfl
  | cons byte bytes ih =>
    rw [List.mem_cons, not_or] at h
    rw [List.cons_append, piecesFrom, if_neg fun hbyte => h.1 hbyte.symm, ih h.2,
      List.reverse_cons, List.append_assoc, List.singleton_append]

theorem slash_notMem_utf8EncodeChar {c : Char} (h : c ≠ '/') :
    slash ∉ String.utf8EncodeChar c := by
  intro hmem
  have hchar : c.toNat = '/'.toNat := toNat_eq_of_mem_utf8EncodeChar hmem (by decide)
  exact h (Char.toNat_inj.1 hchar)

/-- The pieces of characters, the first of which has some characters already. -/
theorem exists_text_of_mem_piecesFrom (cs done : List Char) :
    ∀ name ∈ piecesFrom (bytesOf (String.ofList done)).reverse (cs.flatMap String.utf8EncodeChar),
      ∃ text, name = bytesOf text := by
  induction cs generalizing done with
  | nil =>
    intro name hname
    rw [List.flatMap_nil, piecesFrom, List.reverse_reverse] at hname
    exact ⟨_, List.mem_singleton.1 hname⟩
  | cons c cs ih =>
    rw [List.flatMap_cons]
    by_cases hc : c = '/'
    · -- The piece is over, and the next one has nothing yet.
      have hslash : String.utf8EncodeChar '/' = [slash] := rfl
      have hempty : (bytesOf (String.ofList [])).reverse = [] := rfl
      rw [hc, hslash, List.singleton_append, piecesFrom, if_pos rfl, List.reverse_reverse,
        ← hempty]
      exact List.forall_mem_cons.2 ⟨⟨_, rfl⟩, ih []⟩
    · have hdone : (String.utf8EncodeChar c).reverse ++ (bytesOf (String.ofList done)).reverse =
          (bytesOf (String.ofList (done ++ [c]))).reverse := by
        rw [bytesOf_ofList, bytesOf_ofList, List.flatMap_append, List.flatMap_singleton,
          List.reverse_append]
      rw [piecesFrom_append (slash_notMem_utf8EncodeChar hc), hdone]
      exact ih (done ++ [c])

/-- A piece of a text is a text. -/
theorem exists_text_of_mem_pieces {text : String} {name : FileName}
    (h : name ∈ (ofText text).pieces) : ∃ part, name = bytesOf part := by
  refine exists_text_of_mem_piecesFrom text.toList [] name ?_
  rw [← toList_toUTF8]
  exact h

/-- A component of a text is a text. -/
theorem exists_text_of_mem_components {text : String} {name : FileName}
    (h : name ∈ (ofText text).components) : ∃ part, name = bytesOf part := by
  have hpiece : name ∈ (ofText text).pieces.filter (fun piece => piece != [] && piece != here) →
      ∃ part, name = bytesOf part :=
    fun hname => exists_text_of_mem_pieces (List.mem_of_mem_filter hname)
  unfold components at h
  dsimp only at h
  -- In front of the pieces there may be the root or a point, which are texts too.
  split at h
  · exact (List.mem_cons.1 h).elim (fun hroot => ⟨_, hroot⟩) hpiece
  · split at h
    · exact (List.mem_cons.1 h).elim (fun hhere => ⟨_, hhere⟩) hpiece
    · exact hpiece h

end Path

end Fieldwork
