import Fieldwork.Proofs.Json.Rendered

/-!
# Rendered Text Is Printed

A compact text has no control character, and so it is a single line.

Outside of strings this is a matter of looking at what is rendered. Within a
string it is a matter of what the reader takes for a string body, since that
is all that is known of one. A key is the case to look at: with no object open
around it, it cannot end, so the machine stays within it from one character to
the next, and in none of its three states there does it take a control
character.

## Main definitions

* `State.InKey`: The machine is within a key that cannot end.

## Theorems

* `State.blank_le_of_step`: What is taken within a key.
* `IsBody.blank_le`: A string body has no control character.
* `blank_le_of_mem_render`: Neither has the text of a tree.
-/

namespace Fieldwork

namespace Written

theorem blank_le_of_isDigit {c : Char} (h : c.isDigit = true) : 0x20 ≤ c.toNat := by
  rw [Char.isDigit, Bool.and_eq_true, decide_eq_true_eq] at h
  exact Nat.le_trans (by decide) (UInt32.le_iff_toNat_le.1 h.1)

theorem blank_le_of_isNumberChar {c : Char} (h : isNumberChar c = true) : 0x20 ≤ c.toNat := by
  simp only [isNumberChar, Bool.or_eq_true, beq_iff_eq] at h
  rcases h with ((((h | rfl) | rfl) | rfl) | rfl) | rfl
  · exact blank_le_of_isDigit h
  all_goals decide

theorem blank_le_of_isEscaped {c : Char} (h : isEscaped c = true) : 0x20 ≤ c.toNat := by
  simp only [isEscaped, Bool.or_eq_true, beq_iff_eq] at h
  rcases h with ((((((rfl | rfl) | rfl) | rfl) | rfl) | rfl) | rfl) | rfl
  all_goals decide

theorem blank_le_of_digit? {c : Char} {n : Nat} (h : Hex.digit? c = some n) : 0x20 ≤ c.toNat :=
  Nat.le_trans (by decide) (UInt32.le_iff_toNat_le.1 (Char.le_def.1 (Hex.bounds_of_digit? h).1))

namespace State

/-- The machine is within a key, with nothing open that the key could belong
    to. -/
inductive InKey : State → Prop where
  /-- Between two characters. -/
  | string (body : List Char) : InKey ⟨[], .string true body⟩
  /-- After a backslash. -/
  | escape (body : List Char) : InKey ⟨[], .escape true body⟩
  /-- Among the digits of an escape. -/
  | hex (left : Nat) (body : List Char) : InKey ⟨[], .hex true left body⟩

/-- What is taken within a key is no control character, and the key goes on. -/
theorem blank_le_of_step {s t : State} {c : Char} (h : s.InKey) (hstep : s.step c = some t) :
    0x20 ≤ c.toNat ∧ t.InKey := by
  cases h with
  | string body =>
    -- A quote would end the key, and there is no object to put it into.
    simp only [step, endString, if_true] at hstep
    split at hstep
    · cases hstep
    · split at hstep
      · rename_i hslash
        cases hstep
        exact ⟨hslash ▸ by decide, .escape body⟩
      · split at hstep
        · cases hstep
        · rename_i hcontrol
          cases hstep
          exact ⟨Nat.not_lt.1 hcontrol, .string _⟩
  | escape body =>
    simp only [step] at hstep
    split at hstep
    · rename_i hescaped
      cases hstep
      exact ⟨blank_le_of_isEscaped hescaped, .string _⟩
    · split at hstep
      · rename_i hletter
        cases hstep
        exact ⟨hletter ▸ by decide, .hex 3 _⟩
      · cases hstep
  | hex left body =>
    simp only [step] at hstep
    split at hstep
    · cases hstep
    · rename_i hdigit
      rw [Option.isNone_iff_eq_none, ← ne_eq, Option.ne_none_iff_exists'] at hdigit
      rcases hdigit with ⟨n, hn⟩
      cases left with
      | zero =>
        cases hstep
        exact ⟨blank_le_of_digit? hn, .string _⟩
      | succ left =>
        cases hstep
        exact ⟨blank_le_of_digit? hn, .hex left _⟩

theorem blank_le_of_run {s t : State} {cs : List Char} (h : s.InKey) (hrun : s.run cs = some t) :
    ∀ c ∈ cs, 0x20 ≤ c.toNat := by
  induction cs generalizing s with
  | nil => exact List.forall_mem_nil _
  | cons c rest ih =>
    rw [run_cons, Option.bind_eq_some_iff] at hrun
    rcases hrun with ⟨next, hstep, hrun⟩
    rcases blank_le_of_step h hstep with ⟨hc, hnext⟩
    exact List.forall_mem_cons.2 ⟨hc, ih hnext hrun⟩

end State

/-- A string body has no control character. -/
theorem IsBody.blank_le {body : List Char} (h : IsBody body) : ∀ c ∈ body, 0x20 ≤ c.toNat :=
  State.blank_le_of_run (.string []) (h [] true [])

theorem blank_le_of_all {cs : List Char} (h : (cs.all fun c => 0x20 ≤ c.toNat) = true) :
    ∀ c ∈ cs, 0x20 ≤ c.toNat := fun c hc =>
  of_decide_eq_true (List.all_eq_true.1 h c hc)

theorem blank_le_of_mem_quoted {body : String} (h : IsBody body.toList) :
    ∀ c ∈ quoted body, 0x20 ≤ c.toNat := by
  rw [quoted, List.cons_append, List.forall_mem_cons, List.forall_mem_append]
  exact ⟨by decide, h.blank_le, blank_le_of_all rfl⟩

theorem blank_le_of_ofChars? {cs : List Char} {token : NumberToken}
    (h : NumberToken.ofChars? cs = some token) : ∀ c ∈ cs, 0x20 ≤ c.toNat := by
  rcases isNumberChar_of_ofChars? h with ⟨c, rest, rfl, hc, hrest⟩
  -- The first character is a sign or a digit, whatever the others are.
  rw [List.forall_mem_cons]
  refine ⟨?_, fun d hd => blank_le_of_isNumberChar (hrest d hd)⟩
  rcases hc with rfl | hc
  · decide
  · exact blank_le_of_isDigit hc

mutual

/-- The text of a tree has no control character. -/
theorem blank_le_of_mem_render {tree : Written} (h : tree.WellSpelled) :
    ∀ c ∈ tree.render, 0x20 ≤ c.toNat := by
  match tree with
  | null =>
    rw [render]
    exact blank_le_of_all rfl
  | bool true =>
    rw [render]
    exact blank_le_of_all rfl
  | bool false =>
    rw [render]
    exact blank_le_of_all rfl
  | number spelling =>
    rw [WellSpelled, Option.isSome_iff_exists] at h
    rcases h with ⟨token, htoken⟩
    rw [render]
    exact blank_le_of_ofChars? htoken
  | string body =>
    rw [WellSpelled] at h
    rw [render]
    exact blank_le_of_mem_quoted h
  | array [] =>
    rw [render]
    exact blank_le_of_all rfl
  | array (item :: rest) =>
    rw [WellSpelled, WellSpelledItems] at h
    rw [render, List.cons_append, List.forall_mem_cons, List.forall_mem_append]
    exact ⟨by decide, blank_le_of_mem_render h.1, blank_le_of_mem_renderItems h.2⟩
  | object [] =>
    rw [render]
    exact blank_le_of_all rfl
  | object ((key, value) :: rest) =>
    rw [WellSpelled, WellSpelledMembers] at h
    simp only [render, List.cons_append, List.append_assoc, List.forall_mem_cons,
      List.forall_mem_append]
    exact ⟨by decide, blank_le_of_mem_quoted h.1, by decide, blank_le_of_mem_render h.2.1,
      blank_le_of_mem_renderMembers h.2.2⟩

theorem blank_le_of_mem_renderItems {items : List Written} (h : WellSpelledItems items) :
    ∀ c ∈ renderItems items, 0x20 ≤ c.toNat := by
  match items with
  | [] =>
    rw [renderItems]
    exact blank_le_of_all rfl
  | item :: rest =>
    rw [WellSpelledItems] at h
    rw [renderItems, List.cons_append, List.forall_mem_cons, List.forall_mem_append]
    exact ⟨by decide, blank_le_of_mem_render h.1, blank_le_of_mem_renderItems h.2⟩

theorem blank_le_of_mem_renderMembers {members : List (String × Written)}
    (h : WellSpelledMembers members) : ∀ c ∈ renderMembers members, 0x20 ≤ c.toNat := by
  match members with
  | [] =>
    rw [renderMembers]
    exact blank_le_of_all rfl
  | (key, value) :: rest =>
    rw [WellSpelledMembers] at h
    simp only [renderMembers, List.cons_append, List.append_assoc, List.forall_mem_cons,
      List.forall_mem_append]
    exact ⟨by decide, blank_le_of_mem_quoted h.1, by decide, blank_le_of_mem_render h.2.1,
      blank_le_of_mem_renderMembers h.2.2⟩

end

end Written

end Fieldwork
