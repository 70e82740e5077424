import Fieldwork.Proofs.Json.RoundTrip

/-!
# What Is Read Is Well Spelled

The reader only puts together what a text can say.

A rendered tree is read back if the spellings in it are those of a text. Here
is the other half: the trees that the reader gives have such spellings, and so
whatever was read can be written and read again, with all its spellings. No
value has to stand behind it. A number may be beyond all numbers and an object
may name a key twice; the text comes back all the same.

The machine keeps what it has read on its stack and in its phase, and each
character extends it by one. The invariant is therefore one about the state:
what is complete is well spelled, and what is not is the beginning of
something that is. Within an escape the beginning of a string is no body yet,
so there the invariant says where the characters so far lead.

## Main definitions

* `Frame.WellSpelled`, `Phase.WellSpelled`, `State.WellSpelled`: What the
  machine has read is well spelled.

## Theorems

* `wellSpelled_close`: A complete value is put where it belongs.
* `wellSpelled_string`, `wellSpelled_escape`, `wellSpelled_hex`: A character
  within a string.
* `wellSpelled_step`, `wellSpelled_run`: A character and a text keep it.
* `wellSpelled_of_read?`: What is read is well spelled.
-/

namespace Fieldwork

namespace Written

theorem wellSpelledItems_iff {items : List Written} :
    WellSpelledItems items ↔ ∀ item ∈ items, item.WellSpelled := by
  induction items with
  | nil =>
    rw [WellSpelledItems]
    exact iff_of_true trivial (List.forall_mem_nil _)
  | cons item rest ih => rw [WellSpelledItems, ih, List.forall_mem_cons]

theorem wellSpelledMembers_iff {members : List (String × Written)} :
    WellSpelledMembers members ↔
      ∀ entry ∈ members, IsBody entry.1.toList ∧ entry.2.WellSpelled := by
  induction members with
  | nil =>
    rw [WellSpelledMembers]
    exact iff_of_true trivial (List.forall_mem_nil _)
  | cons entry rest ih => rw [WellSpelledMembers, ih, List.forall_mem_cons, and_assoc]

theorem wellSpelled_of_ofNumber? {spelling : List Char} {tree : Written}
    (h : ofNumber? spelling = some tree) : tree.WellSpelled := by
  rcases Option.map_eq_some_iff.1 h with ⟨token, htoken, rfl⟩
  rw [WellSpelled, String.toList_ofList, htoken]
  rfl

theorem wellSpelled_of_ofWord? {letters : List Char} {tree : Written}
    (h : ofWord? letters = some tree) : tree.WellSpelled := by
  unfold ofWord? at h
  split at h
  all_goals
    cases h
    try exact trivial

/-- What an open array or object holds is well spelled. -/
def Frame.WellSpelled : Frame → Prop
  | items done => ∀ item ∈ done, item.WellSpelled
  | members done => ∀ entry ∈ done, IsBody entry.1.toList ∧ entry.2.WellSpelled
  | value done key =>
    IsBody key.toList ∧ ∀ entry ∈ done, IsBody entry.1.toList ∧ entry.2.WellSpelled

/-- What has been read since the last complete token is well spelled, or leads
    from within a string into the escape that it ends with. -/
def Phase.WellSpelled : Phase → Prop
  | after tree => tree.WellSpelled
  | string _ body | escape _ body => IsBody body.reverse
  | hex _ left body => ∀ stack isKey done, State.run ⟨stack, .string isKey done⟩ body.reverse =
      some ⟨stack, .hex isKey left (body ++ done)⟩
  | _ => True

namespace State

/-- What the machine has read is well spelled. -/
structure WellSpelled (s : State) : Prop where
  /-- In the open arrays and objects. -/
  stack : ∀ frame ∈ s.stack, frame.WellSpelled
  /-- Since the last complete token. -/
  phase : s.phase.WellSpelled

theorem wellSpelled_openValue {stack : List Frame} {c : Char} {t : State}
    (hstack : ∀ frame ∈ stack, frame.WellSpelled) (h : openValue stack c = some t) :
    t.WellSpelled := by
  unfold openValue at h
  -- Blanks, a string, an array, an object, a number and a word, in the order of the
  -- tests.
  repeat' split at h
  all_goals cases h
  · exact ⟨hstack, trivial⟩
  · exact ⟨hstack, isBody_nil⟩
  · exact ⟨List.forall_mem_cons.2 ⟨fun _ h => absurd h List.not_mem_nil, hstack⟩, trivial⟩
  · exact ⟨List.forall_mem_cons.2 ⟨fun _ h => absurd h List.not_mem_nil, hstack⟩, trivial⟩
  · exact ⟨hstack, trivial⟩
  · exact ⟨hstack, trivial⟩

theorem wellSpelled_openKey {stack : List Frame} {phase : Phase} {c : Char} {t : State}
    (hstack : ∀ frame ∈ stack, frame.WellSpelled) (hphase : phase.WellSpelled)
    (h : openKey stack phase c = some t) : t.WellSpelled := by
  unfold openKey at h
  repeat' split at h
  all_goals cases h
  · exact ⟨hstack, hphase⟩
  · exact ⟨hstack, isBody_nil⟩

/-- A complete value is put where it belongs. -/
theorem wellSpelled_close {stack : List Frame} {tree : Written} {c : Char} {t : State}
    (hstack : ∀ frame ∈ stack, frame.WellSpelled) (htree : tree.WellSpelled)
    (h : close stack tree c = some t) : t.WellSpelled := by
  unfold close at h
  split at h
  · cases h
    exact ⟨hstack, htree⟩
  split at h
  · rcases List.forall_mem_cons.1 hstack with ⟨hdone, houter⟩
    cases h
    exact ⟨List.forall_mem_cons.2 ⟨List.forall_mem_cons.2 ⟨htree, hdone⟩, houter⟩, trivial⟩
  · rcases List.forall_mem_cons.1 hstack with ⟨hdone, houter⟩
    cases h
    refine ⟨houter, wellSpelledItems_iff.2 fun item hitem => ?_⟩
    exact List.forall_mem_cons.2 ⟨htree, hdone⟩ item (List.mem_reverse.1 hitem)
  · rcases List.forall_mem_cons.1 hstack with ⟨⟨hkey, hdone⟩, houter⟩
    cases h
    exact ⟨List.forall_mem_cons.2 ⟨List.forall_mem_cons.2 ⟨⟨hkey, htree⟩, hdone⟩, houter⟩, trivial⟩
  · rcases List.forall_mem_cons.1 hstack with ⟨⟨hkey, hdone⟩, houter⟩
    cases h
    refine ⟨houter, wellSpelledMembers_iff.2 fun entry hentry => ?_⟩
    exact List.forall_mem_cons.2 ⟨⟨hkey, htree⟩, hdone⟩ entry (List.mem_reverse.1 hentry)
  · cases h

theorem wellSpelled_endString {stack : List Frame} {isKey : Bool} {body : List Char} {t : State}
    (hstack : ∀ frame ∈ stack, frame.WellSpelled) (hbody : IsBody body.reverse)
    (h : endString stack isKey body = some t) : t.WellSpelled := by
  have htext : IsBody (String.ofList body.reverse).toList := by rwa [String.toList_ofList]
  unfold endString at h
  dsimp only at h
  split at h
  · split at h
    · rcases List.forall_mem_cons.1 hstack with ⟨hdone, houter⟩
      cases h
      exact ⟨List.forall_mem_cons.2 ⟨⟨htext, hdone⟩, houter⟩, trivial⟩
    · cases h
  · cases h
    exact ⟨hstack, htext⟩

theorem run_concat (s : State) (cs : List Char) (c : Char) :
    s.run (cs ++ [c]) = (s.run cs).bind fun t => t.step c := by
  rw [run_append]
  refine congrArg _ (funext fun t => ?_)
  rw [run_cons]
  exact Option.bind_fun_some (t.step c)

/-- A digit of an escape leads on, the last one out of it. -/
theorem wellSpelled_hex {stack : List Frame} {isKey : Bool} {left : Nat} {body : List Char}
    {c : Char} {t : State} (hstack : ∀ frame ∈ stack, frame.WellSpelled)
    (hbody : Phase.WellSpelled (.hex isKey left body))
    (h : step ⟨stack, .hex isKey left body⟩ c = some t) : t.WellSpelled := by
  simp only [step] at h
  split at h
  · cases h
  rename_i hdigit
  -- In any string the characters so far lead here, so one more leads on.
  have hrun : ∀ outer key done, run ⟨outer, .string key done⟩ (c :: body).reverse =
      step ⟨outer, .hex key left (body ++ done)⟩ c := by
    intro outer key done
    rw [List.reverse_cons, run_concat, hbody, Option.bind_some]
  cases left with
  | zero =>
    cases h
    refine ⟨hstack, fun outer key done => ?_⟩
    rw [hrun, List.reverse_reverse]
    simp only [step, hdigit]
    rfl
  | succ left =>
    cases h
    refine ⟨hstack, fun outer key done => ?_⟩
    rw [hrun]
    simp only [step, hdigit]
    rfl

/-- A number or a word goes on, or it is complete and closed. -/
theorem wellSpelled_close_of_stops {goesOn : Bool} {stack : List Frame} {phase : Phase}
    {complete : Option Written} {c : Char} {t : State}
    (hstack : ∀ frame ∈ stack, frame.WellSpelled) (hphase : phase.WellSpelled)
    (hcomplete : ∀ tree, complete = some tree → tree.WellSpelled)
    (h : (if goesOn then some ⟨stack, phase⟩
      else complete.bind fun tree => close stack tree c) = some t) : t.WellSpelled := by
  split at h
  · cases h
    exact ⟨hstack, hphase⟩
  · rcases Option.bind_eq_some_iff.1 h with ⟨tree, htree, hclose⟩
    exact wellSpelled_close hstack (hcomplete tree htree) hclose

/-- A character within a string ends it, leads into an escape, or is one more
    of its body. -/
theorem wellSpelled_string {stack : List Frame} {isKey : Bool} {body : List Char} {c : Char}
    {t : State} (hstack : ∀ frame ∈ stack, frame.WellSpelled) (hbody : IsBody body.reverse)
    (h : step ⟨stack, .string isKey body⟩ c = some t) : t.WellSpelled := by
  simp only [step] at h
  split at h
  · exact wellSpelled_endString hstack hbody h
  rename_i hquote
  split at h
  · cases h
    exact ⟨hstack, hbody⟩
  rename_i hslash
  split at h
  · cases h
  rename_i hcontrol
  cases h
  have hlonger : IsBody (body.reverse ++ [c]) :=
    hbody.append (isBody_singleton hquote hslash hcontrol)
  rw [← List.reverse_cons] at hlonger
  exact ⟨hstack, hlonger⟩

/-- A letter behind a backslash completes an escape or asks for digits. -/
theorem wellSpelled_escape {stack : List Frame} {isKey : Bool} {body : List Char} {c : Char}
    {t : State} (hstack : ∀ frame ∈ stack, frame.WellSpelled) (hbody : IsBody body.reverse)
    (h : step ⟨stack, .escape isKey body⟩ c = some t) : t.WellSpelled := by
  simp only [step] at h
  split at h
  · rename_i hletter
    cases h
    have hlonger : IsBody (body.reverse ++ ['\\', c]) := hbody.append (isBody_letter hletter)
    refine ⟨hstack, ?_⟩
    rwa [Phase.WellSpelled, List.reverse_cons, List.reverse_cons, List.append_assoc]
  · split at h
    · cases h
      -- The digits are still to come, so this is no body yet.
      refine ⟨hstack, fun outer key done => ?_⟩
      rw [List.reverse_cons, List.reverse_cons, List.append_assoc, run_append, hbody]
      simp only [List.reverse_reverse]
      rfl
    · cases h

/-- A character keeps what was read well spelled. -/
theorem wellSpelled_step {s t : State} {c : Char} (hs : s.WellSpelled) (h : s.step c = some t) :
    t.WellSpelled := by
  rcases s with ⟨stack, phase⟩
  rcases hs with ⟨hstack, hphase⟩
  dsimp only at hstack hphase
  -- An array or object that closes empty leaves the stack without its frame;
  -- in every other phase a lemma above says what the character can do.
  cases phase with
  | value => exact wellSpelled_openValue hstack h
  | firstItem =>
    simp only [step] at h
    split at h
    · cases h
      exact ⟨(List.forall_mem_cons.1 hstack).2,
        wellSpelledItems_iff.2 fun _ h => absurd h List.not_mem_nil⟩
    · split at h
      · cases h
        exact ⟨hstack, trivial⟩
      · exact wellSpelled_openValue hstack h
  | firstMember =>
    simp only [step] at h
    split at h
    · cases h
      exact ⟨(List.forall_mem_cons.1 hstack).2,
        wellSpelledMembers_iff.2 fun _ h => absurd h List.not_mem_nil⟩
    · exact wellSpelled_openKey hstack hphase h
  | member => exact wellSpelled_openKey hstack hphase h
  | colon =>
    simp only [step] at h
    repeat' split at h
    all_goals cases h
    · exact ⟨hstack, trivial⟩
    · exact ⟨hstack, trivial⟩
  | after tree => exact wellSpelled_close hstack hphase h
  | string isKey body => exact wellSpelled_string hstack hphase h
  | escape isKey body => exact wellSpelled_escape hstack hphase h
  | hex isKey left body => exact wellSpelled_hex hstack hphase h
  | number spelling =>
    have hlonger : Phase.WellSpelled (.number (c :: spelling)) := trivial
    exact wellSpelled_close_of_stops hstack hlonger (fun _ => wellSpelled_of_ofNumber?) h
  | word letters =>
    have hlonger : Phase.WellSpelled (.word (c :: letters)) := trivial
    exact wellSpelled_close_of_stops hstack hlonger (fun _ => wellSpelled_of_ofWord?) h

theorem wellSpelled_run {s t : State} {cs : List Char} (hs : s.WellSpelled)
    (h : s.run cs = some t) : t.WellSpelled := by
  induction cs generalizing s with
  | nil =>
    cases h
    exact hs
  | cons c rest ih =>
    rw [run_cons] at h
    rcases Option.bind_eq_some_iff.1 h with ⟨next, hstep, hrest⟩
    exact ih (wellSpelled_step hs hstep) hrest

theorem wellSpelled_of_finish? {s : State} {tree : Written} (hs : s.WellSpelled)
    (h : s.finish? = some tree) : tree.WellSpelled := by
  rcases s with ⟨stack, phase⟩
  unfold finish? at h
  dsimp only at h
  split at h
  · cases h
    exact hs.phase
  · exact wellSpelled_of_ofNumber? h
  · exact wellSpelled_of_ofWord? h
  · cases h

end State

/-- What is read is well spelled. -/
theorem wellSpelled_of_read? {cs : List Char} {tree : Written} (h : read? cs = some tree) :
    tree.WellSpelled := by
  have hstart : State.initial.WellSpelled := ⟨fun _ h => absurd h List.not_mem_nil, trivial⟩
  rcases Option.bind_eq_some_iff.1 h with ⟨s, hrun, hfinish⟩
  exact State.wellSpelled_of_finish? (State.wellSpelled_run hstart hrun) hfinish

end Written

end Fieldwork
