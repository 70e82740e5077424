import Fieldwork.Json.Reader
import Mathlib.Data.List.TakeWhile

/-!
# Rendered Trees Are Read

The reader gives back a tree from its compact text.

The reader is a machine, so the statement about a whole text is one about
every part of it: when the text of a value has gone through, the machine has
the value, and what was open before is open as it was. A number or a word is
not over at its last character, only at the next one, so the state after its
text is not the state after a value. The two differ in nothing that can come
next in a compact text: both take a comma or a closing bracket in the same
way, and both finish in the same way. `Read` says this, and the induction
carries `Read` instead of an equation between states.

Not every tree is the tree of a text. The spelling of a number has to be one,
and the body of a string has to leave the machine in the string it was in.

## Main definitions

* `IsBody`: A string body.
* `WellSpelled`: The spellings in a tree are those of a text.
* `State.Read`: A value has gone through.

## Theorems

* `run_number`, `run_word`, `run_string`: Scalars go through.
* `isNumberChar_of_ofChars?`: A number is made of the characters of numbers.
* `run_render`: The text of a tree goes through.
* `read?_render`: A rendered tree is read.
-/

namespace Fieldwork

namespace Written

/-- A string body: within a string it is taken whole, and the machine is still
    within the string. -/
def IsBody (body : List Char) : Prop :=
  ∀ stack isKey done, State.run ⟨stack, .string isKey done⟩ body =
    some ⟨stack, .string isKey (body.reverse ++ done)⟩

mutual

/-- The spellings in a tree are those of a text. -/
def WellSpelled : Written → Prop
  | number spelling => (NumberToken.ofChars? spelling.toList).isSome = true
  | string body => IsBody body.toList
  | array items => WellSpelledItems items
  | object members => WellSpelledMembers members
  | _ => True

/-- The spellings in a list of trees are those of a text. -/
def WellSpelledItems : List Written → Prop
  | [] => True
  | item :: rest => item.WellSpelled ∧ WellSpelledItems rest

/-- The spellings in a list of members are those of a text. -/
def WellSpelledMembers : List (String × Written) → Prop
  | [] => True
  | (key, value) :: rest => IsBody key.toList ∧ value.WellSpelled ∧ WellSpelledMembers rest

end

theorem isBody_nil : IsBody [] := fun _ _ _ => rfl

theorem IsBody.append {xs ys : List Char} (hx : IsBody xs) (hy : IsBody ys) :
    IsBody (xs ++ ys) := by
  intro stack isKey done
  rw [State.run_append, hx, Option.bind_some, hy, List.reverse_append, List.append_assoc]

theorem isNumberChar_of_isDigit {c : Char} (h : c.isDigit = true) : isNumberChar c = true := by
  simp [isNumberChar, h]

theorem append_of_whole? {cs digits rest : List Char}
    (h : NumberToken.whole? cs = some (digits, rest)) :
    cs = digits ++ rest ∧ digits ≠ [] ∧ ∀ c ∈ digits, c.isDigit = true := by
  have hdigits : ∀ c ∈ cs.takeWhile Char.isDigit, c.isDigit = true := fun c hc =>
    List.mem_takeWhile_imp hc
  have hsplit := List.takeWhile_append_dropWhile (p := Char.isDigit) (l := cs)
  unfold NumberToken.whole? at h
  split at h
  · cases h
  · cases h
  · rename_i hne hlead
    cases h
    exact ⟨hsplit.symm, hne, hdigits⟩

theorem isNumberChar_of_fraction? {cs digits rest : List Char}
    (h : NumberToken.fraction? cs = some (digits, rest))
    (hrest : ∀ c ∈ rest, isNumberChar c = true) : ∀ c ∈ cs, isNumberChar c = true := by
  unfold NumberToken.fraction? at h
  split at h
  · rename_i cs
    split at h
    · cases h
    · cases h
      refine List.forall_mem_cons.2 ⟨rfl, fun c hc => ?_⟩
      rw [← List.takeWhile_append_dropWhile (p := Char.isDigit) (l := cs)] at hc
      rcases List.mem_append.1 hc with hc | hc
      · exact isNumberChar_of_isDigit (List.mem_takeWhile_imp hc)
      · exact hrest c hc
  · cases h
    exact hrest

theorem isNumberChar_of_natural? {cs : List Char} {n : Nat} (h : Numeral.natural? cs = some n) :
    ∀ c ∈ cs, isNumberChar c = true := by
  unfold Numeral.natural? at h
  rw [Option.ite_none_right_eq_some, Bool.and_eq_true] at h
  intro c hc
  exact isNumberChar_of_isDigit (List.all_eq_true.1 h.1.2 c hc)

theorem isNumberChar_of_signed? {cs : List Char} {n : Int} (h : Numeral.signed? cs = some n) :
    ∀ c ∈ cs, isNumberChar c = true := by
  unfold Numeral.signed? at h
  split at h
  all_goals
    rcases Option.map_eq_some_iff.1 h with ⟨k, hk, -⟩
    have hdigits := isNumberChar_of_natural? hk
  · exact List.forall_mem_cons.2 ⟨rfl, hdigits⟩
  · exact List.forall_mem_cons.2 ⟨rfl, hdigits⟩
  · exact hdigits

theorem isNumberChar_of_exponent? {cs : List Char} {e : Option Int}
    (h : NumberToken.exponent? cs = some e) : ∀ c ∈ cs, isNumberChar c = true := by
  unfold NumberToken.exponent? at h
  split at h
  · exact fun c hc => absurd hc List.not_mem_nil
  · rcases Option.map_eq_some_iff.1 h with ⟨k, hk, -⟩
    exact List.forall_mem_cons.2 ⟨rfl, isNumberChar_of_signed? hk⟩
  · rcases Option.map_eq_some_iff.1 h with ⟨k, hk, -⟩
    exact List.forall_mem_cons.2 ⟨rfl, isNumberChar_of_signed? hk⟩
  · cases h

/-- The parts of a number behind its sign. -/
theorem isNumberChar_of_parts {cs whole fraction rest tail : List Char} {e : Option Int}
    (hw : NumberToken.whole? cs = some (whole, rest))
    (hf : NumberToken.fraction? rest = some (fraction, tail))
    (he : NumberToken.exponent? tail = some e) :
    ∃ c more, cs = c :: more ∧ c.isDigit = true ∧ ∀ d ∈ cs, isNumberChar d = true := by
  rcases append_of_whole? hw with ⟨rfl, hne, hdigits⟩
  rcases List.exists_cons_of_ne_nil hne with ⟨c, more, rfl⟩
  refine ⟨c, more ++ rest, rfl, hdigits c List.mem_cons_self, fun d hd => ?_⟩
  rcases List.mem_append.1 hd with hd | hd
  · exact isNumberChar_of_isDigit (hdigits d hd)
  · exact isNumberChar_of_fraction? hf (isNumberChar_of_exponent? he) d hd

/-- A number is made of the characters of numbers, and starts with a minus
    sign or a digit. -/
theorem isNumberChar_of_ofChars? {cs : List Char} {token : NumberToken}
    (h : NumberToken.ofChars? cs = some token) :
    ∃ c rest, cs = c :: rest ∧ (c = '-' ∨ c.isDigit = true) ∧
      ∀ d ∈ rest, isNumberChar d = true := by
  unfold NumberToken.ofChars? at h
  simp only [Option.bind_eq_bind, Option.bind_eq_some_iff] at h
  rcases h with ⟨⟨whole, rest⟩, hw, ⟨fraction, tail⟩, hf, e, he, -⟩
  split at hw
  · -- The sign is taken off before the parts are read.
    rename_i more
    rcases isNumberChar_of_parts hw hf he with ⟨c, digits, -, -, hall⟩
    exact ⟨'-', more, rfl, Or.inl rfl, hall⟩
  · rcases isNumberChar_of_parts hw hf he with ⟨c, more, rfl, hc, hall⟩
    exact ⟨c, more, rfl, Or.inr hc, fun d hd => hall d (List.mem_cons_of_mem _ hd)⟩

namespace State

/-- A value has gone through: what comes next is taken as after the value, with
    `stack` open around it. -/
structure Read (s : State) (stack : List Frame) (tree : Written) : Prop where
  /-- What can come next in a compact text. -/
  step : ∀ c ∈ [',', ']', '}'], s.step c = close stack tree c
  /-- The end of the text. -/
  finish : s.finish? = finish? ⟨stack, .after tree⟩

theorem run_cons (s : State) (c : Char) (cs : List Char) :
    s.run (c :: cs) = (s.step c).bind fun t => t.run cs := by
  simp only [run, List.foldlM_cons]
  rfl

theorem read_after (stack : List Frame) (tree : Written) :
    Read ⟨stack, .after tree⟩ stack tree :=
  ⟨fun _ _ => rfl, rfl⟩

/-- What comes next after a value does not continue a word or a number. -/
theorem not_continues_of_mem :
    ∀ c ∈ [',', ']', '}'], c.isLower = false ∧ isNumberChar c = false := by
  intro c hc
  simp only [List.mem_cons, List.not_mem_nil, or_false] at hc
  rcases hc with rfl | rfl | rfl <;> exact ⟨rfl, rfl⟩

theorem read_word (stack : List Frame) {letters : List Char} {tree : Written}
    (h : ofWord? letters.reverse = some tree) : Read ⟨stack, .word letters⟩ stack tree := by
  refine ⟨fun c hc => ?_, ?_⟩
  · -- The word is over when a character comes that no word has.
    have hlower := (not_continues_of_mem c hc).1
    simp only [State.step, hlower, h, Bool.false_eq_true, if_false, Option.bind_some]
  · cases stack with
    | nil => exact h
    | cons frame outer => rfl

theorem read_number (stack : List Frame) {spelling : List Char} {tree : Written}
    (h : ofNumber? spelling.reverse = some tree) : Read ⟨stack, .number spelling⟩ stack tree := by
  refine ⟨fun c hc => ?_, ?_⟩
  · have hnumber := (not_continues_of_mem c hc).2
    simp only [State.step, hnumber, h, Bool.false_eq_true, if_false, Option.bind_some]
  · cases stack with
    | nil => exact h
    | cons frame outer => rfl

/-- The text of a word goes through. -/
theorem run_word (stack : List Frame) {letters : List Char} {tree : Written}
    (h : ofWord? letters = some tree) :
    ∃ s, run ⟨stack, .value⟩ letters = some s ∧ s.Read stack tree := by
  unfold ofWord? at h
  split at h
  · cases h
    exact ⟨⟨stack, .word ['l', 'l', 'u', 'n']⟩, rfl, read_word stack rfl⟩
  · cases h
    exact ⟨⟨stack, .word ['e', 'u', 'r', 't']⟩, rfl, read_word stack rfl⟩
  · cases h
    exact ⟨⟨stack, .word ['e', 's', 'l', 'a', 'f']⟩, rfl, read_word stack rfl⟩
  · cases h

/-- Within a number its characters are taken whole. -/
theorem run_numberChars (stack : List Frame) (done : List Char) {cs : List Char}
    (h : ∀ c ∈ cs, isNumberChar c = true) :
    run ⟨stack, .number done⟩ cs = some ⟨stack, .number (cs.reverse ++ done)⟩ := by
  induction cs generalizing done with
  | nil => rfl
  | cons c rest ih =>
    rcases List.forall_mem_cons.1 h with ⟨hc, hrest⟩
    have hstep : step ⟨stack, .number done⟩ c = some ⟨stack, .number (c :: done)⟩ := by
      simp only [step, hc, if_true]
    rw [run_cons, hstep, Option.bind_some, ih _ hrest, List.reverse_cons, List.append_assoc]
    rfl

/-- Neither a sign nor a digit opens anything but a number. -/
theorem openValue_number (stack : List Frame) {c : Char} (hc : c = '-' ∨ c.isDigit = true) :
    openValue stack c = some ⟨stack, .number [c]⟩ := by
  have hfirst : (c = '-' || c.isDigit) = true := by
    rcases hc with rfl | hc
    · rfl
    · rw [hc, Bool.or_true]
  have hother : ∀ d : Char, d ≠ '-' → d.isDigit = false → c ≠ d := by
    rintro d hd hdigit rfl
    rcases hc with hc | hc
    · exact hd hc
    · rw [hdigit] at hc
      cases hc
  have hspace : isSpace c = false := by
    simp [isSpace, hother]
  rw [openValue, if_neg (by simp [hspace]), if_neg (hother '"' (by decide) rfl),
    if_neg (hother '[' (by decide) rfl), if_neg (hother '{' (by decide) rfl), if_pos hfirst]

/-- The text of a number goes through. -/
theorem run_number (stack : List Frame) {spelling : String}
    (h : (NumberToken.ofChars? spelling.toList).isSome = true) :
    ∃ s, run ⟨stack, .value⟩ spelling.toList = some s ∧ s.Read stack (number spelling) := by
  rcases Option.isSome_iff_exists.1 h with ⟨token, htoken⟩
  rcases isNumberChar_of_ofChars? htoken with ⟨c, rest, hcs, hc, hrest⟩
  refine ⟨⟨stack, .number (rest.reverse ++ [c])⟩, ?_, read_number stack ?_⟩
  · rw [hcs, run_cons]
    show (openValue stack c).bind _ = _
    rw [openValue_number stack hc, Option.bind_some, run_numberChars stack [c] hrest]
  · rw [List.reverse_append, List.reverse_reverse, List.reverse_singleton, List.singleton_append,
      ← hcs, ofNumber?, htoken, Option.map_some, String.ofList_toList]

theorem run_string (stack : List Frame) {body : String} (h : IsBody body.toList) :
    run ⟨stack, .value⟩ (quoted body) = some ⟨stack, .after (string body)⟩ := by
  have hopen : step ⟨stack, .value⟩ '"' = some ⟨stack, .string false []⟩ := rfl
  rw [quoted, List.cons_append, run_cons, hopen, Option.bind_some, run_append, h,
    Option.bind_some, List.append_nil, run_cons]
  simp only [step, if_true, endString, Bool.false_eq_true, if_false, List.reverse_reverse,
    String.ofList_toList]
  rfl

/-- A key with its colon goes through, wherever a key may stand. -/
theorem run_key (outer : List Frame) (done : List (String × Written)) {phase : Phase}
    (hphase : phase = .member ∨ phase = .firstMember) {key : String} (h : IsBody key.toList)
    (cs : List Char) :
    run ⟨.members done :: outer, phase⟩ (quoted key ++ ':' :: cs) =
      run ⟨.value done key :: outer, .value⟩ cs := by
  have hopen : step ⟨.members done :: outer, phase⟩ '"' =
      some ⟨.members done :: outer, .string true []⟩ := by
    rcases hphase with rfl | rfl <;> rfl
  have hend : step ⟨.members done :: outer, .string true key.toList.reverse⟩ '"' =
      some ⟨.value done key :: outer, .colon⟩ := by
    simp only [step, if_true, endString, List.reverse_reverse, String.ofList_toList]
  rw [quoted, List.cons_append, List.cons_append, run_cons, hopen, Option.bind_some,
    List.append_assoc, run_append, h, Option.bind_some, List.append_nil, List.singleton_append,
    run_cons, hend, Option.bind_some, run_cons]
  rfl

/-- The first character of a value, which no blank precedes and which closes
    no array. -/
theorem head_render {tree : Written} (h : tree.WellSpelled) :
    ∃ c rest, tree.render = c :: rest ∧ c ≠ ']' ∧ isSpace c = false := by
  cases tree with
  | null => exact ⟨'n', _, by rw [render], by decide, rfl⟩
  | bool value =>
    cases value
    · exact ⟨'f', _, by rw [render], by decide, rfl⟩
    · exact ⟨'t', _, by rw [render], by decide, rfl⟩
  | number spelling =>
    rcases Option.isSome_iff_exists.1 h with ⟨token, htoken⟩
    rcases isNumberChar_of_ofChars? htoken with ⟨c, rest, hcs, hc, -⟩
    have hclass : isNumberChar c = true := by
      rcases hc with rfl | hc
      · rfl
      · exact isNumberChar_of_isDigit hc
    refine ⟨c, rest, by rw [render, hcs], ?_, ?_⟩
    · rintro rfl
      cases hclass
    · -- No blank is a character of numbers.
      by_contra hspace
      simp only [Bool.not_eq_false, isSpace, Bool.or_eq_true, beq_iff_eq] at hspace
      rcases hspace with ((rfl | rfl) | rfl) | rfl <;> cases hclass
  | string body => exact ⟨'"', _, by rw [render, quoted, List.cons_append], by decide, rfl⟩
  | array items =>
    rcases items with _ | ⟨item, rest⟩
    · exact ⟨'[', _, by rw [render], by decide, rfl⟩
    · exact ⟨'[', _, by rw [render, List.cons_append], by decide, rfl⟩
  | object members =>
    rcases members with _ | ⟨⟨key, value⟩, rest⟩
    · exact ⟨'{', _, by rw [render], by decide, rfl⟩
    · exact ⟨'{', _, by rw [render, List.cons_append, List.cons_append], by decide, rfl⟩

/-- The first item of an array is read as any value is. -/
theorem run_firstItem (outer : List Frame) {tree : Written} (h : tree.WellSpelled) :
    run ⟨.items [] :: outer, .firstItem⟩ tree.render =
      run ⟨.items [] :: outer, .value⟩ tree.render := by
  rcases head_render h with ⟨c, rest, hcs, hbracket, hspace⟩
  -- The two states differ in a bracket and in nothing else that starts a value.
  rw [hcs, run_cons, run_cons]
  congr 1
  unfold step
  dsimp only
  split
  · rename_i heq
    cases heq
    exact absurd rfl hbracket
  · rw [if_neg (by simp [hspace])]

mutual

/-- The text of a tree goes through. -/
theorem run_render (tree : Written) (h : tree.WellSpelled) (stack : List Frame) :
    ∃ s, run ⟨stack, .value⟩ tree.render = some s ∧ s.Read stack tree := by
  match tree with
  | null =>
    rw [render]
    exact run_word stack rfl
  | bool true =>
    rw [render]
    exact run_word stack rfl
  | bool false =>
    rw [render]
    exact run_word stack rfl
  | number spelling =>
    rw [render]
    exact run_number stack h
  | string body =>
    rw [render, run_string stack h]
    exact ⟨_, rfl, read_after stack _⟩
  | array [] =>
    rw [render]
    exact ⟨_, rfl, read_after stack _⟩
  | array (item :: rest) =>
    rw [WellSpelled, WellSpelledItems] at h
    -- The state that the first item leaves is only known by `Read`, and that is
    -- all that the items behind it ask for.
    rcases run_render item h.1 (.items [] :: stack) with ⟨s, hs, hread⟩
    refine ⟨_, ?_, read_after stack _⟩
    rw [render, List.cons_append, run_cons]
    show run ⟨.items [] :: stack, .firstItem⟩ _ = _
    rw [run_append, run_firstItem stack h.1, hs, Option.bind_some]
    exact run_renderItems rest h.2 s stack [] item hread
  | object [] =>
    rw [render]
    exact ⟨_, rfl, read_after stack _⟩
  | object ((key, value) :: rest) =>
    rw [WellSpelled, WellSpelledMembers] at h
    rcases run_render value h.2.1 (.value [] key :: stack) with ⟨s, hs, hread⟩
    refine ⟨_, ?_, read_after stack _⟩
    rw [render, List.cons_append, List.cons_append, List.append_assoc, run_cons]
    show run ⟨.members [] :: stack, .firstMember⟩ _ = _
    rw [List.cons_append, run_key stack [] (Or.inr rfl) h.1, run_append, hs, Option.bind_some]
    exact run_renderMembers rest h.2.2 s stack [] key value hread

/-- The items behind one that has gone through, with the bracket. -/
theorem run_renderItems (items : List Written) (h : WellSpelledItems items) (s : State)
    (outer : List Frame) (done : List Written) (item : Written)
    (hs : s.Read (.items done :: outer) item) :
    s.run (renderItems items) =
      some ⟨outer, .after (array (done.reverse ++ item :: items))⟩ := by
  match items with
  | [] =>
    rw [renderItems, run_cons, hs.step ']' (by simp)]
    simp only [close, List.reverse_cons]
    rfl
  | next :: rest =>
    rw [WellSpelledItems] at h
    rcases run_render next h.1 (.items (item :: done) :: outer) with ⟨t, ht, hread⟩
    -- A comma ends the item before, even one that is a number or a word.
    rw [renderItems, List.cons_append, run_cons, hs.step ',' (by simp)]
    show run ⟨.items (item :: done) :: outer, .value⟩ _ = _
    rw [run_append, ht, Option.bind_some,
      run_renderItems rest h.2 t outer (item :: done) next hread, List.reverse_cons,
      List.append_assoc]
    rfl

/-- The members behind one whose value has gone through, with the brace. -/
theorem run_renderMembers (members : List (String × Written)) (h : WellSpelledMembers members)
    (s : State) (outer : List Frame) (done : List (String × Written)) (key : String)
    (value : Written) (hs : s.Read (.value done key :: outer) value) :
    s.run (renderMembers members) =
      some ⟨outer, .after (object (done.reverse ++ (key, value) :: members))⟩ := by
  match members with
  | [] =>
    rw [renderMembers, run_cons, hs.step '}' (by simp)]
    simp only [close, List.reverse_cons]
    rfl
  | (nextKey, next) :: rest =>
    rw [WellSpelledMembers] at h
    -- The comma opens a key, and the value behind it goes through as any value.
    rcases run_render next h.2.1 (.value ((key, value) :: done) nextKey :: outer) with
      ⟨t, ht, hread⟩
    rw [renderMembers, List.cons_append, List.cons_append, List.append_assoc, run_cons,
      hs.step ',' (by simp)]
    show run ⟨.members ((key, value) :: done) :: outer, .member⟩ _ = _
    rw [List.cons_append, run_key outer _ (Or.inl rfl) h.1, run_append, ht, Option.bind_some,
      run_renderMembers rest h.2.2 t outer ((key, value) :: done) nextKey next hread,
      List.reverse_cons, List.append_assoc]
    rfl

end

end State

/-- A rendered tree is read. -/
theorem read?_render {tree : Written} (h : tree.WellSpelled) : read? tree.render = some tree := by
  rcases State.run_render tree h [] with ⟨s, hs, hread⟩
  rw [read?, State.initial, hs, Option.bind_some, hread.finish]
  rfl

end Written

end Fieldwork
