import Fieldwork.Proofs.Database.Edit

/-!
# Members Set in Any Object

What the engine makes of an object that it did not write.

The text of a document spells every key once and in one way, and there a
member that is set is a pair inserted. Other programs spell as they like. A
name may come twice, or go on behind a null character, which for the engine
ends it. Setting a member is then still one change at one place: the names
stay in their order, and a new one goes last. But the place may be one where a
reader does not look.

`Singular` says of a key what has to hold for that not to happen: the engine
finds it at most once, and where it finds it, the name is the key. Under this
condition a reader finds the new value and no other, in the member that had
the old one. It is a condition on the names alone, so it stays while other
keys are set.

## Main definitions

* `Written.Singular`, `Written.Settable`: Keys that cannot be taken for others.
* `Written.valuesOf`: What stands under a name.
* `StoredText.value?`, `StoredText.contents?`: What a reader finds in a text, with
  a limit and without.

## Theorems

* `keyOf?_of_unquote?`: A name without null characters counts whole.
* `keys_setAll`: Names stay in their places.
* `getElem?_setAll`: So do the members under names that are not set.
* `valuesOf_setAll`: A key that is set has its value, and has it once.
* `json?_setAll`: A reader finds the pairs merged.
* `document_eq_ok_iff`, `contents?_eq_some_iff`: How documents are read.
* `value?_of_setAll`: A reader of the text finds the updates merged.
* `eq_of_rewriteAll`: The text that statements leave.
-/

namespace Fieldwork

namespace Written

/-- A key that cannot be taken for another: the engine finds at most one of the
    spellings for it, and that one is a spelling of the key. -/
structure Singular (spellings : List String) (key : String) : Prop where
  /-- There is at most one. -/
  once : (spellings.filter fun spelling => keyOf? spelling = some key).length ≤ 1
  /-- It has nothing behind a null character. -/
  whole : ∀ spelling ∈ spellings, keyOf? spelling = some key → unquote? spelling = some key

instance (spellings : List String) (key : String) : Decidable (Singular spellings key) :=
  decidable_of_iff
    ((spellings.filter fun spelling => keyOf? spelling = some key).length ≤ 1 ∧
      ∀ spelling ∈ spellings, keyOf? spelling = some key → unquote? spelling = some key)
    ⟨fun h => ⟨h.1, h.2⟩, fun h => ⟨h.once, h.whole⟩⟩

section Null

theorem beforeNull_cons {c : Char} (h : c ≠ '\\') (rest : List Char) :
    beforeNull (c :: rest) = c :: beforeNull rest := by
  rw [beforeNull]
  · rintro _ rfl
    exact absurd rfl h
  · rintro _ _ rfl
    exact absurd rfl h

/-- An escape by number counts whole, unless it is that of the null character. -/
theorem beforeNull_unit {a b c d : Char} {unit : Nat} (h : codeUnit? a b c d = some unit)
    (hunit : unit ≠ 0) (rest : List Char) :
    beforeNull ('\\' :: 'u' :: a :: b :: c :: d :: rest) =
      '\\' :: 'u' :: a :: b :: c :: d :: beforeNull rest := by
  -- No digit is a backslash, so none of the four starts an escape of its own.
  have hslash : ∀ x : Char, (Hex.digit? x).isSome = true → x ≠ '\\' := by
    rintro x hx rfl
    cases hx
  simp only [codeUnit?, Option.bind_eq_bind, Option.bind_eq_some_iff] at h
  rcases h with ⟨ha', ha, hb', hb, hc', hc, hd', hd, hsum⟩
  rw [beforeNull, beforeNull_cons (hslash a (by rw [ha]; rfl)),
    beforeNull_cons (hslash b (by rw [hb]; rfl)), beforeNull_cons (hslash c (by rw [hc]; rfl)),
    beforeNull_cons (hslash d (by rw [hd]; rfl))]
  rintro tail - heq
  cases heq
  -- The escape of the null character has four zeros, and they make the unit zero.
  have hzero : Hex.digit? '0' = some 0 := rfl
  rw [hzero] at ha hb hc hd
  cases ha
  cases hb
  cases hc
  cases hd
  cases hsum
  exact hunit rfl

/-- A body that is decoded counts whole, unless it holds a null character. -/
theorem beforeNull_of_unescapeFrom {high : Option Nat} {done body cs : List Char}
    (h : unescapeFrom high done body = some cs) :
    (∀ c ∈ done, c ∈ cs) ∧ ('\x00' ∉ cs → beforeNull body = body) := by
  fun_induction unescapeFrom high done body with
  | case1 => cases h
  | case2 =>
    cases h
    exact ⟨fun c hc => List.mem_reverse.2 hc, fun _ => rfl⟩
  | case3 high done a b c d rest ihpair ihhigh ihplain =>
    -- An escape by number: the second half of a pair, the first half of one, or
    -- a character of its own.
    simp only [Option.bind_eq_bind, Option.bind_eq_some_iff] at h
    rcases h with ⟨unit, hunit, h⟩
    split at h
    · split at h
      · rename_i hlow
        have hne : unit ≠ 0 := by
          rintro rfl
          cases hlow
        rcases ihpair unit _ h with ⟨hdone, hrest⟩
        refine ⟨(List.forall_mem_cons.1 hdone).2, fun hnull => ?_⟩
        rw [beforeNull_unit hunit hne, hrest hnull]
      · cases h
    · split at h
      · rename_i hhigh
        have hne : unit ≠ 0 := by
          rintro rfl
          cases hhigh
        rcases ihhigh unit h with ⟨hdone, hrest⟩
        refine ⟨hdone, fun hnull => ?_⟩
        rw [beforeNull_unit hunit hne, hrest hnull]
      · split at h
        · cases h
        · rcases ihplain unit h with ⟨hdone, hrest⟩
          rcases List.forall_mem_cons.1 hdone with ⟨hfirst, hdone⟩
          refine ⟨hdone, fun hnull => ?_⟩
          -- The null character would be in the text.
          have hne : unit ≠ 0 := by
            rintro rfl
            exact hnull hfirst
          rw [beforeNull_unit hunit hne, hrest hnull]
  | case4 => cases h
  | case5 high done c rest hother hhigh ih =>
    rcases Option.bind_eq_some_iff.1 h with ⟨decoded, -, h⟩
    rcases ih decoded h with ⟨hdone, hrest⟩
    refine ⟨(List.forall_mem_cons.1 hdone).2, fun hnull => ?_⟩
    rw [beforeNull, hrest hnull]
    rintro tail hu hzeros
    exact hother _ _ _ _ _ hu hzeros
  | case6 => cases h
  | case7 high done c rest hunit hescape hhigh ih =>
    rcases ih h with ⟨hdone, hrest⟩
    refine ⟨(List.forall_mem_cons.1 hdone).2, fun hnull => ?_⟩
    rw [beforeNull, hrest hnull]
    · rintro tail hslash hzeros
      exact hunit _ _ _ _ _ hslash hzeros
    · exact fun next tail hslash hrest => hescape next tail hslash hrest

/-- The engine takes a name for the key that it is, unless it holds a null
    character. -/
theorem keyOf?_of_unquote? {spelling key : String} (h : unquote? spelling = some key)
    (hnull : '\x00' ∉ key.toList) : keyOf? spelling = some key := by
  rcases Option.map_eq_some_iff.1 h with ⟨cs, hcs, rfl⟩
  rw [String.toList_ofList] at hnull
  rw [keyOf?, (beforeNull_of_unescapeFrom hcs).2 hnull, hcs, Option.map_some]

end Null

section Names

variable {key : String} {value : Written}

/-- Whether the engine finds a key among the spellings. -/
def Finds (spellings : List String) (key : String) : Prop :=
  ∃ spelling ∈ spellings, keyOf? spelling = some key

instance (spellings : List String) (key : String) : Decidable (Finds spellings key) :=
  inferInstanceAs (Decidable (∃ spelling ∈ spellings, keyOf? spelling = some key))

theorem finds_cons {spelling : String} {rest : List String} :
    Finds (spelling :: rest) key ↔ keyOf? spelling = some key ∨ Finds rest key :=
  List.exists_mem_cons_iff _ _ _

/-- A name that the engine takes for another key is not found for this one. -/
theorem finds_concat {spellings : List String} {other : String} (hother : keyOf? other ≠ some key) :
    Finds (spellings ++ [other]) key ↔ Finds spellings key := by
  constructor
  · rintro ⟨spelling, hmem, hfound⟩
    rcases List.mem_append.1 hmem with hold | hnew
    · exact ⟨spelling, hold, hfound⟩
    · rw [List.mem_singleton.1 hnew] at hfound
      exact absurd hfound hother
  · rintro ⟨spelling, hmem, hfound⟩
    exact ⟨spelling, List.mem_append_left _ hmem, hfound⟩

theorem unquote?_of_quotable (h : MemberPath.Quotable key) : unquote? key = some key := by
  have hunescape := unescape?_escape key.toList
  rw [MemberPath.escape_of_quotable h] at hunescape
  rw [unquote?, hunescape, Option.map_some, String.ofList_toList]

theorem keyOf?_of_unquote?_of_quotable (h : MemberPath.Quotable key) {spelling : String}
    (hspelling : unquote? spelling = some key) : keyOf? spelling = some key := by
  refine keyOf?_of_unquote? hspelling fun hnull => ?_
  cases h '\x00' hnull

/-- Names stay in their places, and a new one goes last. -/
theorem keys_setMember (key : String) (value : Written) (members : List (String × Written)) :
    Ordered.keys (setMember key value members) =
      Ordered.keys members ++ if Finds (Ordered.keys members) key then [] else [key] := by
  induction members with
  | nil =>
    have hnone : ¬ Finds (Ordered.keys ([] : List (String × Written))) key := by
      rintro ⟨spelling, hmem, -⟩
      exact absurd hmem List.not_mem_nil
    rw [if_neg hnone]
    rfl
  | cons entry rest ih =>
    rcases entry with ⟨spelling, old⟩
    rw [setMember]
    by_cases hspelling : keyOf? spelling = some key
    · rw [if_pos hspelling, Ordered.keys_cons, Ordered.keys_cons,
        if_pos (finds_cons.2 (Or.inl hspelling)), List.append_nil]
    · rw [if_neg hspelling, Ordered.keys_cons, Ordered.keys_cons, ih, List.cons_append]
      simp only [finds_cons, hspelling, false_or]

/-- A member that the engine does not take for the key stays as it is. -/
theorem getElem?_setMember {members : List (String × Written)} {i : Nat}
    {entry : String × Written} (hentry : members[i]? = some entry)
    (hkey : keyOf? entry.1 ≠ some key) : (setMember key value members)[i]? = some entry := by
  induction members generalizing i with
  | nil => cases hentry
  | cons first rest ih =>
    rcases first with ⟨spelling, old⟩
    rw [setMember]
    cases i with
    | zero =>
      cases hentry
      rw [if_neg hkey]
      rfl
    | succ i =>
      split
      · exact hentry
      · exact ih hentry

theorem Singular.tail {spelling : String} {rest : List String}
    (h : Singular (spelling :: rest) key) : Singular rest key := by
  refine ⟨Nat.le_trans ?_ h.once, fun other hother => h.whole other (List.mem_cons_of_mem _ hother)⟩
  exact ((List.sublist_cons_self spelling rest).filter _).length_le

/-- A key behind the others is one of its own. -/
theorem Singular.concat {spellings : List String} {other : String} (h : Singular spellings key)
    (hother : keyOf? other ≠ some key) : Singular (spellings ++ [other]) key := by
  refine ⟨?_, fun spelling hspelling hfound => ?_⟩
  · rw [List.filter_append, List.filter_cons_of_neg (by simpa using hother), List.filter_nil,
      List.append_nil]
    exact h.once
  · rcases List.mem_append.1 hspelling with hold | hnew
    · exact h.whole spelling hold hfound
    · rw [List.mem_singleton.1 hnew] at hfound
      exact absurd hfound hother

/-- Behind the member that the engine takes for a key there is none of that
    name. -/
theorem Singular.notMem_rest {spelling : String} {rest : List String}
    (hkey : MemberPath.Quotable key) (h : Singular (spelling :: rest) key)
    (hspelling : keyOf? spelling = some key) : ∀ other ∈ rest, unquote? other ≠ some key := by
  intro other hother hname
  have hfound : other ∈ rest.filter fun spelling => keyOf? spelling = some key :=
    List.mem_filter.2 ⟨hother, by simpa using keyOf?_of_unquote?_of_quotable hkey hname⟩
  have honce := h.once
  rw [List.filter_cons_of_pos (by simpa using hspelling), List.length_cons] at honce
  exact absurd (List.length_pos_of_mem hfound) (by omega)

/-- The values of the members that have a name. -/
def valuesOf (name : String) (members : List (String × Written)) : List Written :=
  (members.filter fun entry => unquote? entry.1 = some name).map Prod.snd

theorem valuesOf_cons (name : String) (entry : String × Written)
    (rest : List (String × Written)) :
    valuesOf name (entry :: rest) =
      if unquote? entry.1 = some name then entry.2 :: valuesOf name rest
      else valuesOf name rest := by
  rw [valuesOf, List.filter_cons]
  simp only [decide_eq_true_eq]
  split <;> rfl

theorem valuesOf_eq_nil {name : String} {members : List (String × Written)}
    (h : ∀ spelling ∈ Ordered.keys members, unquote? spelling ≠ some name) :
    valuesOf name members = [] := by
  rw [valuesOf, List.map_eq_nil_iff, List.filter_eq_nil_iff]
  intro entry hentry hname
  exact h entry.1 (List.mem_map_of_mem hentry) (of_decide_eq_true hname)

/-- A key that is set has its value, and has it once. -/
theorem valuesOf_setMember_self (hkey : MemberPath.Quotable key)
    {members : List (String × Written)} (h : Singular (Ordered.keys members) key) :
    valuesOf key (setMember key value members) = [value] := by
  induction members with
  | nil =>
    rw [setMember, valuesOf_cons, if_pos (unquote?_of_quotable hkey)]
    rfl
  | cons entry rest ih =>
    rcases entry with ⟨spelling, old⟩
    rw [setMember]
    -- The first member that the engine takes for the key gets the value, and no other
    -- has the name.
    by_cases hspelling : keyOf? spelling = some key
    · rw [if_pos hspelling, valuesOf_cons, if_pos (h.whole spelling List.mem_cons_self hspelling),
        valuesOf_eq_nil (h.notMem_rest hkey hspelling)]
    · have hname : ¬ unquote? spelling = some key := fun hname =>
        hspelling (keyOf?_of_unquote?_of_quotable hkey hname)
      rw [if_neg hspelling, valuesOf_cons, if_neg hname, ih h.tail]

/-- What has another name has the values that it had. -/
theorem valuesOf_setMember_of_ne (hkey : MemberPath.Quotable key) {name : String}
    (hne : name ≠ key) {members : List (String × Written)}
    (h : Singular (Ordered.keys members) key) :
    valuesOf name (setMember key value members) = valuesOf name members := by
  have hother : ∀ spelling, unquote? spelling = some key → ¬ unquote? spelling = some name := by
    intro spelling hself hname
    exact hne (Option.some.inj (hname.symm.trans hself))
  induction members with
  | nil => rw [setMember, valuesOf_cons, if_neg (hother key (unquote?_of_quotable hkey))]
  | cons entry rest ih =>
    rcases entry with ⟨spelling, old⟩
    rw [setMember]
    -- The member that changes has the name of the key, so it does not count under
    -- another.
    by_cases hspelling : keyOf? spelling = some key
    · have hname := hother spelling (h.whole spelling List.mem_cons_self hspelling)
      rw [if_pos hspelling, valuesOf_cons, valuesOf_cons, if_neg hname, if_neg hname]
    · rw [if_neg hspelling, valuesOf_cons, valuesOf_cons, ih h.tail]

end Names

section Readers

variable {key : String} {limit : Nat}

/-- A pair put in before members of other names are read is one put in after. -/
theorem jsonMembers?_insert {members : List (String × Written)} (value : Json)
    (h : ∀ spelling ∈ Ordered.keys members, unquote? spelling ≠ some key)
    {done fields : List (String × Json)} (hdone : key ∈ Ordered.keys done)
    (hfields : jsonMembers? limit done members = some fields) :
    jsonMembers? limit (Ordered.insert key value done) members =
      some (Ordered.insert key value fields) := by
  induction members generalizing done with
  | nil =>
    cases hfields
    rfl
  | cons entry rest ih =>
    rcases entry with ⟨spelling, tree⟩
    rcases List.forall_mem_cons.1 h with ⟨hfirst, hrest⟩
    rw [jsonMembers?] at hfields ⊢
    rcases Option.bind_eq_some_iff.1 hfields with ⟨name, hname, hfields⟩
    rcases Option.bind_eq_some_iff.1 hfields with ⟨found, hfound, hfields⟩
    have hne : key ≠ name := fun e => hfirst (e ▸ hname)
    have hlater : key ∈ Ordered.keys (Ordered.insert name found done) := by
      rw [Ordered.keys_insert]
      split
      · exact hdone
      · exact List.mem_append_left _ hdone
    -- The pair keeps its place and its value, since this member has another name.
    rw [hname, Option.bind_some, hfound, Option.bind_some,
      ← Ordered.insert_comm_of_mem hne value found hdone]
    exact ih hrest hlater hfields

/-- A reader finds the pair put in. -/
theorem jsonMembers?_setMember (hkey : MemberPath.Quotable key) {tree : Written} {value : Json}
    (hvalue : tree.json? limit = some value) {members : List (String × Written)}
    (h : Singular (Ordered.keys members) key) {done fields : List (String × Json)}
    (hfields : jsonMembers? limit done members = some fields) :
    jsonMembers? limit done (setMember key tree members) =
      some (Ordered.insert key value fields) := by
  induction members generalizing done with
  | nil =>
    cases hfields
    rw [setMember, jsonMembers?, unquote?_of_quotable hkey, Option.bind_some, hvalue]
    rfl
  | cons entry rest ih =>
    rcases entry with ⟨spelling, old⟩
    rw [jsonMembers?] at hfields
    rcases Option.bind_eq_some_iff.1 hfields with ⟨name, hname, hfields⟩
    rcases Option.bind_eq_some_iff.1 hfields with ⟨found, hfound, hfields⟩
    rw [setMember]
    by_cases hspelling : keyOf? spelling = some key
    · have hself := h.whole spelling List.mem_cons_self hspelling
      -- The old value would have been read here, and the new one replaces it at once.
      cases hname.symm.trans hself
      have hthere : key ∈ Ordered.keys (Ordered.insert key found done) := by
        rw [Ordered.keys_insert]
        split
        · assumption
        · exact List.mem_append_right _ (List.mem_singleton_self key)
      rw [if_pos hspelling, jsonMembers?, hself, Option.bind_some, hvalue, Option.bind_some,
        ← Ordered.insert_insert key found value done]
      exact jsonMembers?_insert value (h.notMem_rest hkey hspelling) hthere hfields
    · rw [if_neg hspelling, jsonMembers?, hname, Option.bind_some, hfound, Option.bind_some]
      exact ih h.tail hfields

end Readers

section All

variable {members : List (String × Written)} {updates : List (String × Json)}

/-- To set a key leaves the others what they are. -/
theorem Singular.setMember {key other : String} (hother : MemberPath.Quotable other)
    (hne : key ≠ other) (h : Singular (Ordered.keys members) key) (value : Written) :
    Singular (Ordered.keys (setMember other value members)) key := by
  rw [keys_setMember]
  split
  · rwa [List.append_nil]
  · refine h.concat ?_
    rw [MemberPath.keyOf?_of_quotable hother]
    exact fun e => hne (Option.some.inj e).symm

/-- Keys that can be quoted, that are different, and that cannot be taken for
    others. -/
structure Settable (members : List (String × Written)) (updates : List (String × Json)) :
    Prop where
  /-- The keys can be quoted. -/
  quotable : ∀ entry ∈ updates, MemberPath.Quotable entry.1
  /-- No key is set twice. -/
  distinct : Ordered.Distinct updates
  /-- The engine finds each key at most once, and finds nothing else for it. -/
  singular : ∀ entry ∈ updates, Singular (Ordered.keys members) entry.1

theorem Settable.head {entry : String × Json} (h : Settable members (entry :: updates)) :
    MemberPath.Quotable entry.1 ∧ Singular (Ordered.keys members) entry.1 ∧
      entry.1 ∉ Ordered.keys updates :=
  ⟨h.quotable entry List.mem_cons_self, h.singular entry List.mem_cons_self,
    (List.nodup_cons.1 h.distinct).1⟩

/-- The keys to come can still be set. -/
theorem Settable.tail {entry : String × Json} (h : Settable members (entry :: updates))
    (value : Written) : Settable (setMember entry.1 value members) updates := by
  rcases List.forall_mem_cons.1 h.quotable with ⟨hkey, hrest⟩
  refine ⟨hrest, (List.nodup_cons.1 h.distinct).2, fun other hother => ?_⟩
  have hne : other.1 ≠ entry.1 := fun e => h.head.2.2 (e ▸ List.mem_map_of_mem hother)
  exact (h.singular other (List.mem_cons_of_mem _ hother)).setMember hkey hne value

/-- Names stay in their places, and the new ones go last in their order. -/
theorem keys_setAll (h : Settable members updates) :
    Ordered.keys (setAll members updates) = Ordered.keys members ++
      (Ordered.keys updates).filter fun key => ¬ Finds (Ordered.keys members) key := by
  induction updates generalizing members with
  | nil => exact (List.append_nil _).symm
  | cons entry rest ih =>
    rcases h.head with ⟨hkey, -, hnew⟩
    rw [setAll, List.foldl_cons, ← setAll, ih (h.tail _), keys_setMember, Ordered.keys_cons]
    -- The key that was set is none of those to come.
    have hothers : ∀ key ∈ Ordered.keys rest,
        (Finds (Ordered.keys members ++
          if Finds (Ordered.keys members) entry.1 then [] else [entry.1]) key ↔
            Finds (Ordered.keys members) key) := by
      intro key hmem
      split
      · rw [List.append_nil]
      · refine finds_concat ?_
        rw [MemberPath.keyOf?_of_quotable hkey]
        exact fun e => hnew (Option.some.inj e ▸ hmem)
    have hfilter : ((Ordered.keys rest).filter fun key => ¬ Finds (Ordered.keys members ++
          if Finds (Ordered.keys members) entry.1 then [] else [entry.1]) key) =
        (Ordered.keys rest).filter fun key => ¬ Finds (Ordered.keys members) key :=
      List.filter_congr fun key hmem => by simp only [hothers key hmem]
    rw [hfilter, List.append_assoc, List.filter_cons]
    by_cases hthere : Finds (Ordered.keys members) entry.1
    · rw [if_pos hthere, if_neg (by simpa using hthere), List.nil_append]
    · rw [if_neg hthere, if_pos (by simpa using hthere), List.singleton_append]

/-- A member under a name that is not set stays as it is, where it is. -/
theorem getElem?_setAll (h : Settable members updates) {i : Nat} {entry : String × Written}
    (hentry : members[i]? = some entry)
    (hkeys : ∀ key ∈ Ordered.keys updates, unquote? entry.1 ≠ some key) :
    (setAll members updates)[i]? = some entry := by
  induction updates generalizing members with
  | nil => exact hentry
  | cons update rest ih =>
    rcases List.forall_mem_cons.1 hkeys with ⟨hfirst, hrest⟩
    -- The engine takes no name but the key itself for it, and this name is another.
    have hmem : entry.1 ∈ Ordered.keys members :=
      List.mem_map_of_mem (List.mem_of_getElem? hentry)
    have hne : keyOf? entry.1 ≠ some update.1 := fun hfound =>
      hfirst (h.head.2.1.whole entry.1 hmem hfound)
    exact ih (h.tail _) (getElem?_setMember hentry hne) hrest

/-- A name that is not set has the values that it had. -/
theorem valuesOf_setAll_of_notMem (h : Settable members updates) {name : String}
    (hname : name ∉ Ordered.keys updates) :
    valuesOf name (setAll members updates) = valuesOf name members := by
  induction updates generalizing members with
  | nil => rfl
  | cons update rest ih =>
    rcases h.head with ⟨hkey, hsingular, -⟩
    rcases not_or.1 fun e => hname (List.mem_cons.2 e) with ⟨hne, hrest⟩
    rw [setAll, List.foldl_cons, ← setAll, ih (h.tail _) hrest,
      valuesOf_setMember_of_ne hkey hne hsingular]

/-- A key that is set has its value, and has it once. -/
theorem valuesOf_setAll (h : Settable members updates) {entry : String × Json}
    (hentry : entry ∈ updates) :
    valuesOf entry.1 (setAll members updates) = [entry.2.toWritten] := by
  induction updates generalizing members with
  | nil => exact absurd hentry List.not_mem_nil
  | cons update rest ih =>
    rw [setAll, List.foldl_cons, ← setAll]
    rcases List.mem_cons.1 hentry with rfl | hrest
    · rcases h.head with ⟨hkey, hsingular, hnew⟩
      rw [valuesOf_setAll_of_notMem (h.tail _) hnew, valuesOf_setMember_self hkey hsingular]
    · exact ih (h.tail _) hrest

/-- A reader finds the pairs merged, with the values that it reads. -/
theorem json?_setAll {limit : Nat} (h : Settable members updates)
    (hvalues : ∀ entry ∈ updates, entry.2.toWritten.json? (limit - 1) = some entry.2.reread)
    {fields : List (String × Json)}
    (hfields : (object members).json? limit = some (.object fields)) :
    (object (setAll members updates)).json? limit =
      some (.object (Ordered.merge fields (Json.rereadMembers updates))) := by
  induction updates generalizing members fields with
  | nil => exact hfields
  | cons update rest ih =>
    rcases update with ⟨key, value⟩
    rcases h.head with ⟨hkey, hsingular, -⟩
    rcases List.forall_mem_cons.1 hvalues with ⟨hvalue, hrest⟩
    -- One key at a time, on both sides.
    rw [setAll, List.foldl_cons, ← setAll, Json.rereadMembers, Ordered.merge, List.foldl_cons,
      ← Ordered.merge]
    refine ih (h.tail _) hrest ?_
    rw [json?, Option.ite_none_left_eq_some] at hfields ⊢
    rcases hfields with ⟨hlimit, hfields⟩
    rcases Option.map_eq_some_iff.1 hfields with ⟨found, hfound, heq⟩
    cases heq
    refine ⟨hlimit, ?_⟩
    rw [jsonMembers?_setMember hkey hvalue hsingular hfound]
    rfl

end All

end Written

namespace StoredText

/-- What a reader finds in a text that lets so many arrays and objects nest. -/
def value? (limit : Nat) (text : String) : Option Json :=
  (Written.read? text.toList).bind (Written.json? limit)

/-- The document of a text, however deep it nests. -/
def contents? (text : String) : Option Document :=
  (Written.read? text.toList).bind fun tree => (tree.json? tree.depth).bind Document.ofJson?

theorem value?_of_le {limit other : Nat} {text : String} {value : Json}
    (h : value? limit text = some value) (hle : limit ≤ other) :
    value? other text = some value := by
  rcases Option.bind_eq_some_iff.1 h with ⟨tree, htree, hjson⟩
  have hdepth := Nat.le_trans (Written.depth_le_of_json? tree hjson) hle
  rw [value?, htree, Option.bind_some, Written.json?_of_depth_le tree hjson hdepth]

/-- What a value is read as that has been found by a reader. -/
theorem ofJson?_eq_some_iff {limit : Nat} {text : String} {value : Json} {document : Document}
    (h : value? limit text = some value) :
    Document.ofJson? value = some document ↔ value = document.toJson := by
  constructor
  · intro hdocument
    rcases Option.bind_eq_some_iff.1 h with ⟨tree, -, hjson⟩
    rcases value with _ | _ | _ | _ | _ | fields
    case object =>
      -- What is read has no key twice, so the object is that of a document.
      have hdistinct : Ordered.Distinct fields := (Written.fits_of_json? tree hjson).distinct.1
      have hself := Document.ofJson?_toJson ⟨fields, hdistinct⟩
      cases hself.symm.trans hdocument
      rfl
    all_goals cases hdocument
  · rintro rfl
    exact Document.ofJson?_toJson document

/-- A text is read as a document just if it is read as the object of it. -/
theorem document_eq_ok_iff {text : String} {document : Document} :
    StoredText.document text = .ok document ↔
      value? Json.depthLimit text = some document.toJson := by
  have hparse : Json.parse? text = value? Json.depthLimit text := rfl
  rw [StoredText.document, hparse]
  rcases hvalue : value? Json.depthLimit text with _ | value
  · exact iff_of_false (fun h => by cases h) (fun h => by cases h)
  · dsimp only
    rw [Option.some.injEq, ← ofJson?_eq_some_iff hvalue]
    rcases Document.ofJson? value with _ | found
    · exact iff_of_false (fun h => by cases h) (fun h => by cases h)
    · dsimp only
      rw [Except.ok.injEq, Option.some.injEq]

/-- The document of a text is what a reader finds whose limit is high enough. -/
theorem contents?_eq_some_iff {text : String} {document : Document} :
    contents? text = some document ↔ ∃ limit, value? limit text = some document.toJson := by
  constructor
  · intro h
    rcases Option.bind_eq_some_iff.1 h with ⟨tree, htree, hjson⟩
    rcases Option.bind_eq_some_iff.1 hjson with ⟨value, hvalue, hdocument⟩
    have hfound : value? tree.depth text = some value := by
      rw [value?, htree, Option.bind_some, hvalue]
    rw [ofJson?_eq_some_iff hfound] at hdocument
    exact ⟨tree.depth, hdocument ▸ hfound⟩
  · rintro ⟨limit, h⟩
    rcases Option.bind_eq_some_iff.1 h with ⟨tree, htree, hjson⟩
    -- The depth of the tree is a limit as well, and no reader with another finds more.
    have hdeep := Written.json?_of_depth_le tree hjson (Nat.le_refl tree.depth)
    rw [contents?, htree, Option.bind_some, hdeep, Option.bind_some, Document.ofJson?_toJson]

/-- A read that succeeds gives the stored document. -/
theorem contents?_of_document {text : String} {document : Document}
    (h : StoredText.document text = .ok document) : contents? text = some document :=
  contents?_eq_some_iff.2 ⟨Json.depthLimit, document_eq_ok_iff.1 h⟩

/-- A text with a document is that of an object. -/
theorem exists_members_of_contents? {text : String} {document : Document}
    (h : contents? text = some document) :
    ∃ members, Written.read? text.toList = some (.object members) := by
  rcases contents?_eq_some_iff.1 h with ⟨limit, hvalue⟩
  rcases Option.bind_eq_some_iff.1 hvalue with ⟨tree, htree, hjson⟩
  rw [Document.toJson] at hjson
  rcases tree with _ | _ | _ | _ | items | members
  case object => exact ⟨members, htree⟩
  case array =>
    rw [Written.json?, Option.ite_none_left_eq_some] at hjson
    rcases Option.map_eq_some_iff.1 hjson.2 with ⟨values, -, heq⟩
    cases heq
  case number | string =>
    rw [Written.json?] at hjson
    rcases Option.map_eq_some_iff.1 hjson with ⟨scalar, -, heq⟩
    cases heq
  all_goals cases hjson

/-- A reader finds the updates merged, as it reads them. -/
theorem value?_of_setAll {limit : Nat} {text after : String} {members : List (String × Written)}
    {updates document : Document} (htext : Written.read? text.toList = some (.object members))
    (h : Written.Settable members updates.fields)
    (hafter : Written.read? after.toList =
      some (.object (Written.setAll members updates.fields)))
    (hd : updates.toJson.DistinctKeys) (hdepth : updates.toJson.depth ≤ limit)
    (hvalue : value? limit text = some document.toJson) :
    value? limit after = some (document.merge updates.reread).toJson := by
  rw [value?, htext, Option.bind_some] at hvalue
  rw [value?, hafter, Option.bind_some]
  refine Written.json?_setAll h (fun entry hentry => ?_) hvalue
  have hvalues := Document.distinctKeys_toJson_iff.1 hd
  -- An object is a level of its own, so there is one left for its values.
  rcases limit with _ | limit
  · exact absurd hdepth (Nat.not_succ_le_zero _)
  · exact Json.json?_toWritten entry.2 (hvalues entry hentry) limit
      (Document.depth_toJson_le_iff.1 hdepth entry hentry)

end StoredText

namespace MergeStatement

open Written (setAll)

/-- Statements that do not fail leave the text of the object with the members
    set. -/
theorem eq_of_rewriteAll {stamp : Stamp} {asset : AssetId} {row after : StoredRow}
    {group : List (String × Json)} {groups : List (List (String × Json))}
    (hg : ∀ entry ∈ (group :: groups).flatten, MemberPath.Quotable entry.1)
    {members : List (String × Written)}
    (htext : Written.read? row.text.toList = some (.object members))
    (h : rewriteAll stamp asset ((group :: groups).map ofGroup) row = .ok after) :
    after = ⟨StoredText.edited row.text members (group :: groups).flatten, some stamp⟩ := by
  rcases rewriteAll_object stamp asset hg htext with hrow | ⟨hrow, -⟩ | ⟨hrow, -⟩
  · cases hrow.symm.trans h
    rfl
  · cases hrow.symm.trans h
  · cases hrow.symm.trans h

end MergeStatement

end Fieldwork
