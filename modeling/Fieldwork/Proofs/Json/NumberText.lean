import Fieldwork.Proofs.Json.Gathered

/-!
# Written Numbers

The text of a number is a token of the grammar, and no other number has it.

The grammar takes a token apart by what each part may start with, so putting
one together is a matter of what follows what: digits end at a point, at the
letter of the exponent or at the end. `ofChars?_sign_append` says this once,
for any whole part, fraction and exponent.

A binary64 number is written in one of four layouts. They place the digits
differently about the point, and none of them changes the value: a token's
decimal has the value of the shortest decimal, though rarely its digits. The
shortest decimal is nearest to one number only, so the text tells which number
it is the text of.

A reader, though, may find another number in it. Integers come back as they
are, and so do numbers whose texts are short. Any other binary64 number is read
as some number, which `Number.reread` gives: never is its text refused.

## Main definitions

* `NumberToken.IsWhole`: The digits before a point.
* `NumberToken.Denotes`: A token of a binary64 number.
* `NumberToken.Spells`: A text that makes a token of a value.
* `Number.reread`: The number that the text of a number is read as.

## Theorems

* `ofChars?_sign_append`: A sign, a whole part, a fraction and an exponent make
  a token.
* `spells_positional`, `spells_scientific`: Both notations keep the value.
* `exists_token`: The text of a number is a token of it.
* `text_injective`: Numbers with one text are one number.
* `exists_token_text`: The text of a number is read.
* `reread_integer`, `reread_of_short`: Numbers that are read back.
-/

namespace Fieldwork

namespace NumberToken

/-- The digits before a point: at least one, and no zero in front of
    another. -/
structure IsWhole (digits : List Char) : Prop where
  /-- All of them are digits. -/
  isDigit : ∀ c ∈ digits, c.isDigit = true
  /-- There is one. -/
  ne_nil : digits ≠ []
  /-- A zero in front stands alone. -/
  zero : digits.head? = some '0' → digits = ['0']

/-- What ends a run of digits. -/
def EndsDigits (rest : List Char) : Prop :=
  ∀ c ∈ rest.head?, c.isDigit = false

/-- The text of a fraction, none if there are no digits. -/
def fractionText (digits : List Char) : List Char :=
  if digits = [] then [] else '.' :: digits

theorem whole?_append {digits rest : List Char} (h : IsWhole digits) (hr : EndsDigits rest) :
    whole? (digits ++ rest) = some (digits, rest) := by
  rw [whole?, Digits.takeWhile_isDigit_append h.isDigit hr,
    Digits.dropWhile_isDigit_append h.isDigit hr]
  split
  · exact absurd rfl h.ne_nil
  · have hzero := h.zero rfl
    cases hzero
  · rfl

/-- A fraction comes off where its digits end, and nothing comes off where no
    point is. -/
theorem fraction?_append {digits rest : List Char} (hd : ∀ c ∈ digits, c.isDigit = true)
    (hr : EndsDigits rest) (hpoint : rest.head? ≠ some '.') :
    fraction? (fractionText digits ++ rest) = some (digits, rest) := by
  unfold fractionText
  split
  · rename_i hnil
    -- Without digits no point is written, and what follows does not start with one.
    rw [hnil, List.nil_append, fraction?]
    intro cs e
    rw [e] at hpoint
    exact hpoint rfl
  · rename_i hne
    rw [List.cons_append, fraction?, Digits.takeWhile_isDigit_append hd hr,
      Digits.dropWhile_isDigit_append hd hr]
    split
    · exact absurd rfl hne
    · rfl

/-- The sign of a token. -/
def signText (negative : Bool) : List Char :=
  if negative then ['-'] else []

/-- A sign, a whole part, a fraction and an exponent make a token. -/
theorem ofChars?_sign_append (negative : Bool) {whole tail : List Char} (fraction : List Char)
    {exponent : Option Int} (hw : IsWhole whole) (hf : ∀ c ∈ fraction, c.isDigit = true)
    (ht : exponent? tail = some exponent) (hd : EndsDigits tail) (hpoint : tail.head? ≠ some '.') :
    ofChars? (signText negative ++ (whole ++ (fractionText fraction ++ tail))) =
      some ⟨negative, whole, fraction, exponent⟩ := by
  -- The whole part ends at the point, or where the tail begins.
  have hends : EndsDigits (fractionText fraction ++ tail) := by
    unfold fractionText
    split
    · exact hd
    · intro c hc
      cases hc
      rfl
  have hwhole := whole?_append hw hends
  have hfraction := fraction?_append hf hd hpoint
  cases negative with
  | true =>
    simp only [signText, if_true, List.cons_append, List.nil_append, ofChars?, hwhole, hfraction,
      ht, Option.bind_eq_bind, Option.bind_some]
  | false =>
    -- A digit comes first, so no sign is taken off.
    rcases List.exists_cons_of_ne_nil hw.ne_nil with ⟨c, rest, rfl⟩
    have hc : c ≠ '-' := by
      rintro rfl
      exact absurd (hw.isDigit '-' (by simp)) (by decide)
    rw [List.cons_append] at hwhole
    simp only [signText, Bool.false_eq_true, if_false, List.nil_append, ofChars?,
      List.cons_append]
    split
    · rename_i heq
      cases heq
      exact absurd rfl hc
    · simp only [hwhole, hfraction, ht, Option.bind_eq_bind, Option.bind_some]

/-- The digits of a number that is not zero are a whole part, whatever digits
    follow them. -/
theorem isWhole_toDigits_append {n : Nat} (h : n ≠ 0) (digits : List Char)
    (hd : ∀ c ∈ digits, c.isDigit = true) : IsWhole (Nat.toDigits 10 n ++ digits) := by
  have hhead := Digits.head?_toDigits_ne h
  refine ⟨?_, ?_, ?_⟩
  · intro c hc
    rcases List.mem_append.1 hc with hc | hc
    · exact Digits.isDigit_of_mem_toDigits hc
    · exact hd c hc
  · exact List.append_ne_nil_of_left_ne_nil Nat.toDigits_ne_nil digits
  · intro e
    rw [List.head?_append_of_ne_nil _ Nat.toDigits_ne_nil] at e
    exact absurd e hhead

theorem isWhole_take_toDigits {n : Nat} (h : n ≠ 0) {count : Nat} (hc : 0 < count) :
    IsWhole ((Nat.toDigits 10 n).take count) := by
  refine ⟨fun c hc => Digits.isDigit_of_mem_toDigits (List.mem_of_mem_take hc), ?_, ?_⟩
  · intro hnil
    rcases List.take_eq_nil_iff.1 hnil with hzero | hnil
    · omega
    · exact Nat.toDigits_ne_nil hnil
  · intro e
    rw [List.head?_take, if_neg (by omega)] at e
    exact absurd e (Digits.head?_toDigits_ne h)

/-- A token of a binary64 number, which is negative or not and has this
    magnitude. -/
structure Denotes (token : NumberToken) (negative : Bool) (v : ℚ) : Prop where
  /-- The sign is that of the number. -/
  negative : token.negative = negative
  /-- The token is not one of an integer. -/
  float : token.integer? = none
  /-- Both parts are digits. -/
  isDigit : ∀ c ∈ token.whole ++ token.fraction, c.isDigit = true
  /-- The exponent is one that is added up. -/
  exponent : (token.exponent.getD 0).natAbs ≤ exponentLimit
  /-- The magnitude is what the token names. -/
  value : token.decimal.value = v

/-- A text that makes, behind either sign, a token of the value. -/
def Spells (cs : List Char) (v : ℚ) : Prop :=
  ∀ negative, ∃ token, ofChars? (signText negative ++ cs) = some token ∧
    token.Denotes negative v

/-- A whole part, a fraction and an exponent spell the value of their digits,
    scaled. Without exponent there has to be a fraction, or the token would be
    one of an integer. -/
theorem spells_of_parts (whole fraction : List Char) {tail : List Char} {exponent : Option Int}
    (hw : IsWhole whole) (hf : ∀ c ∈ fraction, c.isDigit = true)
    (ht : exponent? tail = some exponent) (hd : EndsDigits tail) (hpoint : tail.head? ≠ some '.')
    (hfloat : fraction ≠ [] ∨ exponent.isSome = true)
    (hlimit : (exponent.getD 0).natAbs ≤ exponentLimit) :
    Spells (whole ++ (fractionText fraction ++ tail))
      (Nat.ofDigitChars 10 (whole ++ fraction) 0 *
        (10 : ℚ) ^ (exponent.getD 0 - fraction.length)) := by
  intro negative
  refine ⟨_, ofChars?_sign_append negative fraction hw hf ht hd hpoint, rfl, ?_,
    List.forall_mem_append.2 ⟨hw.isDigit, hf⟩, hlimit, rfl⟩
  rw [integer?, if_neg]
  rcases hfloat with hne | hsome
  · simp [hne]
  · cases exponent with
    | none => cases hsome
    | some e => simp

end NumberToken

namespace Number

open NumberToken

theorem endsDigits_nil : EndsDigits [] := by
  intro c hc
  cases hc

/-- A whole number is its digits and zeros, with a zero behind the point. -/
theorem spells_whole {d : Decimal} (h : d.digits ≠ 0) (hexp : 0 ≤ d.exponent) :
    Spells (Nat.toDigits 10 d.digits ++ List.replicate d.exponent.toNat '0' ++ ['.', '0'])
      d.value := by
  have hvalue : Nat.ofDigitChars 10
      (Nat.toDigits 10 d.digits ++ List.replicate d.exponent.toNat '0' ++ ['0']) 0 =
        d.digits * 10 ^ d.exponent.toNat * 10 := by
    rw [Nat.ofDigitChars_append, Nat.ofDigitChars_append, Nat.ofDigitChars_ten_toDigits,
      Nat.ofDigitChars_replicate_zero, Nat.ofDigitChars_cons, Nat.ofDigitChars_nil]
    simp only [Nat.sub_self, Nat.add_zero]
    ring
  -- The zero behind the point scales up by ten, and its place down again.
  have hcast : d.value = (d.digits * 10 ^ d.exponent.toNat * 10 : Nat) * (10 : ℚ) ^ (-1 : Int) := by
    have hpow : (10 : ℚ) ^ d.exponent = 10 ^ d.exponent.toNat := by
      rw [← zpow_natCast]
      congr 1
      omega
    rw [Decimal.value, hpow, zpow_neg_one]
    push_cast
    field_simp
  have hspells := spells_of_parts _ ['0']
    (isWhole_toDigits_append h (List.replicate d.exponent.toNat '0') fun _ =>
      Digits.isDigit_of_mem_zeros)
    (by simp) (by rfl : exponent? [] = some none) endsDigits_nil (by simp) (Or.inl (by simp))
    (by decide)
  rw [hvalue] at hspells
  rw [hcast]
  exact hspells

/-- A number whose point stands among the digits. -/
theorem spells_inside {d : Decimal} (h : d.digits ≠ 0) {point : Nat} (hpos : 0 < point)
    (hpoint : (point : Int) = (Nat.toDigits 10 d.digits).length + d.exponent)
    (hexp : d.exponent < 0) :
    Spells ((Nat.toDigits 10 d.digits).take point ++ '.' :: (Nat.toDigits 10 d.digits).drop point)
      d.value := by
  -- The exponent is negative, so there are digits behind the point.
  have hne : (Nat.toDigits 10 d.digits).drop point ≠ [] := by
    rw [Ne, List.drop_eq_nil_iff]
    omega
  have hspells := spells_of_parts _ ((Nat.toDigits 10 d.digits).drop point)
    (isWhole_take_toDigits h hpos)
    (fun c hc => Digits.isDigit_of_mem_toDigits (List.mem_of_mem_drop hc))
    (by rfl : exponent? [] = some none) endsDigits_nil (by simp) (Or.inl hne) (by decide)
  rw [List.take_append_drop, Nat.ofDigitChars_ten_toDigits, List.length_drop, fractionText,
    if_neg hne, List.append_nil, Option.getD_none] at hspells
  rw [Decimal.value, show d.exponent =
    0 - (((Nat.toDigits 10 d.digits).length - point : Nat) : Int) by omega]
  exact hspells

/-- A number whose digits come behind the point and some zeros. -/
theorem spells_below {d : Decimal} {zeros : Nat}
    (hzeros : (zeros : Int) = -((Nat.toDigits 10 d.digits).length + d.exponent)) :
    Spells ('0' :: '.' :: List.replicate zeros '0' ++ Nat.toDigits 10 d.digits) d.value := by
  have hdigits : ∀ c ∈ List.replicate zeros '0' ++ Nat.toDigits 10 d.digits, c.isDigit = true := by
    intro c hc
    rcases List.mem_append.1 hc with hc | hc
    · exact Digits.isDigit_of_mem_zeros hc
    · exact Digits.isDigit_of_mem_toDigits hc
  have hne : List.replicate zeros '0' ++ Nat.toDigits 10 d.digits ≠ [] :=
    List.append_ne_nil_of_right_ne_nil _ Nat.toDigits_ne_nil
  -- Zeros in front do not count.
  have hvalue : Nat.ofDigitChars 10
      (['0'] ++ (List.replicate zeros '0' ++ Nat.toDigits 10 d.digits)) 0 = d.digits := by
    rw [List.singleton_append, Nat.ofDigitChars_cons, Nat.ofDigitChars_append,
      Nat.ofDigitChars_replicate_zero]
    simp only [Nat.sub_self, Nat.mul_zero, Nat.add_zero, Nat.ofDigitChars_ten_toDigits]
  have hspells := spells_of_parts ['0'] _ ⟨by simp, by simp, by simp⟩ hdigits
    (by rfl : exponent? [] = some none) endsDigits_nil (by simp) (Or.inl hne) (by decide)
  rw [hvalue, fractionText, if_neg hne, List.append_nil, Option.getD_none, List.length_append,
    List.length_replicate] at hspells
  rw [Decimal.value, show d.exponent =
    0 - ((zeros + (Nat.toDigits 10 d.digits).length : Nat) : Int) by omega]
  exact hspells

theorem spells_positional {d : Decimal} (h : d.digits ≠ 0) :
    Spells (positional (Nat.toDigits 10 d.digits) d.exponent) d.value := by
  unfold positional
  -- The point is behind the digits, among them, or in front of them.
  dsimp only
  split
  · rename_i hexp
    exact spells_whole h hexp
  · rename_i hexp
    split
    · exact spells_inside h (by omega) (by omega) (by omega)
    · exact spells_below (by omega)

theorem spells_scientific {d : Decimal} (h : d.digits ≠ 0) {e : Int}
    (he : e = (Nat.toDigits 10 d.digits).length - 1 + d.exponent)
    (hlimit : e.natAbs ≤ exponentLimit) :
    Spells (scientific (Nat.toDigits 10 d.digits) e) d.value := by
  have hlen : 0 < (Nat.toDigits 10 d.digits).length := Nat.length_toDigits_pos
  -- The exponent always has a sign, and it is read with it.
  have hexponent : exponent? ('e' :: (if e < 0 then '-' else '+') :: Nat.toDigits 10 e.natAbs) =
      some (some e) := by
    split
    all_goals
      simp only [exponent?, Numeral.signed?, Numeral.natural?_toDigits, Option.map_some,
        Int.ofNat_eq_natCast, Option.some.injEq]
      omega
  have hends : EndsDigits ('e' :: (if e < 0 then '-' else '+') :: Nat.toDigits 10 e.natAbs) := by
    intro c hc
    cases hc
    rfl
  have hfraction : fractionText ((Nat.toDigits 10 d.digits).drop 1) =
      if (Nat.toDigits 10 d.digits).length ≤ 1 then []
      else '.' :: (Nat.toDigits 10 d.digits).drop 1 := by
    simp only [fractionText, List.drop_eq_nil_iff]
  have hspells := spells_of_parts _ ((Nat.toDigits 10 d.digits).drop 1)
    (isWhole_take_toDigits h Nat.one_pos)
    (fun c hc => Digits.isDigit_of_mem_toDigits (List.mem_of_mem_drop hc)) hexponent hends
    (by simp) (Or.inr rfl) hlimit
  rw [List.take_append_drop, Nat.ofDigitChars_ten_toDigits, List.length_drop, Option.getD_some,
    hfraction] at hspells
  rw [scientific, List.append_assoc, Decimal.value, show d.exponent =
    e - (((Nat.toDigits 10 d.digits).length - 1 : Nat) : Int) by omega]
  exact hspells

/-- The exponent of a decimal in scientific notation is bounded as its value is. -/
theorem natAbs_exponent_le {d : Decimal} (h : d.digits ≠ 0)
    (hlower : (10 : ℚ) ^ (-400 : Int) ≤ d.value) (hupper : d.value < 10 ^ (400 : Int)) :
    ((Nat.toDigits 10 d.digits).length - 1 + d.exponent : Int).natAbs ≤ exponentLimit := by
  have hlen : 0 < (Nat.toDigits 10 d.digits).length := Nat.length_toDigits_pos
  have habove : (d.digits : ℚ) < 10 ^ ((Nat.toDigits 10 d.digits).length : Int) := by
    rw [zpow_natCast]
    exact_mod_cast (Nat.length_toDigits_le_iff (b := 10) (by decide) hlen).1 le_rfl
  have hbelow : (10 : ℚ) ^ ((Nat.toDigits 10 d.digits).length - 1 : Int) ≤ d.digits := by
    have hnat : 10 ^ ((Nat.toDigits 10 d.digits).length - 1) ≤ d.digits := by
      rcases Nat.eq_zero_or_pos ((Nat.toDigits 10 d.digits).length - 1) with hzero | hmore
      · rw [hzero]
        exact Nat.pos_of_ne_zero h
      · refine Nat.not_lt.1 fun hlt => ?_
        have hshort := (Nat.length_toDigits_le_iff (b := 10) (by decide) hmore).2 hlt
        omega
    rw [← Nat.cast_pred hlen, zpow_natCast]
    exact_mod_cast hnat
  generalize ((Nat.toDigits 10 d.digits).length : Int) = length at habove hbelow ⊢
  have hgreater : (10 : ℚ) ^ (length - 1 + d.exponent) < 10 ^ (400 : Int) := by
    refine lt_of_le_of_lt ?_ hupper
    rw [zpow_add₀ (by norm_num), Decimal.value]
    gcongr
  have hless : (10 : ℚ) ^ (-400 : Int) < 10 ^ (length + d.exponent) := by
    refine hlower.trans_lt ?_
    rw [zpow_add₀ (by norm_num), Decimal.value]
    gcongr
  have hlt := (zpow_lt_zpow_iff_right₀ (by norm_num : (1 : ℚ) < 10)).1 hgreater
  have hgt := (zpow_lt_zpow_iff_right₀ (by norm_num : (1 : ℚ) < 10)).1 hless
  rw [exponentLimit]
  omega

/-- The magnitude of a binary64 number as its text names it. -/
def named (x : Binary64) : ℚ :=
  if x.isZero then 0 else x.shortest.value

/-- The magnitude of a binary64 number spells its shortest decimal. -/
theorem spells_magnitudeText (x : Binary64) : Spells (magnitudeText x) (named x) := by
  unfold magnitudeText named
  split
  · -- A zero is written with a fraction, or it would be read as an integer.
    have hspells := spells_of_parts ['0'] ['0'] ⟨by simp, by simp, by simp⟩
      (by simp) (by rfl : exponent? [] = some none) endsDigits_nil (by simp) (Or.inl (by simp))
      (by decide)
    rw [show Nat.ofDigitChars 10 (['0'] ++ ['0']) 0 = 0 by decide, Nat.cast_zero,
      zero_mul] at hspells
    exact hspells
  · rename_i h
    have hzero : x.isZero = false := Bool.not_eq_true _ ▸ h
    have hdigits := (Binary64.shortest_digits_pos hzero).ne'
    dsimp only
    split
    · exact spells_positional hdigits
    · rcases Binary64.value_shortest_range hzero with ⟨hlower, hupper⟩
      exact spells_scientific hdigits rfl (natAbs_exponent_le hdigits hlower hupper)

theorem integer?_toDigits {negative : Bool} {n : Nat} (h : negative = true → n ≠ 0) :
    integer? ⟨negative, Nat.toDigits 10 n, [], none⟩ =
      some (if negative then -(n : Int) else n) := by
  simp only [integer?, List.isEmpty_nil, Option.isNone_none, Bool.and_self, if_true,
    Nat.ofDigitChars_ten_toDigits]
  cases negative with
  | true => rw [if_pos rfl, if_pos rfl, if_neg (h rfl)]
  | false => rw [if_neg Bool.false_ne_true, if_neg Bool.false_ne_true]

theorem ofInt?_val (n : Word) : Word.ofInt? n.val = some n := by
  rw [Word.ofInt?, dif_pos ⟨n.lower, n.upper⟩]

/-- The digits of a natural number are a token of it, behind either sign. -/
theorem ofChars?_toDigits (negative : Bool) (n : Nat) :
    ofChars? (signText negative ++ Nat.toDigits 10 n) =
      some ⟨negative, Nat.toDigits 10 n, [], none⟩ := by
  have hwhole : IsWhole (Nat.toDigits 10 n) := by
    -- A zero is the one whole part that starts with one.
    rcases Nat.eq_zero_or_pos n with rfl | hpos
    · exact ⟨by simp, by simp, by simp⟩
    · have h := isWhole_toDigits_append hpos.ne' [] (by simp)
      rwa [List.append_nil] at h
  have htoken := ofChars?_sign_append negative [] hwhole (by simp)
    (by rfl : exponent? [] = some none) endsDigits_nil (by simp)
  rwa [fractionText, if_pos rfl, List.append_nil, List.append_nil] at htoken

/-- A token of a number: the integer is read off it, or what it denotes is the
    number. -/
def IsToken (token : NumberToken) : Number → Prop
  | integer n => token.integer? = some n.val
  | float x => token.Denotes x.negative (named x)

/-- The text of a number is a token of it. -/
theorem exists_token (n : Number) :
    ∃ token, ofChars? n.text = some token ∧ IsToken token n := by
  cases n with
  | integer n =>
    rw [text, Numeral.ofInt]
    split
    · rename_i hneg
      have hval : n.val = -(n.val.natAbs : Int) := by omega
      refine ⟨_, ofChars?_toDigits true n.val.natAbs, ?_⟩
      rw [IsToken, integer?_toDigits (fun _ => by omega), if_pos rfl, ← hval]
    · rename_i hneg
      have hval : n.val = (n.val.natAbs : Int) := by omega
      refine ⟨_, ofChars?_toDigits false n.val.natAbs, ?_⟩
      rw [IsToken, integer?_toDigits (fun h => absurd h Bool.false_ne_true),
        if_neg Bool.false_ne_true, ← hval]
  | float x =>
    rcases spells_magnitudeText x x.negative with ⟨token, htoken, hdenotes⟩
    refine ⟨token, ?_, hdenotes⟩
    rw [← htoken, text]
    cases x.negative <;> rfl

/-- The number nearest to what a token denotes is the number it is a token of. -/
theorem ofDecimal?_of_denotes {token : NumberToken} {x : Binary64}
    (h : token.Denotes x.negative (named x)) :
    Binary64.ofDecimal? token.negative token.decimal = some x := by
  have hvalue := h.value
  rw [h.negative]
  unfold named at hvalue
  split at hvalue
  · rename_i hzero
    rw [Binary64.ofDecimal?_of_digits_eq_zero _ ((Decimal.value_eq_zero_iff _).1 hvalue),
      ← Binary64.eq_zero_of_isZero hzero]
  · rename_i hzero
    rw [Binary64.ofDecimal?_congr _ hvalue,
      Binary64.ofDecimal?_shortest (Bool.not_eq_true _ ▸ hzero)]

/-- So a token denotes one binary64 number. -/
theorem eq_of_denotes {token : NumberToken} {x y : Binary64}
    (hx : token.Denotes x.negative (named x)) (hy : token.Denotes y.negative (named y)) :
    x = y :=
  Option.some.inj ((ofDecimal?_of_denotes hx).symm.trans (ofDecimal?_of_denotes hy))

/-- Numbers with one text are one number. -/
theorem text_injective {m n : Number} (h : m.text = n.text) : m = n := by
  rcases exists_token m with ⟨token, htoken, hm⟩
  rcases exists_token n with ⟨other, hother, hn⟩
  rw [h] at htoken
  cases htoken.symm.trans hother
  cases m with
  | integer m =>
    rw [IsToken] at hm
    cases n with
    | integer n =>
      have hval : m.val = n.val := Option.some.inj (hm.symm.trans hn)
      have hword := ofInt?_val m
      rw [hval, ofInt?_val n] at hword
      rw [Option.some.inj hword]
    | float y =>
      rw [IsToken] at hn
      cases hm.symm.trans hn.float
  | float x =>
    rw [IsToken] at hm
    cases n with
    | integer n => cases hm.float.symm.trans hn
    | float y => rw [eq_of_denotes hm hn]

/-- The number that the text of a number is read as. -/
def reread (n : Number) : Number :=
  ((ofChars? n.text).bind ofToken?).getD n

section Reading

variable {token : NumberToken} {x : Binary64}

theorem ofToken?_of_denotes (h : token.Denotes x.negative (named x)) :
    ofToken? token = token.binary64?.map float := by
  rw [ofToken?, h.float]
  rfl

/-- The three greatest numbers of a sign, the greatest first. They are so near
    the end of the format that their texts have to be looked at. -/
def greatest (negative : Bool) (k : Fin 3) : Binary64 :=
  ⟨negative, 0x1fffffffffffff - k, 971, by revert k; decide⟩

theorem isSome_greatest :
    ∀ negative k,
      ((ofChars? (text (float (greatest negative k)))).bind ofToken?).isSome = true := by
  decide +kernel

/-- A number that is not one of them is named as one well within the format. -/
theorem named_lt (h : x.exponent < 971 ∨ x.significand + 4 ≤ 0x20000000000000) :
    named x * (1 + Binary64.roundoff) ^ 2 < Binary64.overflow := by
  rcases x.canonical with ⟨hsignificand, -, hexponent, -⟩
  have hunit : (2 : ℚ) ^ x.exponent ≤ 2 ^ (971 : Int) := zpow_le_zpow_right₀ (by norm_num) hexponent
  -- A unit that is not the greatest is at most a half of it.
  have hhalf : x.exponent < 971 → (2 : ℚ) ^ x.exponent ≤ 2 ^ (971 : Int) * 2⁻¹ := by
    intro hsmall
    rw [← zpow_sub_one₀ two_ne_zero]
    exact zpow_le_zpow_right₀ (by norm_num) (by omega)
  have hshortest := x.isZero.eq_false_or_eq_true.symm.imp_left fun hzero =>
    (Binary64.value_shortest_bounds hzero).1
  have hleast : (0 : ℚ) < 2 ^ x.exponent := by positivity
  have hgreatest : (0 : ℚ) < 2 ^ (971 : Int) := by positivity
  have hround := Binary64.roundoff_pos
  rw [Binary64.overflow]
  rw [Binary64.value] at hshortest
  generalize (2 : ℚ) ^ (971 : Int) = greatest at *
  generalize (2 : ℚ) ^ x.exponent = unit at *
  have hgreat : x.significand * unit + unit / 2 ≤ (0x20000000000000 - 7 / 2) * greatest := by
    rcases h with hsmall | hfew
    · have hcast : (x.significand : ℚ) ≤ 0x20000000000000 := by exact_mod_cast hsignificand.le
      have hless := mul_le_mul_of_nonneg_right hcast hleast.le
      linarith [hhalf hsmall]
    · have hcast : (x.significand : ℚ) + 4 ≤ 0x20000000000000 := by exact_mod_cast hfew
      have hless := mul_le_mul_of_nonneg_right hcast hleast.le
      linarith
  have hnamed : named x ≤ (0x20000000000000 - 7 / 2) * greatest := by
    rw [named]
    rcases hshortest with hle | hzero
    · split
      · positivity
      · exact hle.trans hgreat
    · rw [if_pos hzero]
      positivity
  calc named x * (1 + Binary64.roundoff) ^ 2
      ≤ (0x20000000000000 - 7 / 2) * greatest * (1 + Binary64.roundoff) ^ 2 := by gcongr
    _ = (0x20000000000000 - 7 / 2) * (1 + Binary64.roundoff) ^ 2 * greatest := by ring
    _ < (0x20000000000000 - 1 / 2) * greatest := by
      rw [Binary64.roundoff]
      gcongr
      norm_num

/-- Any other number is one of them. -/
theorem exists_eq_greatest (h : ¬(x.exponent < 971 ∨ x.significand + 4 ≤ 0x20000000000000)) :
    ∃ k, x = greatest x.negative k := by
  have hcanonical := x.canonical
  cases x with
  | mk negative significand exponent _ =>
    rcases hcanonical with ⟨hsignificand, -, hexponent, -⟩
    dsimp only at h hsignificand hexponent
    have hlast : exponent = 971 := by omega
    have hfill : significand = 0x1fffffffffffff - (0x1fffffffffffff - significand) := by omega
    subst hlast
    refine ⟨⟨0x1fffffffffffff - significand, by omega⟩, ?_⟩
    simp only [greatest, Binary64.mk.injEq, true_and, and_true]
    exact hfill

/-- The text of a number is read. -/
theorem exists_token_text (n : Number) :
    ∃ token, ofChars? n.text = some token ∧ ofToken? token = some n.reread := by
  have hread : ∃ found, ∃ token, ofChars? n.text = some token ∧ ofToken? token = some found := by
    rcases exists_token n with ⟨token, htoken, hn⟩
    cases n with
    | integer n => exact ⟨_, token, htoken, ofToken?_integer hn (ofInt?_val n)⟩
    | float x =>
      by_cases h : x.exponent < 971 ∨ x.significand + 4 ≤ 0x20000000000000
      · have hlt := named_lt h
        rw [← hn.value] at hlt
        rcases exists_binary64? hn.isDigit hn.exponent hlt with ⟨y, hy⟩
        refine ⟨float y, token, htoken, ?_⟩
        rw [ofToken?_of_denotes hn, hy]
        rfl
      · rcases exists_eq_greatest h with ⟨k, hk⟩
        have hsome := isSome_greatest x.negative k
        rw [← hk, htoken, Option.bind_some] at hsome
        rcases Option.isSome_iff_exists.1 hsome with ⟨found, hfound⟩
        exact ⟨found, token, htoken, hfound⟩
  rcases hread with ⟨found, token, htoken, hfound⟩
  refine ⟨token, htoken, ?_⟩
  rw [reread, htoken, Option.bind_some, hfound, Option.getD_some]

theorem reread_eq_self_iff {n : Number} {token : NumberToken} (h : ofChars? n.text = some token) :
    n.reread = n ↔ ofToken? token = some n := by
  rcases exists_token_text n with ⟨other, hother, hread⟩
  cases h.symm.trans hother
  rw [hread, Option.some.injEq]

/-- Integers are read back. -/
theorem reread_integer (n : Word) : (integer n).reread = integer n := by
  rcases exists_token (integer n) with ⟨token, htoken, hn⟩
  exact (reread_eq_self_iff htoken).2 (ofToken?_integer hn (ofInt?_val n))

/-- So are numbers with a short text. -/
theorem reread_of_short (htoken : ofChars? (float x).text = some token)
    (hshort : token.decimal.digits < 2 ^ 53) (hscale : token.decimal.exponent.natAbs ≤ 22) :
    (float x).reread = float x := by
  rcases exists_token (float x) with ⟨other, hother, hx⟩
  cases htoken.symm.trans hother
  rw [reread_eq_self_iff htoken, ofToken?_of_denotes hx,
    binary64?_eq_ofDecimal? hx.exponent hshort hscale, ofDecimal?_of_denotes hx]
  rfl

end Reading

end Number

end Fieldwork
