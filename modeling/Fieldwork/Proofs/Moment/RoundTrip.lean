import Mathlib.Data.List.TakeWhile
import Fieldwork.Moment.Text
import Fieldwork.Proofs.Moment.Calendar
import Fieldwork.Proofs.Text.Digits

/-!
# Moments Read Back

A moment that was read can be written and read again.

Two things can make a moment: a text, and a count of milliseconds. A text
gives a clock reading of a year of four digits, with any offset and any
fraction, and such a reading has a text of its own. A count gives a reading in
UTC whose year may be negative. That one has no text, but it is written as the
count that it came from, and nothing below a millisecond was ever in it. So
the written form of a moment depends on its year, and each of the two forms
takes back exactly what it was made for.

`OnClock` collects what the parts of a moment from a text satisfy. It is what
writing needs: every part then fits the width it is written with.

## Main definitions

* `OnClock`: The parts are those that a clock can show.
* `Known`: What a text or a count of milliseconds can stand for.

## Theorems

* `digits?_lt`: A number of a fixed width is below its power of ten.
* `fraction?_fractionText`, `offset?_offsetText`: The two parts of variable
  width read back.
* `onClock_of_ofText?`, `onClock_ofUnixMillis`: What readers build is on the
  clock.
* `ofText?_text?`: A written moment reads back.
* `Known.onClock`: A known moment is on the clock.
* `Known.exists_millis_of_text?_eq_none`: A known moment without a text is
  written as the count that it came from.
-/

namespace Fieldwork

namespace Moment

/-- The parts of a moment are those that a clock can show. -/
structure OnClock (m : Moment) : Prop where
  /-- The calendar has the date. -/
  date : m.date.IsReal
  /-- The hour is one of a day. -/
  hour : m.hour < 24
  /-- The minute is one of an hour. -/
  minute : m.minute < 60
  /-- The second is one of a minute. -/
  second : m.second < 60
  /-- The nanosecond is one of a second. -/
  nanosecond : m.nanosecond < 1000000000
  /-- The offset is less than a day. -/
  offset : m.offset.natAbs < 1440

theorem digits?_lt {count n : Nat} {cs rest : List Char} (h : digits? count cs = some (n, rest)) :
    n < 10 ^ count := by
  unfold digits? at h
  simp only [Option.ite_none_right_eq_some, Option.some.injEq, Prod.mk.injEq] at h
  rcases h with ⟨⟨hlen, hall⟩, rfl, -⟩
  have bound := Digits.ofDigitChars_lt (List.all_eq_true.1 hall)
  rwa [hlen] at bound

theorem fraction?_lt {n : Nat} {cs rest : List Char} (h : fraction? cs = some (n, rest)) :
    n < 1000000000 := by
  unfold fraction? at h
  split at h
  · rename_i cs
    split at h
    · cases h
    · rename_i hne
      simp only [Option.some.injEq, Prod.mk.injEq] at h
      rcases h with ⟨rfl, -⟩
      -- What is read are the digits with zeros behind them, cut to nine.
      have hdigits : ∀ c ∈ (cs.takeWhile Char.isDigit ++ List.replicate 9 '0').take 9,
          c.isDigit = true := by
        intro c hc
        rcases List.mem_append.1 (List.mem_of_mem_take hc) with hc | hc
        · exact List.mem_takeWhile_imp hc
        · exact Digits.isDigit_of_mem_zeros hc
      have bound := Digits.ofDigitChars_lt hdigits
      have hlen : ((cs.takeWhile Char.isDigit ++ List.replicate 9 '0').take 9).length = 9 := by
        rw [List.length_take, List.length_append, List.length_replicate]
        omega
      rw [hlen] at bound
      exact bound
  · simp only [Option.some.injEq, Prod.mk.injEq] at h
    omega

theorem natAbs_offset?_lt {n : Int} {cs : List Char} (h : offset? cs = some n) :
    n.natAbs < 1440 := by
  unfold offset? at h
  split at h
  · cases h
    decide
  · cases h
    decide
  · split at h
    -- The sign is a plus, a minus or neither; the last fails at once.
    all_goals try split at h
    all_goals simp only [Option.bind_eq_bind, Option.bind_some, Option.bind_none, reduceCtorEq,
      Option.bind_eq_some_iff, Option.ite_none_right_eq_some, Option.some.injEq, if_true,
      if_false, Bool.false_eq_true] at h
    all_goals
      rcases h with ⟨hour, -, _, -, minute, -, ⟨hh, hm, -⟩, rfl⟩
      omega
  · cases h

/-- The parts of a text, before it is decided whether a clock can show
    them. -/
theorem exists_parts_of_ofText? {cs : List Char} {m : Moment} (h : ofText? cs = some m) :
    ∃ (year month day hour minute second nanosecond : Nat) (offset : Int),
      year < 10 ^ 4 ∧ nanosecond < 1000000000 ∧ offset.natAbs < 1440 ∧
        ofParts? ⟨year, month, day⟩ hour minute second nanosecond offset = some m := by
  rcases Option.bind_eq_some_iff.1 h with ⟨⟨year, _⟩, hyear, h⟩
  rcases Option.bind_eq_some_iff.1 h with ⟨_, -, h⟩
  rcases Option.bind_eq_some_iff.1 h with ⟨⟨month, _⟩, -, h⟩
  rcases Option.bind_eq_some_iff.1 h with ⟨_, -, h⟩
  rcases Option.bind_eq_some_iff.1 h with ⟨⟨day, clock⟩, -, h⟩
  -- Between the date and the clock stands one character of one byte.
  cases clock with
  | nil => cases h
  | cons separator rest =>
    dsimp only at h
    split at h
    · rcases Option.bind_eq_some_iff.1 h with ⟨_, -, h⟩
      rcases Option.bind_eq_some_iff.1 h with ⟨⟨hour, _⟩, -, h⟩
      rcases Option.bind_eq_some_iff.1 h with ⟨_, -, h⟩
      rcases Option.bind_eq_some_iff.1 h with ⟨⟨minute, _⟩, -, h⟩
      rcases Option.bind_eq_some_iff.1 h with ⟨_, -, h⟩
      rcases Option.bind_eq_some_iff.1 h with ⟨⟨second, _⟩, -, h⟩
      rcases Option.bind_eq_some_iff.1 h with ⟨⟨nanosecond, _⟩, hfraction, h⟩
      rcases Option.bind_eq_some_iff.1 h with ⟨offset, hoffset, hparts⟩
      exact ⟨year, month, day, hour, minute, second, nanosecond, offset, digits?_lt hyear,
        fraction?_lt hfraction, natAbs_offset?_lt hoffset, hparts⟩
    · cases h

/-- What a text stands for is on the clock, and its year has four digits. -/
theorem onClock_of_ofText? {cs : List Char} {m : Moment} (h : ofText? cs = some m) :
    m.OnClock ∧ 0 ≤ m.date.year ∧ m.date.year ≤ 9999 := by
  rcases exists_parts_of_ofText? h with
    ⟨year, month, day, hour, minute, second, nanosecond, offset, hy, hn, ho, hparts⟩
  unfold ofParts? at hparts
  split at hparts
  · rename_i hreal
    rcases hreal with ⟨hdate, hh, hm⟩
    split at hparts
    · rename_i hs
      cases hparts
      exact ⟨⟨hdate, hh, hm, hs, hn, ho⟩, by simp only; omega, by simp only; omega⟩
    · -- A leap second is the last nanosecond before it.
      simp only [Option.ite_none_right_eq_some, Option.some.injEq] at hparts
      rcases hparts with ⟨-, -, rfl⟩
      exact ⟨⟨hdate, hh, hm, by simp only; omega, by simp only; omega, ho⟩,
        by simp only; omega, by simp only; omega⟩
  · cases hparts

/-- A clock that is set by a count of milliseconds shows a real date and a
    time of day. -/
theorem onClock_ofUnixMillis (millis : Int) : (ofUnixMillis millis).OnClock := by
  refine ⟨Date.isReal_ofDays _, ?_, ?_, ?_, ?_, ?_⟩
  all_goals
    simp only [ofUnixMillis]
    omega

theorem isDigit_of_mem_padded {width n : Nat} {c : Char} (h : c ∈ padded width n) :
    c.isDigit = true := by
  rcases List.mem_append.1 h with h | h
  · exact Digits.isDigit_of_mem_zeros h
  · exact Digits.isDigit_of_mem_toDigits h

theorem ofDigitChars_padded (width n : Nat) : Nat.ofDigitChars 10 (padded width n) 0 = n := by
  simp [padded, Nat.ofDigitChars_append, Nat.ofDigitChars_replicate_zero]

/-- A fraction without the zeros at its end, filled up again. -/
theorem take_stripped_append_zeros {digits : List Char} {width : Nat} (h : digits.length = width) :
    ((digits.reverse.dropWhile (· == '0')).reverse ++ List.replicate width '0').take width =
      digits := by
  -- What was stripped is a run of zeros, and `width` zeros are enough of them.
  have hzeros : digits.reverse.takeWhile (· == '0') =
      List.replicate (digits.reverse.takeWhile (· == '0')).length '0' := by
    rw [List.eq_replicate_iff]
    exact ⟨rfl, fun c hc => by simpa using List.mem_takeWhile_imp hc⟩
  have hsplit : (digits.reverse.dropWhile (· == '0')).reverse ++
      (digits.reverse.takeWhile (· == '0')).reverse = digits := by
    rw [← List.reverse_append, List.takeWhile_append_dropWhile, List.reverse_reverse]
  generalize (digits.reverse.takeWhile (· == '0')).length = count at hzeros
  rw [hzeros, List.reverse_replicate] at hsplit
  generalize (digits.reverse.dropWhile (· == '0')).reverse = front at hsplit ⊢
  have hlen : front.length + count = width := by
    rw [← h, ← hsplit, List.length_append, List.length_replicate]
  rw [List.take_append, List.take_of_length_le (by omega), List.take_replicate, ← hsplit]
  congr 2
  omega

/-- A written fraction reads back where no digit follows it. -/
theorem fraction?_fractionText {n : Nat} (h : n < 1000000000) {c : Char}
    (hc : c.isDigit = false) (hpoint : c ≠ '.') (rest : List Char) :
    fraction? (fractionText n ++ c :: rest) = some (n, c :: rest) := by
  unfold fractionText
  by_cases hn : n = 0
  · -- No fraction is written, and what follows does not start one.
    rw [if_pos hn, List.nil_append, fraction?, hn]
    intro cs e
    cases e
    exact hpoint rfl
  · rw [if_neg hn]
    have hlen : (padded 9 n).length = 9 := length_padded (by decide) h
    have hfill := take_stripped_append_zeros hlen
    have hdigits : ∀ d ∈ ((padded 9 n).reverse.dropWhile (· == '0')).reverse,
        d.isDigit = true := by
      intro d hd
      rw [List.mem_reverse] at hd
      exact isDigit_of_mem_padded (List.mem_reverse.1 ((List.dropWhile_sublist _).mem hd))
    have hvalue : Nat.ofDigitChars 10 ((((padded 9 n).reverse.dropWhile (· == '0')).reverse ++
        List.replicate 9 '0').take 9) 0 = n := by
      rw [hfill, ofDigitChars_padded]
    -- A number that is not zero has a digit that is not.
    have hne : ((padded 9 n).reverse.dropWhile (· == '0')).reverse ≠ [] := by
      intro hnil
      rw [hnil] at hvalue
      exact hn hvalue.symm
    generalize ((padded 9 n).reverse.dropWhile (· == '0')).reverse = digits at *
    have hhead : ∀ d ∈ (c :: rest).head?, d.isDigit = false := by
      intro d hd
      cases hd
      exact hc
    rw [List.cons_append, fraction?, Digits.takeWhile_isDigit_append hdigits hhead,
      Digits.dropWhile_isDigit_append hdigits hhead]
    split
    · exact absurd rfl hne
    · rw [hvalue]

/-- The offset of a clock starts with a letter or a sign. -/
theorem offsetText_eq_cons (offset : Int) :
    ∃ c rest, offsetText offset = c :: rest ∧ c.isDigit = false ∧ c ≠ '.' := by
  unfold offsetText
  split
  · exact ⟨'Z', [], rfl, rfl, by decide⟩
  · split
    · exact ⟨'-', _, rfl, rfl, by decide⟩
    · exact ⟨'+', _, rfl, rfl, by decide⟩

theorem digits?_two {n : Nat} (h : n < 100) (rest : List Char) :
    digits? 2 (padded 2 n ++ rest) = some (n, rest) :=
  digits?_padded (by decide) h rest

/-- The hours and minutes of an offset read back behind its sign. -/
theorem offset?_sign {sign : Char} {hour minute : Nat} (hh : hour < 24) (hm : minute < 60)
    (hs : sign = '+' ∨ sign = '-') :
    offset? (sign :: padded 2 hour ++ ':' :: padded 2 minute) =
      some (if sign = '-' then -(hour * 60 + minute : Int) else hour * 60 + minute) := by
  have hhour := digits?_two (n := hour) (by omega) (':' :: padded 2 minute)
  have hminute := digits?_two (n := minute) (by omega) []
  rw [List.append_nil] at hminute
  have hne : padded 2 hour ++ ':' :: padded 2 minute ≠ [] := by simp
  rw [List.cons_append]
  -- The first clauses of `offset?` are about a sign or a letter alone.
  generalize padded 2 hour ++ ':' :: padded 2 minute = rest at hhour hne
  rcases hs with rfl | rfl
  all_goals
    rw [offset?]
    · simp [hhour, char?, hminute, hh, hm]
    · intro _ e
      exact hne e
    · intro _ e
      exact hne e

/-- A written offset reads back. -/
theorem offset?_offsetText {offset : Int} (h : offset.natAbs < 1440) :
    offset? (offsetText offset) = some offset := by
  unfold offsetText
  by_cases hz : offset = 0
  · rw [if_pos hz, hz]
    rfl
  · rw [if_neg hz]
    have hsplit := Nat.div_add_mod offset.natAbs 60
    by_cases hneg : offset < 0
    · rw [if_pos hneg, offset?_sign (by omega) (Nat.mod_lt _ (by decide)) (Or.inr rfl)]
      simp only [if_true, Option.some.injEq]
      omega
    · rw [if_neg hneg, offset?_sign (by omega) (Nat.mod_lt _ (by decide)) (Or.inl rfl)]
      simp only [show ¬ '+' = '-' by decide, if_false, Option.some.injEq]
      omega

/-- A written moment reads back. -/
theorem ofText?_text? {m : Moment} {cs : List Char} (h : m.OnClock) (ht : m.text? = some cs) :
    ofText? cs = some m := by
  unfold text? at ht
  rw [Option.ite_none_right_eq_some, Option.some.injEq] at ht
  rcases ht with ⟨hyear, rfl⟩
  rcases h with ⟨hdate, hhour, hminute, hsecond, hnano, hoffset⟩
  rcases Date.month_day_le_of_isReal hdate with ⟨hmonth, hday⟩
  -- The fraction ends where the offset begins, with no digit and no point.
  rcases offsetText_eq_cons m.offset with ⟨c, rest, htext, hdigit, hpoint⟩
  have hfraction := fraction?_fractionText hnano hdigit hpoint rest
  rw [← htext] at hfraction
  have hfour (tail : List Char) :
      digits? 4 (padded 4 m.date.year.toNat ++ tail) = some (m.date.year.toNat, tail) :=
    digits?_padded (by decide) (show m.date.year.toNat < 10000 by omega) tail
  have hparts : ofParts? ⟨m.date.year.toNat, m.date.month, m.date.day⟩ m.hour m.minute m.second
      m.nanosecond m.offset = some m := by
    have hnat : (m.date.year.toNat : Int) = m.date.year := by omega
    rw [ofParts?, hnat, if_pos ⟨hdate, hhour, hminute⟩, if_pos hsecond]
  simp only [List.append_assoc, List.cons_append]
  -- One step for each number of the text and one for each character between two.
  refine Option.bind_eq_some_iff.2 ⟨_, hfour _, ?_⟩
  refine Option.bind_eq_some_iff.2 ⟨_, rfl, ?_⟩
  refine Option.bind_eq_some_iff.2 ⟨_, digits?_two (by omega) _, ?_⟩
  refine Option.bind_eq_some_iff.2 ⟨_, rfl, ?_⟩
  refine Option.bind_eq_some_iff.2 ⟨_, digits?_two (by omega) _, ?_⟩
  dsimp only
  rw [if_pos (by decide)]
  refine Option.bind_eq_some_iff.2 ⟨_, rfl, ?_⟩
  refine Option.bind_eq_some_iff.2 ⟨_, digits?_two (by omega) _, ?_⟩
  refine Option.bind_eq_some_iff.2 ⟨_, rfl, ?_⟩
  refine Option.bind_eq_some_iff.2 ⟨_, digits?_two (by omega) _, ?_⟩
  refine Option.bind_eq_some_iff.2 ⟨_, rfl, ?_⟩
  refine Option.bind_eq_some_iff.2 ⟨_, digits?_two (by omega) _, ?_⟩
  refine Option.bind_eq_some_iff.2 ⟨_, hfraction, ?_⟩
  exact Option.bind_eq_some_iff.2 ⟨_, offset?_offsetText hoffset, hparts⟩

/-- What a text or a count of milliseconds can stand for. -/
inductive Known : Moment → Prop where
  /-- A moment that a text stands for. -/
  | ofText {cs : List Char} {m : Moment} (h : ofText? cs = some m) : Known m
  /-- A moment that a count of milliseconds stands for. -/
  | ofMillis {millis : Int64} {m : Moment} (h : ofUnixMillis? millis.toInt = some m) : Known m

theorem eq_of_ofUnixMillis? {millis : Int} {m : Moment} (h : ofUnixMillis? millis = some m) :
    m = ofUnixMillis millis := by
  unfold ofUnixMillis? at h
  rw [Option.ite_none_right_eq_some, Option.some.injEq] at h
  exact h.2.symm

/-- A known moment is on the clock. -/
theorem Known.onClock {m : Moment} (h : m.Known) : m.OnClock := by
  cases h with
  | ofText h => exact (onClock_of_ofText? h).1
  | ofMillis h =>
    rw [eq_of_ofUnixMillis? h]
    exact onClock_ofUnixMillis _

/-- A known moment without a text is one of a count of milliseconds, and it is
    written as that count. -/
theorem Known.exists_millis_of_text?_eq_none {m : Moment} (h : m.Known) (ht : m.text? = none) :
    ∃ millis : Int64, ofUnixMillis? millis.toInt = some m ∧ m.unixMillis = millis.toInt := by
  cases h with
  | ofText h =>
    -- The year of a text has four digits, so there is a text.
    have hyear := (onClock_of_ofText? h).2
    unfold text? at ht
    rw [if_pos hyear] at ht
    cases ht
  | ofMillis h =>
    refine ⟨_, h, ?_⟩
    rw [eq_of_ofUnixMillis? h, unixMillis_ofUnixMillis]

end Moment

end Fieldwork
