import Fieldwork.Proofs.Submission.Spelling

/-!
# Numbers and Their Numerals

A number of a request, sent as an integer or as one of its numerals.

A numeral has blanks around it, a sign and zeros in front if somebody likes,
so one number has many. It is read into a word of 128 bits and then narrowed to
one of 64, and neither step may turn a numeral that is too long into some other
number. The wide word is read with every step checked, so what is read is the
exact value or nothing; and what the wide word cannot hold, the narrow one
could not hold either.

So a value is taken for the number that it denotes or it is refused, and a
query cannot tell by which of its spellings a number was sent. The two kinds
of zero show the border between integers and numerals: a JSON number `-0` is
binary64 and denotes nothing, while the numeral `-0` is one of zero.

## Main definitions

* `SameNumbers`: Two values of a parameter denote the same numbers.

## Theorems

* `coerce?_eq_none_iff`, `coerce?_of_outside`: What denotes no number is
  refused, as is a numeral of one that does not fit.
* `int128?_eq_signed?`: The wide word holds the exact value.
* `alike_of_sameNumbers`: Spellings of the same numbers are alike.
* `coerce?_exact`: All of this, and what it means for a query.
-/

namespace Fieldwork

namespace Numeral

/-- The wide word is the exact value of a numeral, or there is none. -/
theorem int128?_eq_signed? {cs : List Char} {y : BitVec 128} :
    int128? cs = some y ↔ signed? cs = some y.toInt :=
  int128?_eq_some_iff.trans signed?_eq_some_iff.symm

/-- A numeral has one value. -/
theorem IsNumeral.unique {cs : List Char} {m n : Int} (hm : IsNumeral cs m)
    (hn : IsNumeral cs n) : m = n :=
  Option.some.inj ((signed?_eq_some_iff.2 hm).symm.trans (signed?_eq_some_iff.2 hn))

end Numeral

namespace Submission

/-- Two values of a parameter denote the same numbers: the same one, or the
    same ones in a list. -/
inductive SameNumbers : Parameter → Json → Json → Prop where
  /-- A place to start at or a bound. -/
  | single {parameter : Parameter} {x y : Json} {n : Nat}
    (hp : parameter = .start ∨ parameter = .limit) (hx : x.Denotes n) (hy : y.Denotes n) :
    SameNumbers parameter x y
  /-- A choice of submissions. -/
  | list {xs ys : List Json} (h : List.Forall₂ (fun x y => ∃ n, x.Denotes n ∧ y.Denotes n) xs ys) :
    SameNumbers .instanceIds (.array xs) (.array ys)

section Refusal

/-- What denotes no number is refused, and nothing else is. -/
theorem coerce?_eq_none_iff {value : Json} : coerce? value = none ↔ ∀ n, ¬ value.Denotes n := by
  rw [Option.eq_none_iff_forall_ne_some]
  constructor
  · intro h n hn
    rcases exists_coerce?_of_denotes hn with ⟨m, hm, -⟩
    exact h m hm
  · intro h m hm
    exact h m.toNat (coerce?_eq_some_iff.1 hm)

/-- A numeral of an integer that does not fit is refused. -/
theorem coerce?_of_outside {text : String} {m : Int}
    (hm : Numeral.IsNumeral (Text.trim text.toList) m)
    (hout : ¬ (0 ≤ m ∧ m < 0x10000000000000000)) : coerce? (.string text) = none := by
  refine coerce?_eq_none_iff.2 fun n hn => hout ?_
  cases hn with
  | numeral hnumeral bound =>
    -- Both are values of this text, so the integer is the number that fits.
    have hvalue := hm.unique hnumeral
    omega

end Refusal

section Spellings

variable {x y : Json} {n : Nat}

theorem coerce?_congr (hx : x.Denotes n) (hy : y.Denotes n) : coerce? x = coerce? y := by
  rcases exists_coerce?_of_denotes hx with ⟨m, hm, hvalue⟩
  rw [hm, coerce?_eq_some_iff.2 (hvalue.symm ▸ hy)]

theorem startOf_congr (hx : x.Denotes n) (hy : y.Denotes n) :
    startOf (some x) = startOf (some y) := by
  rw [startOf, startOf, coerce?_congr hx hy]

theorem ne_null_of_denotes (h : x.Denotes n) : x ≠ .null := by
  rintro rfl
  cases h

theorem limitOf_congr (hx : x.Denotes n) (hy : y.Denotes n) :
    limitOf (some x) = limitOf (some y) := by
  -- A number is not `null`, so neither value is taken for no bound.
  rw [limitOf.eq_3 x (ne_null_of_denotes hx), limitOf.eq_3 y (ne_null_of_denotes hy),
    coerce?_congr hx hy]

theorem instanceIdsOfItems_congr {xs ys : List Json}
    (h : List.Forall₂ (fun x y => ∃ n, x.Denotes n ∧ y.Denotes n) xs ys) :
    instanceIdsOfItems xs = instanceIdsOfItems ys := by
  induction h with
  | nil => rfl
  | cons hitem _ ih =>
    rcases hitem with ⟨n, hx, hy⟩
    rw [instanceIdsOfItems, instanceIdsOfItems, coerce?_congr hx hy, ih]

/-- The check of a parameter does not tell spellings of the same numbers
    apart. -/
theorem alike_of_sameNumbers {parameter : Parameter} (h : SameNumbers parameter x y) :
    Alike x y parameter := by
  cases h with
  | single hp hx hy =>
    rcases hp with rfl | rfl
    · exact startOf_congr hx hy
    · exact limitOf_congr hx hy
  | list h => exact instanceIdsOfItems_congr h

end Spellings

/-- A value is taken for the number that it denotes, and refused if it denotes
    none: a numeral of an integer that is negative or too great is refused
    whatever its length, because the word that it is read into holds its exact
    value or nothing. What was sent for a place to start at, a bound or a
    choice of submissions can be replaced by any other spelling of the same
    numbers without a difference to the query, whatever else is sent and asked
    for. -/
theorem coerce?_exact :
    (∀ value n, coerce? value = some n ↔ value.Denotes n.toNat) ∧
    (∀ value, coerce? value = none ↔ ∀ n, ¬ value.Denotes n) ∧
    (∀ text m, Numeral.IsNumeral (Text.trim text.toList) m →
      ¬ (0 ≤ m ∧ m < 0x10000000000000000) → coerce? (.string text) = none) ∧
    (∀ cs y, Numeral.int128? cs = some y ↔ Numeral.signed? cs = some y.toInt) ∧
    ∀ parameter x y, SameNumbers parameter x y → ∀ (r : Request) {m : Type → Type} [Monad m]
      (provider : PermissionProvider m),
      (r.send parameter x).validate provider = (r.send parameter y).validate provider := by
  refine ⟨fun _ _ => coerce?_eq_some_iff, fun _ => coerce?_eq_none_iff,
    fun _ _ => coerce?_of_outside, fun _ _ => Numeral.int128?_eq_signed?, ?_⟩
  intro parameter x y h r m _ provider
  exact Request.validate_send_of_alike provider r (alike_of_sameNumbers h)

/-- Forty-two in several spellings, and numerals of integers that do not fit:
    one too many, one too few, and one that is too long for the wide word. -/
theorem coerce?_exact_spellings :
    let padded := "\u3000+00042\n"
    let huge := String.ofList ('1' :: List.replicate 60 '0')
    let provider : PermissionProvider Id := fun _ _ => .ok Scope.unconstrained
    let asked (parameter : Parameter) (value : Json) :=
      ((Request.bareRequest .list).send parameter value).validate provider
    coerce? (.string padded) = some 42 ∧ coerce? (.string "18446744073709551616") = none ∧
      coerce? (.string " -1") = none ∧ coerce? (.string huge) = none ∧
      SameNumbers .limit (.ofUInt64 42) (.string padded) ∧
      asked .limit (.ofUInt64 42) = asked .limit (.string padded) ∧
      asked .instanceIds (.array [.string "-0", .ofUInt64 42]) =
        asked .instanceIds (.array [.ofUInt64 0, .string padded]) := by
  intro padded huge provider asked
  rcases coerce?_exact with ⟨htaken, -, hrefused, -, hsame⟩
  have hread {text : String} {m : Int} (h : Numeral.signed? (Text.trim text.toList) = some m) :
      Numeral.IsNumeral (Text.trim text.toList) m := Numeral.signed?_eq_some_iff.1 h
  have hpadded : (Json.string padded).Denotes 42 := .numeral (hread (by decide)) (by decide)
  have hzero : (Json.string "-0").Denotes 0 := .numeral (hread (by decide)) (by decide)
  have hinteger (n : UInt64) : (Json.ofUInt64 n).Denotes n.toNat := .integer rfl
  have hlimit : SameNumbers .limit (.ofUInt64 42) (.string padded) :=
    .single (.inr rfl) (hinteger 42) hpadded
  have hids : SameNumbers .instanceIds (.array [.string "-0", .ofUInt64 42])
      (.array [.ofUInt64 0, .string padded]) :=
    .list (.cons ⟨0, hzero, hinteger 0⟩ (.cons ⟨42, hinteger 42, hpadded⟩ .nil))
  exact ⟨(htaken _ 42).2 hpadded,
    hrefused _ 18446744073709551616 (hread (by decide)) (by decide),
    hrefused _ (-1) (hread (by decide)) (by decide),
    hrefused _ (10 ^ 60) (hread (by decide)) (by decide), hlimit,
    hsame _ _ _ hlimit (Request.bareRequest .list) provider,
    hsame _ _ _ hids (Request.bareRequest .list) provider⟩

end Submission

end Fieldwork
