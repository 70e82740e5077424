import Fieldwork.Proofs.Extended.WellWrapped
import Fieldwork.Proofs.Text.Numerals
import Fieldwork.Submission.Validate
import Mathlib.Data.List.Forall2

/-!
# What Parameters Stand For

Which values a parameter may have, said without the checks.

Parameters are loosely typed. A number may come as an integer or as a numeral
with blanks around, and a JSON value as itself or as its text. `Denotes` and
`carried?` say what such a value stands for. On top of them each parameter has
one condition that it meets or not, whatever the other parameters are.

The functions that read numbers, values and directions are shown to agree with
this reading; how a whole check uses them is said elsewhere.

## Main definitions

* `Json.Denotes`: The number that a value stands for.
* `Json.carried?`: The JSON value that a parameter carries.
* `SameLetter`, `SameUpToCase`: Texts that differ in the case of letters only.
* `IsFilter`, `IsIdList`, `IsOrder`, `IsProjection`: What the structured
  parameters may be.

## Theorems

* `coerce?_eq_some_iff`: A number is taken exactly for what denotes it.
* `extendedOf_eq_ok_iff`: A value is decoded from what is carried.
* `exists_direction?_iff`: A direction is found exactly for what is one.
-/

namespace Fieldwork

namespace Json

/-- A value stands for a natural number that fits a word: it is that integer,
    or a text that is a numeral of it once the blanks around are gone. -/
inductive Denotes : Json → Nat → Prop where
  /-- The integer itself. -/
  | integer {w : Word} {n : Nat} (h : w.val = n) : Denotes (.number (.integer w)) n
  /-- A numeral. -/
  | numeral {text : String} {n : Nat} (h : Numeral.IsNumeral (Text.trim text.toList) n)
    (bound : n < 0x10000000000000000) : Denotes (.string text) n

theorem Denotes.lt {value : Json} {n : Nat} (h : value.Denotes n) : n < 0x10000000000000000 := by
  cases h with
  | @integer w n hw =>
    have := w.upper
    omega
  | numeral h bound => exact bound

/-- The JSON value that a parameter carries: a text carries what it reads as,
    and any other value carries itself. -/
def carried? : Json → Option Json
  | .string text => parse? text
  | value => some value

end Json

namespace Submission

/-- What a value of a parameter is converted to. -/
def Converts (value : Json) (v : Extended) : Prop :=
  ∃ j, value.carried? = some j ∧ Extended.decode j = .ok v

/-- A filter is anything whose wrappers are sound. -/
def IsFilter (value : Json) : Prop :=
  ∃ j, value.carried? = some j ∧ j.WellWrapped

/-- A list of numbers, sent as such. -/
def IsIdList (value : Json) : Prop :=
  ∃ items, value = .array items ∧ ∀ item ∈ items, ∃ n, item.Denotes n

/-- Two characters are one letter: they are equal, or the capital and the small
    letter at one place of the alphabet. -/
def SameLetter (c d : Char) : Prop :=
  c = d ∨ ∃ place < 26,
    c.toNat = 'A'.toNat + place ∧ d.toNat = 'a'.toNat + place ∨
      c.toNat = 'a'.toNat + place ∧ d.toNat = 'A'.toNat + place

/-- Two texts are the same letter by letter. -/
def SameUpToCase (text other : String) : Prop :=
  List.Forall₂ SameLetter text.toList other.toList

/-- The words for the two directions. -/
def directionWords : List String :=
  ["asc", "ascending", "desc", "descending"]

/-- A direction is one, less one, or a word for a direction in any case. An
    integer may be wrapped. -/
inductive IsDirection : Extended → Prop where
  /-- One or less one. -/
  | integer {w : Word} (h : w.val = 1 ∨ w.val = -1) : IsDirection (.number (.integer w))
  /-- The same in a wrapper. -/
  | long {n : Int64} (h : n = 1 ∨ n = -1) : IsDirection (.long n)
  /-- A word. -/
  | word {text : String} (h : ∃ word ∈ directionWords, SameUpToCase text word) :
    IsDirection (.string text)

/-- An order is a plain object of directions. -/
def IsOrder (value : Json) : Prop :=
  ∃ members, Converts value (.object members) ∧ ∀ member ∈ members, IsDirection member.2

/-- A choice of fields is a list of texts. -/
def IsProjection (value : Json) : Prop :=
  ∃ items, Converts value (.array items) ∧ ∀ item ∈ items, ∃ name, item = .string name

section Numbers

/-- A number is taken exactly for what denotes it. -/
theorem coerce?_eq_some_iff {value : Json} {n : UInt64} :
    coerce? value = some n ↔ value.Denotes n.toNat := by
  constructor
  · intro h
    unfold coerce? at h
    split at h
    · rename_i number
      cases number with
      | float x => cases h
      | integer w =>
        rw [Number.uint64?, Option.ite_none_right_eq_some, Option.some.injEq] at h
        rcases h with ⟨hlower, rfl⟩
        have hupper := w.upper
        refine .integer ?_
        rw [UInt64.toNat_ofNat_of_lt' (by rw [UInt64.size]; omega)]
        omega
    · rename_i text
      rcases Option.bind_eq_some_iff.1 h with ⟨m, hm, hn⟩
      refine .numeral ?_ n.toNat_lt
      rw [← Checked.toUInt64?_eq_some_iff.1 hn]
      exact Numeral.int128?_eq_some_iff.1 hm
    · cases h
  · intro h
    have hlt := n.toNat_lt
    cases h with
    | integer hw =>
      rw [coerce?, Number.uint64?, if_pos (by omega), hw, Int.toNat_natCast, UInt64.ofNat_toNat]
    | numeral hnumeral bound =>
      -- The number fits the narrow word, so it fits the wide one it is read into.
      have hwide : (BitVec.ofInt 128 n.toNat).toInt = n.toNat :=
        BitVec.toInt_ofInt_eq_self (by decide) (by omega) (by omega)
      exact Option.bind_eq_some_iff.2 ⟨BitVec.ofInt 128 n.toNat,
        Numeral.int128?_eq_some_iff.2 (hwide.symm ▸ hnumeral),
        Checked.toUInt64?_eq_some_iff.2 hwide⟩

/-- What is denoted fits a word, so it is taken. -/
theorem exists_coerce?_of_denotes {value : Json} {n : Nat} (h : value.Denotes n) :
    ∃ m : UInt64, coerce? value = some m ∧ m.toNat = n := by
  have hvalue : (UInt64.ofNat n).toNat = n := UInt64.toNat_ofNat_of_lt' h.lt
  exact ⟨UInt64.ofNat n, coerce?_eq_some_iff.2 (hvalue.symm ▸ h), hvalue⟩

theorem exists_coerce?_iff {value : Json} :
    (∃ n, coerce? value = some n) ↔ ∃ n, value.Denotes n := by
  constructor
  · rintro ⟨n, hn⟩
    exact ⟨n.toNat, coerce?_eq_some_iff.1 hn⟩
  · rintro ⟨n, hn⟩
    rcases exists_coerce?_of_denotes hn with ⟨m, hm, -⟩
    exact ⟨m, hm⟩

theorem exists_limit_iff {value : Json} :
    (∃ limit, (coerce? value).bind PageLimit.ofCount? = some limit) ↔
      ∃ n, value.Denotes n ∧ n ≠ 0 := by
  -- A limit is a count, and zero is the one count that is none.
  constructor
  · rintro ⟨limit, hlimit⟩
    rcases Option.bind_eq_some_iff.1 hlimit with ⟨n, hn, hcount⟩
    rw [PageLimit.ofCount?, Option.dite_none_right_eq_some] at hcount
    rcases hcount with ⟨hne, -⟩
    refine ⟨n.toNat, coerce?_eq_some_iff.1 hn, fun hzero => hne ?_⟩
    exact UInt64.toNat_inj.1 hzero
  · rintro ⟨n, hn, hne⟩
    rcases exists_coerce?_of_denotes hn with ⟨m, hm, rfl⟩
    have hcount : m ≠ 0 := fun hzero => hne (congrArg UInt64.toNat hzero)
    refine ⟨⟨m, hcount⟩, ?_⟩
    rw [hm, Option.bind_some, PageLimit.ofCount?, dif_pos hcount]

end Numbers

section Values

variable {parameter : Parameter} {value : Json}

/-- A value is decoded from what is carried. -/
theorem extendedOf_eq (parameter : Parameter) (value : Json) :
    extendedOf parameter value =
      match value.carried? with
      | some j => (Extended.decode j).mapError (.invalidJson parameter)
      | none => .error (.invalidJson parameter .malformed) := by
  cases value with
  | string text =>
    rw [extendedOf, Extended.parse, Json.carried?]
    cases Json.parse? text <;> rfl
  | _ => rfl

theorem extendedOf_eq_ok_iff {v : Extended} :
    extendedOf parameter value = .ok v ↔ Converts value v := by
  rw [extendedOf_eq, Converts]
  cases value.carried? with
  | none => simp
  | some j => simp [Fallible.mapError_eq_ok_iff]

theorem parameter_of_extendedOf {e : ClientError} (h : extendedOf parameter value = .error e) :
    e.parameter = parameter := by
  rw [extendedOf_eq] at h
  -- Both ways to fail name the parameter that was converted.
  cases hcarried : value.carried? with
  | none =>
    rw [hcarried] at h
    cases h
    rfl
  | some j =>
    cases hdecode : Extended.decode j with
    | ok v =>
      simp only [hcarried, hdecode] at h
      cases h
    | error _ =>
      simp only [hcarried, hdecode] at h
      cases h
      rfl

/-- What can be converted is what is well wrapped. -/
theorem exists_converts_iff : (∃ v, Converts value v) ↔ IsFilter value := by
  unfold Converts IsFilter
  rw [exists_comm]
  refine exists_congr fun j => ?_
  rw [exists_and_left, ← Extended.exists_ofJson_iff]
  exact and_congr_right' (exists_congr fun v => Extended.decode_eq_ok_iff)

theorem object?_eq_some_iff {v : Extended} {members : List (String × Extended)} :
    v.object? = some members ↔ v = .object members := by
  cases v <;> simp [Extended.object?]

theorem array?_eq_some_iff {v : Extended} {items : List Extended} :
    v.array? = some items ↔ v = .array items := by
  cases v <;> simp [Extended.array?]

theorem string?_eq_some_iff {v : Extended} {text : String} :
    v.string? = some text ↔ v = .string text := by
  cases v <;> simp [Extended.string?]

end Values

section Directions

/-- One of two words is found exactly when one of their conditions holds. -/
theorem exists_choice_iff {α : Type} {p q : Prop} [Decidable p] [Decidable q] {a b : α} :
    (∃ c, (if p then some a else if q then some b else none) = some c) ↔ p ∨ q := by
  by_cases hp : p
  · simp [hp]
  · by_cases hq : q <;> simp [hp, hq]

theorem int64?_eq_some_iff {w : Word} {n : Int64} :
    (Number.integer w).int64? = some n ↔ w.val = n.toInt := by
  have hlower := w.lower
  have hle := n.le_toInt
  have hlt := n.toInt_lt
  rw [Number.int64?, Option.ite_none_right_eq_some, Option.some.injEq]
  constructor
  · rintro ⟨hupper, rfl⟩
    rw [Int64.toInt_ofInt_of_le (by omega) (by omega)]
  · intro h
    exact ⟨by omega, by rw [h, Int64.ofInt_toInt]⟩

theorem toNat_toLower (c : Char) :
    c.toLower.toNat = if 65 ≤ c.toNat ∧ c.toNat ≤ 90 then c.toNat + 32 else c.toNat := by
  have hiff : (c.val ≥ 'A'.val ∧ c.val ≤ 'Z'.val) ↔ 65 ≤ c.toNat ∧ c.toNat ≤ 90 := by
    rw [ge_iff_le, UInt32.le_iff_toNat_le, UInt32.le_iff_toNat_le]
    exact Iff.rfl
  unfold Char.toLower
  by_cases h : c.val ≥ 'A'.val ∧ c.val ≤ 'Z'.val
  · have hle := (hiff.1 h).2
    have hshift : ('a'.val - 'A'.val).toNat = 32 := rfl
    rw [dif_pos h, if_pos (hiff.1 h)]
    show (c.val + ('a'.val - 'A'.val)).toNat = c.val.toNat + 32
    have hsmall : c.val.toNat ≤ 90 := hle
    rw [UInt32.toNat_add, hshift]
    omega
  · rw [dif_neg h, if_neg fun hc => h (hiff.2 hc)]

/-- A character is made small into a small letter exactly if it is that letter. -/
theorem toLower_eq_iff {c d : Char} (hd : 97 ≤ d.toNat ∧ d.toNat ≤ 122) :
    c.toLower = d ↔ SameLetter c d := by
  have hletters : 'A'.toNat = 65 ∧ 'a'.toNat = 97 := by decide
  rw [← Char.toNat_inj, toNat_toLower, SameLetter, ← Char.toNat_inj, hletters.1, hletters.2]
  constructor
  · intro h
    split at h
    · exact Or.inr ⟨c.toNat - 65, by omega, by omega⟩
    · exact Or.inl h
  · rintro (h | ⟨place, hplace, h⟩)
    · rw [if_neg (by omega)]
      exact h
    · rw [if_pos (by omega)]
      omega

/-- A text is made small into a word of small letters exactly if the two are the
    same letter by letter. -/
theorem lowerCase_eq_iff {text word : String}
    (hword : ∀ d ∈ word.toList, 97 ≤ d.toNat ∧ d.toNat ≤ 122) :
    lowerCase text = word ↔ SameUpToCase text word := by
  have hlist : lowerCase text = word ↔ text.toList.map Char.toLower = word.toList := by
    rw [lowerCase, ← String.toList_inj, String.toList_ofList]
  rw [hlist, SameUpToCase]
  generalize text.toList = cs
  generalize word.toList = ds at hword ⊢
  induction ds generalizing cs with
  | nil => simp
  | cons d ds ih =>
    rcases List.forall_mem_cons.1 hword with ⟨hd, hds⟩
    cases cs with
    | nil => simp
    | cons c cs =>
      rw [List.map_cons, List.cons.injEq, List.forall₂_cons, toLower_eq_iff hd]
      exact and_congr_right fun _ => ih cs hds

theorem exists_direction?_word {text : String} :
    (∃ direction, direction? (.string text) = some direction) ↔
      ∃ word ∈ directionWords, SameUpToCase text word := by
  have hwords : ∀ word ∈ directionWords, ∀ d ∈ word.toList, 97 ≤ d.toNat ∧ d.toNat ≤ 122 := by
    have hall : directionWords.all (fun word => word.toList.all fun d =>
        decide (97 ≤ d.toNat ∧ d.toNat ≤ 122)) = true := by
      decide
    simpa only [List.all_eq_true, decide_eq_true_eq] using hall
  have hsame : (∃ word ∈ directionWords, SameUpToCase text word) ↔
      lowerCase text ∈ directionWords := by
    constructor
    · rintro ⟨word, hword, h⟩
      rwa [(lowerCase_eq_iff (hwords word hword)).2 h]
    · exact fun h => ⟨_, h, (lowerCase_eq_iff (hwords _ h)).1 rfl⟩
  rw [hsame]
  refine exists_choice_iff.trans ?_
  simp only [directionWords, List.mem_cons, List.not_mem_nil, or_false, or_assoc]

theorem exists_direction?_integer {w : Word} :
    (∃ direction, direction? (.number (.integer w)) = some direction) ↔
      w.val = 1 ∨ w.val = -1 := by
  rw [direction?, Extended.int64?]
  -- A word that no signed word of 64 bits holds is neither of the two numbers.
  cases hword : (Number.integer w).int64? with
  | some n =>
    rw [int64?_eq_some_iff.1 hword]
    refine exists_choice_iff.trans (or_congr ?_ ?_)
    · exact Int64.toInt_inj (y := 1) |>.symm
    · exact Int64.toInt_inj (y := -1) |>.symm
  | none =>
    refine iff_of_false ?_ ?_
    · rintro ⟨direction, h⟩
      cases h
    · rintro (h | h)
      · cases hword.symm.trans (int64?_eq_some_iff (n := 1) |>.2 h)
      · cases hword.symm.trans (int64?_eq_some_iff (n := -1) |>.2 h)

/-- A direction is found exactly for what is one. -/
theorem exists_direction?_iff {v : Extended} :
    (∃ direction, direction? v = some direction) ↔ IsDirection v := by
  constructor
  · rintro ⟨direction, h⟩
    cases v with
    | string text => exact .word (exists_direction?_word.1 ⟨direction, h⟩)
    | long n => exact .long (exists_choice_iff.1 ⟨direction, h⟩)
    | number value =>
      cases value with
      | integer w => exact .integer (exists_direction?_integer.1 ⟨direction, h⟩)
      | float x => cases h
    | _ => cases h
  · intro h
    cases h with
    | word h => exact exists_direction?_word.2 h
    | long h => exact exists_choice_iff.2 h
    | integer h => exact exists_direction?_integer.2 h

end Directions

end Submission

end Fieldwork
