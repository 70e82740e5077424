import Fieldwork.Database.Statement

/-!
# Placeholders

How a merge statement is sent.

A statement is sent as a text and a list of values. No key and no value is in
the text. It names a placeholder for each path and for each encoded value, then
one for the stamp and one for the asset, and it numbers them from one while the
values are collected. The engine takes for a placeholder the value that has its
number, so what a statement does depends on the two being counted alike.

## Main definitions

* `Placeholders`: The placeholders that a statement names.
* `Placeholders.text`: The text that names them.
* `MergeStatement.placeholders`: The placeholders of a statement.
* `Placeholders.resolve?`: What the engine finds for them among values.

## Theorems

* `bound?_append`, `bound?_append_cons`: Numbers count the values in front.
* `resolve?_bindings`: The engine finds the statement that was meant.
-/

namespace Fieldwork

/-- The placeholders that a statement names, by their numbers. -/
structure Placeholders where
  /-- Those of the path and the encoded value of each key. -/
  members : List (Nat × Nat)
  /-- That of the stamp. -/
  stamp : Nat
  /-- That of the asset. -/
  asset : Nat
  deriving DecidableEq

namespace Binding

/-- The text that is bound. -/
def text? : Binding → Option String
  | text value => some value
  | integer _ => none

/-- The integer that is bound. -/
def integer? : Binding → Option Int
  | integer value => some value
  | text _ => none

end Binding

namespace Placeholders

/-- A placeholder as it is named. -/
def mark (number : Nat) : String :=
  "?" ++ toString number

/-- The new text of the document. A row whose document is not set has an empty
    one, and the engine takes its text as it is if no key is set. -/
def document (placeholders : Placeholders) : String :=
  let stored := "COALESCE(deployment_data, '\x7b\x7d')"
  if placeholders.members.isEmpty then stored
  else "json_set(" ++ stored ++ String.join (placeholders.members.map fun member =>
    ", " ++ mark member.1 ++ ", json(" ++ mark member.2 ++ ")") ++ ")"

/-- The text of a statement. -/
def text (placeholders : Placeholders) : String :=
  "UPDATE assets SET deployment_data = " ++ placeholders.document ++ ", date_modified = " ++
    mark placeholders.stamp ++ " WHERE uid = " ++ mark placeholders.asset

/-- The value that has a number. -/
def bound? (values : List Binding) (number : Nat) : Option Binding :=
  if number = 0 then none else values[number - 1]?

/-- The value behind so many others has the next number. -/
theorem bound?_append (before : List Binding) (value : Binding) (after : List Binding) :
    bound? (before ++ value :: after) (before.length + 1) = some value := by
  rw [bound?, if_neg (Nat.succ_ne_zero _), Nat.add_sub_cancel,
    List.getElem?_append_right (Nat.le_refl _), Nat.sub_self, List.getElem?_cons_zero]

/-- The value behind that one has the number after it. -/
theorem bound?_append_cons (before : List Binding) (first value : Binding)
    (after : List Binding) :
    bound? (before ++ first :: value :: after) (before.length + 2) = some value := by
  have h := bound?_append (before ++ [first]) value after
  rwa [List.append_assoc, List.length_append] at h

/-- The paths and the encoded values that the engine finds. -/
def pairs? (values : List Binding) : List (Nat × Nat) → Option (List (String × String))
  | [] => some []
  | member :: rest => do
    let path ← (bound? values member.1).bind Binding.text?
    let encoded ← (bound? values member.2).bind Binding.text?
    let pairs ← pairs? values rest
    some ((path, encoded) :: pairs)

/-- What the engine finds for the placeholders among values. -/
def resolve? (placeholders : Placeholders) (values : List Binding) :
    Option (MergeStatement × Stamp × AssetId) := do
  let pairs ← pairs? values placeholders.members
  let stamp ← (bound? values placeholders.stamp).bind Binding.integer?
  let asset ← (bound? values placeholders.asset).bind Binding.text?
  some (⟨pairs⟩, stamp, ⟨asset⟩)

end Placeholders

namespace MergeStatement

/-- The placeholders of pairs when so many values are bound already. -/
def memberPlaceholders (used : Nat) : List (String × String) → List (Nat × Nat)
  | [] => []
  | _ :: rest => (used + 1, used + 2) :: memberPlaceholders (used + 2) rest

/-- The placeholders of a statement. The stamp and the asset are bound last. -/
def placeholders (statement : MergeStatement) : Placeholders where
  members := memberPlaceholders 0 statement.pairs
  stamp := 2 * statement.pairs.length + 1
  asset := 2 * statement.pairs.length + 2

/-- What is bound for pairs. -/
def pairBindings (pairs : List (String × String)) : List Binding :=
  pairs.flatMap fun pair => [.text pair.1, .text pair.2]

theorem length_pairBindings (pairs : List (String × String)) :
    (pairBindings pairs).length = 2 * pairs.length := by
  induction pairs with
  | nil => rfl
  | cons pair rest ih =>
    rw [pairBindings, List.flatMap_cons, List.length_append, ← pairBindings, ih, List.length_cons]
    simp only [List.length_cons, List.length_nil]
    omega

/-- The engine finds the pairs, wherever they stand among the values. -/
theorem pairs?_memberPlaceholders (before : List Binding) (pairs : List (String × String))
    (after : List Binding) :
    Placeholders.pairs? (before ++ (pairBindings pairs ++ after))
      (memberPlaceholders before.length pairs) = some pairs := by
  induction pairs generalizing before with
  | nil => rfl
  | cons pair rest ih =>
    rcases pair with ⟨path, encoded⟩
    have hvalues : before ++ (pairBindings ((path, encoded) :: rest) ++ after) =
        before ++ .text path :: .text encoded :: (pairBindings rest ++ after) := rfl
    have hrest : Placeholders.pairs?
        (before ++ .text path :: .text encoded :: (pairBindings rest ++ after))
        (memberPlaceholders (before.length + 2) rest) = some rest := by
      have h := ih (before ++ [.text path, .text encoded])
      rwa [List.append_assoc, List.length_append] at h
    rw [hvalues, memberPlaceholders, Placeholders.pairs?]
    dsimp only
    rw [Placeholders.bound?_append, Placeholders.bound?_append_cons, hrest]
    rfl

/-- The engine finds the statement that was meant, with its stamp and its
    asset. -/
theorem resolve?_bindings (statement : MergeStatement) (stamp : Stamp) (asset : AssetId) :
    statement.placeholders.resolve? (statement.bindings stamp asset) =
      some (statement, stamp, asset) := by
  have hvalues : statement.bindings stamp asset =
      pairBindings statement.pairs ++ [.integer stamp, .text asset.name] := rfl
  have hpairs := pairs?_memberPlaceholders [] statement.pairs [.integer stamp, .text asset.name]
  have hstamp := Placeholders.bound?_append (pairBindings statement.pairs) (.integer stamp)
    [.text asset.name]
  have hasset := Placeholders.bound?_append_cons (pairBindings statement.pairs) (.integer stamp)
    (.text asset.name) []
  rw [List.nil_append, List.length_nil] at hpairs
  rw [length_pairBindings] at hstamp hasset
  rw [hvalues, Placeholders.resolve?, placeholders]
  dsimp only
  rw [hpairs, hstamp, hasset]
  rfl

/-- Two keys. -/
example : (placeholders ⟨[("$.\"a\"", "true"), ("$.\"b\"", "1")]⟩).text =
    "UPDATE assets SET deployment_data = json_set(COALESCE(deployment_data, '\x7b\x7d'), " ++
      "?1, json(?2), ?3, json(?4)), date_modified = ?5 WHERE uid = ?6" := by
  decide +kernel

end MergeStatement

end Fieldwork
