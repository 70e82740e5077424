import Fieldwork.Database.Rows
import Fieldwork.Proofs.Json.Nesting
import Fieldwork.Proofs.Json.RoundTrip
import Fieldwork.Proofs.Json.Spelled
import Mathlib.Data.List.Infix

/-!
# Statements Edit Documents

What merge statements make of a text that is the compact text of an object.

A statement never sees a document. It reads a text, sets members whose keys it
compares by spelling, and writes a text. A merge of documents never sees a
text. They do the same because the text of a document is spelled in one way
only, key for key and value for value, provided that each key can be quoted:
such a key is spelled as it is. So a member that is set is one pair inserted,
a statement is a merge of its pairs, and statements in turn are one merge of
all the pairs, wherever the list of pairs was cut.

Statements fail for two reasons. The engine nests less deep than documents may:
`Shallow` says which values it nests. And it takes texts and rows only up to a
number of bytes, which is where the cuts can show after all, because each
statement writes a row: `Overlong` says where one of them is too large.

## Main definitions

* `MemberPath.Quotable`: A key that can be quoted.
* `MergeStatement.ofGroup`: The statement that sets the given pairs.
* `MergeStatement.rewriteAll`: What statements in turn make of a row.
* `MergeStatement.groupsOf`: The pairs that each statement of a merge sets.
* `Written.setAll`: Members set one after the other.
* `StoredText.edited`: The text of an object with members set.
* `Shallow`: Values that the engine nests.
* `MergeStatement.Overlong`: A text or a row on the way that is too large.

## Theorems

* `setMember_toWrittenMembers`: Setting a member inserts a pair.
* `setAll_toWrittenMembers`: Setting members in turn merges the pairs.
* `edited_compact`: In the text of a document that is a merge.
* `executeAll_eq`: Statements on a row rewrite it in turn.
* `rewriteAll_object`: They set members in any object, or something nests too
  deep or is too large.
* `groups_of_batch`, `batch_of_size_le`: The statements of a merge.
* `encodedSize_le_of_batch`: What is encoded is small enough.
-/

namespace Fieldwork

namespace MemberPath

/-- A key that can be quoted: none of its characters is refused. -/
def Quotable (key : String) : Prop :=
  ∀ c ∈ key.toList, isRefused c = false

instance (key : String) : Decidable (Quotable key) :=
  List.decidableBAll (fun c => isRefused c = false) key.toList

/-- The path that quotes a key. -/
def path (key : String) : String :=
  String.ofList ('$' :: '.' :: '"' :: key.toList ++ ['"'])

/-- A key has a path just if it can be quoted. -/
theorem ofKey?_eq_some_iff {key found : String} :
    ofKey? key = some found ↔ Quotable key ∧ found = path key := by
  rw [ofKey?, Option.ite_none_left_eq_some, Option.some.injEq, Bool.not_eq_true,
    List.any_eq_false]
  constructor
  · rintro ⟨hkey, rfl⟩
    exact ⟨fun c hc => Bool.not_eq_true _ ▸ hkey c hc, rfl⟩
  · rintro ⟨hkey, rfl⟩
    exact ⟨fun c hc => by simp [hkey c hc], rfl⟩

theorem key?_path {key : String} (h : Quotable key) : key? (path key) = some key :=
  key?_of_ofKey? (ofKey?_eq_some_iff.2 ⟨h, rfl⟩)

theorem escapeChar_of_not_refused {c : Char} (h : isRefused c = false) :
    Written.escapeChar c = [c] := by
  simp only [isRefused, Bool.or_eq_false_iff, beq_eq_false_iff_ne, Text.isControl,
    decide_eq_false_iff_not] at h
  rcases h with ⟨⟨hquote, hslash⟩, hlow, -⟩
  have hother : ∀ d : Char, d.toNat ≤ 0x1f → c ≠ d := fun d hd e => hlow (e ▸ hd)
  have hletter : Written.escapeLetter? c = none := by
    rw [Written.escapeLetter?, if_neg hquote, if_neg hslash,
      if_neg (hother '\x08' (by decide)), if_neg (hother '\x0c' (by decide)),
      if_neg (hother '\n' (by decide)), if_neg (hother '\r' (by decide)),
      if_neg (hother '\t' (by decide))]
  rw [Written.escapeChar, hletter]
  exact if_neg (by omega)

/-- A key that can be quoted is spelled as it is. -/
theorem escape_of_quotable {key : String} (h : Quotable key) :
    Written.escape key.toList = key.toList := by
  have hchars : ∀ cs : List Char, (∀ c ∈ cs, isRefused c = false) → Written.escape cs = cs := by
    intro cs hcs
    induction cs with
    | nil => rfl
    | cons c rest ih =>
      rcases List.forall_mem_cons.1 hcs with ⟨hc, hrest⟩
      have hrest := ih hrest
      rw [Written.escape] at hrest ⊢
      rw [List.flatMap_cons, escapeChar_of_not_refused hc, hrest]
      rfl
  exact hchars key.toList h

/-- The engine takes the spelling of a key for the key. -/
theorem keyOf?_of_quotable {key : String} (h : Quotable key) :
    Written.keyOf? key = some key := by
  -- There is no backslash, so there is no escaped null to be cut at.
  have hslash : '\\' ∉ key.toList := by
    intro hmem
    cases h '\\' hmem
  have hunescape := Written.unescape?_escape key.toList
  rw [escape_of_quotable h] at hunescape
  rw [Written.keyOf?, Written.beforeNull_of_notMem hslash, hunescape, Option.map_some,
    String.ofList_toList]

end MemberPath

namespace Json

theorem toWrittenMembers_cons {key : String} (h : MemberPath.Quotable key) (value : Json)
    (rest : List (String × Json)) :
    toWrittenMembers ((key, value) :: rest) = (key, value.toWritten) :: toWrittenMembers rest := by
  rw [toWrittenMembers, MemberPath.escape_of_quotable h, String.ofList_toList]

end Json

namespace Written

/-- Setting a member inserts a pair. -/
theorem setMember_toWrittenMembers {key : String} (hkey : MemberPath.Quotable key) (value : Json)
    {members : List (String × Json)} (h : ∀ entry ∈ members, MemberPath.Quotable entry.1) :
    setMember key value.toWritten (Json.toWrittenMembers members) =
      Json.toWrittenMembers (Ordered.insert key value members) := by
  induction members with
  | nil => rw [Ordered.insert, Json.toWrittenMembers_cons hkey, Json.toWrittenMembers, setMember]
  | cons entry rest ih =>
    rcases entry with ⟨other, old⟩
    rcases List.forall_mem_cons.1 h with ⟨hother, hrest⟩
    rw [Json.toWrittenMembers_cons hother, setMember, MemberPath.keyOf?_of_quotable hother,
      Ordered.insert]
    -- The two sides look for the key alike: one among keys, one among spellings.
    by_cases heq : other = key
    · rw [if_pos (congrArg some heq), if_pos heq, heq, Json.toWrittenMembers_cons hkey]
    · rw [if_neg fun e => heq (Option.some.inj e), if_neg heq, ih hrest,
        Json.toWrittenMembers_cons hother]

/-- Members with each pair of `updates` set, in order. -/
def setAll (members : List (String × Written)) (updates : List (String × Json)) :
    List (String × Written) :=
  updates.foldl (fun members entry => setMember entry.1 entry.2.toWritten members) members

theorem setAll_append (members : List (String × Written)) (first later : List (String × Json)) :
    setAll members (first ++ later) = setAll (setAll members first) later :=
  List.foldl_append

/-- Setting members in turn merges the pairs. -/
theorem setAll_toWrittenMembers {members updates : List (String × Json)}
    (hm : ∀ entry ∈ members, MemberPath.Quotable entry.1)
    (hu : ∀ entry ∈ updates, MemberPath.Quotable entry.1) :
    setAll (Json.toWrittenMembers members) updates =
      Json.toWrittenMembers (Ordered.merge members updates) := by
  induction updates generalizing members with
  | nil => rfl
  | cons entry rest ih =>
    rcases List.forall_mem_cons.1 hu with ⟨he, hrest⟩
    rw [setAll, List.foldl_cons, setMember_toWrittenMembers he entry.2 hm]
    exact ih (Ordered.forall_mem_insert (p := fun entry => MemberPath.Quotable entry.1)
      entry.2 he hm) hrest

theorem wellSpelled_setMember {key : String} (hkey : MemberPath.Quotable key) {value : Written}
    (hvalue : value.WellSpelled) {members : List (String × Written)}
    (h : ∀ entry ∈ members, IsBody entry.1.toList ∧ entry.2.WellSpelled) :
    ∀ entry ∈ setMember key value members, IsBody entry.1.toList ∧ entry.2.WellSpelled := by
  have hbody : IsBody key.toList := MemberPath.escape_of_quotable hkey ▸ isBody_escape key.toList
  induction members with
  | nil => exact List.forall_mem_singleton.2 ⟨hbody, hvalue⟩
  | cons entry rest ih =>
    rcases entry with ⟨spelling, old⟩
    rcases List.forall_mem_cons.1 h with ⟨hfirst, hrest⟩
    rw [setMember]
    split
    · exact List.forall_mem_cons.2 ⟨⟨hfirst.1, hvalue⟩, hrest⟩
    · exact List.forall_mem_cons.2 ⟨hfirst, ih hrest⟩

/-- Members that are set are spelled like those of a text. -/
theorem wellSpelled_setAll {updates : List (String × Json)}
    (hu : ∀ entry ∈ updates, MemberPath.Quotable entry.1) {members : List (String × Written)}
    (h : (object members).WellSpelled) : (object (setAll members updates)).WellSpelled := by
  induction updates generalizing members with
  | nil => exact h
  | cons entry rest ih =>
    rcases List.forall_mem_cons.1 hu with ⟨hkey, hrest⟩
    refine ih hrest ?_
    rw [WellSpelled, wellSpelledMembers_iff] at h ⊢
    exact wellSpelled_setMember hkey (Json.wellSpelled_toWritten entry.2) h

theorem depthOfMembers_setMember_le {value : Written} {limit : Nat} (hvalue : value.depth ≤ limit)
    (key : String) {members : List (String × Written)} (h : depthOfMembers members ≤ limit) :
    depthOfMembers (setMember key value members) ≤ limit := by
  induction members with
  | nil =>
    rw [setMember, depthOfMembers, depthOfMembers]
    exact Nat.max_le.2 ⟨hvalue, Nat.zero_le limit⟩
  | cons entry rest ih =>
    rcases entry with ⟨spelling, old⟩
    rw [depthOfMembers, Nat.max_le] at h
    rw [setMember]
    split
    · rw [depthOfMembers]
      exact Nat.max_le.2 ⟨hvalue, h.2⟩
    · rw [depthOfMembers]
      exact Nat.max_le.2 ⟨h.1, ih h.2⟩

end Written

/-- Values that the engine nests, within an object. -/
def Shallow (entries : List (String × Json)) : Prop :=
  ∀ entry ∈ entries, entry.2.depth < StoredText.depthLimit

instance (entries : List (String × Json)) : Decidable (Shallow entries) :=
  List.decidableBAll (fun entry : String × Json => entry.2.depth < StoredText.depthLimit) entries

/-- The engine nests an object just if it nests the values in it. -/
theorem depth_object_le_iff {members : List (String × Json)} :
    (Json.object members).depth ≤ StoredText.depthLimit ↔ Shallow members := by
  rw [Json.depth, Shallow, StoredText.depthLimit]
  have hpred : Json.depthOfMembers members + 1 ≤ 1000 ↔ Json.depthOfMembers members ≤ 999 := by
    omega
  rw [hpred, Json.depthOfMembers_le_iff]
  simp only [Nat.lt_succ_iff]

/-- The engine still nests an object in which such values were set. -/
theorem Written.depth_setAll_le {updates : List (String × Json)} (hu : Shallow updates)
    {members : List (String × Written)} (h : (object members).depth ≤ StoredText.depthLimit) :
    (object (setAll members updates)).depth ≤ StoredText.depthLimit := by
  induction updates generalizing members with
  | nil => exact h
  | cons entry rest ih =>
    rcases List.forall_mem_cons.1 hu with ⟨hvalue, hrest⟩
    refine ih hrest ?_
    rw [← Json.depth_toWritten] at hvalue
    rw [depth] at h ⊢
    exact Nat.succ_le_succ
      (depthOfMembers_setMember_le (Nat.le_of_lt_succ hvalue) entry.1 (Nat.le_of_lt_succ h))

namespace StoredText

/-- The engine reads the compact text of a value unless it nests too deep. -/
theorem read?_compact (value : Json) :
    read? value.compact = if value.depth ≤ depthLimit then some value.toWritten else none := by
  rw [read?, Json.read?_compact, Option.orElse_some, Option.filter_some, Json.depth_toWritten]
  simp only [decide_eq_true_eq]

open Written (setAll)

/-- The text of an object with members set. If none is set it stays as it was
    written. -/
def edited (text : String) (members : List (String × Written))
    (updates : List (String × Json)) : String :=
  if updates.isEmpty then text else (Written.object (setAll members updates)).text

/-- Setting members in two parts is setting all of them. -/
theorem edited_append (text : String) (members : List (String × Written))
    (first later : List (String × Json)) :
    edited (edited text members first) (setAll members first) later =
      edited text members (first ++ later) := by
  rcases later with _ | ⟨entry, rest⟩
  · rw [List.append_nil]
    rfl
  · -- Some pair is set, so both texts are written anew.
    have hsome : (first ++ entry :: rest).isEmpty = false := by
      rw [List.isEmpty_eq_false_iff]
      exact List.append_ne_nil_of_right_ne_nil first (List.cons_ne_nil entry rest)
    have hwhole : edited text members (first ++ entry :: rest) =
        (Written.object (setAll members (first ++ entry :: rest))).text := by
      rw [edited, hsome]
      rfl
    rw [hwhole, Written.setAll_append]
    rfl

/-- The members that were set are read back. -/
theorem read?_edited {text : String} {members : List (String × Written)}
    {updates : List (String × Json)} (hu : ∀ entry ∈ updates, MemberPath.Quotable entry.1)
    (htext : Written.read? text.toList = some (.object members)) :
    Written.read? (edited text members updates).toList =
      some (.object (setAll members updates)) := by
  rcases updates with _ | ⟨entry, rest⟩
  · exact htext
  · have hspelled := Written.wellSpelled_setAll hu (Written.wellSpelled_of_read? htext)
    rw [edited, List.isEmpty_cons, if_neg Bool.false_ne_true, Written.text, String.toList_ofList,
      Written.read?_render hspelled]

/-- In the text of a document they are merged. -/
theorem edited_compact {members updates : List (String × Json)}
    (hm : ∀ entry ∈ members, MemberPath.Quotable entry.1)
    (hu : ∀ entry ∈ updates, MemberPath.Quotable entry.1) :
    edited (Json.object members).compact (Json.toWrittenMembers members) updates =
      (Json.object (Ordered.merge members updates)).compact := by
  rcases updates with _ | ⟨entry, rest⟩
  · rfl
  · rw [edited, Written.setAll_toWrittenMembers hm hu, Json.compact, Json.toWritten_object]
    rfl

end StoredText

namespace MergeStatement

/-- The path and the encoded value of a pair. -/
def pairOf (entry : String × Json) : String × String :=
  (MemberPath.path entry.1, entry.2.compact)

/-- The statement that sets the given pairs. -/
def ofGroup (group : List (String × Json)) : MergeStatement :=
  ⟨group.map pairOf⟩

/-- A pair sets its member, unless the value nests too deep. -/
theorem setPair_eq {entry : String × Json} (h : MemberPath.Quotable entry.1) (tree : Written) :
    setPair tree (pairOf entry) =
      if entry.2.depth ≤ StoredText.depthLimit then some (tree.set entry.1 entry.2.toWritten)
      else none := by
  rw [setPair, pairOf, MemberPath.key?_path h, Option.bind_some, StoredText.read?_compact]
  split
  · rfl
  · rfl

open Written (setAll)

/-- Pairs set their members in turn, unless a value nests too deep. -/
theorem foldlM_setPair {group : List (String × Json)}
    (hg : ∀ entry ∈ group, MemberPath.Quotable entry.1) (members : List (String × Written)) :
    (group.map pairOf).foldlM setPair (.object members) = some (.object (setAll members group)) ∨
      (group.map pairOf).foldlM setPair (.object members) = none ∧ ¬ Shallow group := by
  induction group generalizing members with
  | nil => exact Or.inl rfl
  | cons entry rest ih =>
    rcases List.forall_mem_cons.1 hg with ⟨he, hrest⟩
    rw [List.map_cons, List.foldlM_cons, setPair_eq he]
    -- The first value that nests too deep refuses the whole group.
    split
    · refine (ih hrest _).imp_right fun h => ⟨h.1, fun hshallow => h.2 ?_⟩
      exact (List.forall_mem_cons.1 hshallow).2
    · rename_i hdeep
      refine Or.inr ⟨rfl, fun hshallow => hdeep ?_⟩
      exact Nat.le_of_lt (List.forall_mem_cons.1 hshallow).1

/-- A statement sets its members in an object, unless the text or a value nests
    too deep. -/
theorem edit?_object {group : List (String × Json)}
    (hg : ∀ entry ∈ group, MemberPath.Quotable entry.1) {text : String}
    {members : List (String × Written)}
    (htext : Written.read? text.toList = some (.object members)) :
    (ofGroup group).edit? text = some (StoredText.edited text members group) ∨
      (ofGroup group).edit? text = none ∧
        ¬ ((Written.object members).depth ≤ StoredText.depthLimit ∧ Shallow group) := by
  rcases group with _ | ⟨entry, rest⟩
  · -- A statement without pairs leaves the text as it is, whatever it is.
    exact Or.inl rfl
  · have hpairs : (ofGroup (entry :: rest)).pairs.isEmpty = false := rfl
    rw [edit?, hpairs, if_neg Bool.false_ne_true, StoredText.read?, htext, Option.orElse_some,
      Option.filter_some]
    by_cases hdepth : (Written.object members).depth ≤ StoredText.depthLimit
    · rw [if_pos (decide_eq_true hdepth), Option.bind_some, ofGroup]
      rcases foldlM_setPair hg members with hset | ⟨hset, hdeep⟩
      · rw [hset]
        exact Or.inl rfl
      · rw [hset]
        exact Or.inr ⟨rfl, fun hnests => hdeep hnests.2⟩
    · rw [if_neg (by simpa using hdepth)]
      exact Or.inr ⟨rfl, fun hnests => hdepth hnests.1⟩

/-- What a statement makes of a row, if the engine takes what it binds. -/
def rewriteBound (stamp : Stamp) (asset : AssetId) (row : StoredRow) (statement : MergeStatement) :
    Except DatabaseError StoredRow :=
  if statement.Bindable stamp asset then statement.rewrite stamp asset row else .error .tooBig

/-- What statements make of a row, one after the other. -/
def rewriteAll (stamp : Stamp) (asset : AssetId) (statements : List MergeStatement)
    (row : StoredRow) : Except DatabaseError StoredRow :=
  statements.foldlM (rewriteBound stamp asset) row

section Rows

variable {stamp : Stamp} {asset : AssetId} {row : StoredRow}

theorem rewriteAll_cons (first : MergeStatement) (rest : List MergeStatement) :
    rewriteAll stamp asset (first :: rest) row =
      match rewriteBound stamp asset row first with
      | .error error => .error error
      | .ok after => rewriteAll stamp asset rest after := by
  rw [rewriteAll, List.foldlM_cons]
  rcases rewriteBound stamp asset row first with error | after
  · rfl
  · rfl

/-- A row that was rewritten has the stamp of the statement. -/
theorem exists_text_of_rewriteBound {statement : MergeStatement} {after : StoredRow}
    (h : rewriteBound stamp asset row statement = .ok after) :
    ∃ text, statement.edit? row.text = some text ∧ after = ⟨text, some stamp⟩ := by
  unfold rewriteBound rewrite at h
  split at h
  · split at h
    · cases h
    · rename_i text htext
      dsimp only at h
      split at h
      · cases h
        exact ⟨text, htext, rfl⟩
      · cases h
  · cases h

theorem exists_text_of_rewriteAll {first : MergeStatement} {rest : List MergeStatement}
    {after : StoredRow} (h : rewriteAll stamp asset (first :: rest) row = .ok after) :
    ∃ text, after = ⟨text, some stamp⟩ := by
  induction rest generalizing first row with
  | nil =>
    rw [rewriteAll_cons] at h
    rcases hfirst : rewriteBound stamp asset row first with error | middle
    · rw [hfirst] at h
      cases h
    · rw [hfirst] at h
      cases h
      rcases exists_text_of_rewriteBound hfirst with ⟨text, -, rfl⟩
      exact ⟨text, rfl⟩
  | cons second rest ih =>
    rw [rewriteAll_cons] at h
    rcases hfirst : rewriteBound stamp asset row first with error | middle
    · rw [hfirst] at h
      cases h
    · rw [hfirst] at h
      exact ih h

theorem execute_eq (statement : MergeStatement) {assets : AssetTable}
    (h : assets.lookup asset = some row) :
    statement.execute stamp asset assets =
      (rewriteBound stamp asset row statement).map fun after =>
        (1, Ordered.insert asset after assets) := by
  rw [execute, rewriteBound]
  split
  · rw [h]
  · rfl

/-- Statements on a row rewrite it in turn, and store the last. -/
theorem executeAll_eq (rows : UInt64) (first : MergeStatement) (rest : List MergeStatement)
    {assets : AssetTable} (h : assets.lookup asset = some row) :
    executeAll stamp asset rows (first :: rest) assets =
      (rewriteAll stamp asset (first :: rest) row).map fun after =>
        (1, Ordered.insert asset after assets) := by
  have hone : ¬ (1 : UInt64) = 0 := by decide
  induction rest generalizing first rows assets row with
  | nil =>
    rw [executeAll, rewriteAll_cons, execute_eq first h]
    rcases rewriteBound stamp asset row first with error | after
    · rfl
    · rfl
  | cons second rest ih =>
    rw [executeAll, rewriteAll_cons, execute_eq first h]
    rcases rewriteBound stamp asset row first with error | after
    · rfl
    · -- The later statements see the row of this one and replace it.
      have hrow := Ordered.lookup_insert asset asset after assets
      rw [if_pos rfl] at hrow
      dsimp only [Except.map]
      rw [if_neg hone, ih 1 second hrow]
      rcases rewriteAll stamp asset (second :: rest) after with error | last
      · rfl
      · simp only [Except.map, Ordered.insert_insert]

/-- A text that is bound is too large for the engine, or a row that one of the
    statements would write. -/
def Overlong (stamp : Stamp) (asset : AssetId) (text : String) (members : List (String × Written))
    (groups : List (List (String × Json))) : Prop :=
  (∃ group ∈ groups, ¬ (ofGroup group).Bindable stamp asset) ∨
    ∃ front, front ≠ [] ∧ front <+: groups ∧ StoredText.lengthLimit <
      StoredRow.size asset ⟨StoredText.edited text members front.flatten, some stamp⟩

instance (text : String) (members : List (String × Written))
    (groups : List (List (String × Json))) :
    Decidable (Overlong stamp asset text members groups) :=
  decidable_of_iff ((∃ group ∈ groups, ¬ (ofGroup group).Bindable stamp asset) ∨
      ∃ front ∈ groups.inits, front ≠ [] ∧ StoredText.lengthLimit <
        StoredRow.size asset ⟨StoredText.edited text members front.flatten, some stamp⟩)
    (or_congr_right (exists_congr fun front =>
      (and_congr_left' (List.mem_inits front groups)).trans and_left_comm))

/-- A statement sets its members in an object, unless something nests too deep
    or is too large. -/
theorem rewriteBound_object {group : List (String × Json)}
    (hg : ∀ entry ∈ group, MemberPath.Quotable entry.1) {members : List (String × Written)}
    (htext : Written.read? row.text.toList = some (.object members)) :
    rewriteBound stamp asset row (ofGroup group) =
        .ok ⟨StoredText.edited row.text members group, some stamp⟩ ∨
      rewriteBound stamp asset row (ofGroup group) = .error .malformedJson ∧
        ¬ ((Written.object members).depth ≤ StoredText.depthLimit ∧ Shallow group) ∨
      rewriteBound stamp asset row (ofGroup group) = .error .tooBig ∧
        Overlong stamp asset row.text members [group] := by
  rw [rewriteBound]
  split
  · rcases edit?_object hg htext with hedit | ⟨hedit, hdeep⟩
    · rw [rewrite, hedit]
      dsimp only
      split
      · exact Or.inl rfl
      · rename_i hsize
        refine Or.inr (Or.inr ⟨rfl, Or.inr
          ⟨[group], List.cons_ne_nil group [], List.prefix_rfl, ?_⟩⟩)
        rw [List.flatten_singleton]
        exact Nat.not_le.1 hsize
    · rw [rewrite, hedit]
      exact Or.inr (Or.inl ⟨rfl, hdeep⟩)
  · rename_i hbind
    exact Or.inr (Or.inr ⟨rfl, Or.inl ⟨group, List.mem_singleton_self group, hbind⟩⟩)

/-- What is too large for the later statements is too large for all of them. -/
theorem Overlong.cons {group : List (String × Json)} {groups : List (List (String × Json))}
    {text : String} {members : List (String × Written)}
    (h : Overlong stamp asset (StoredText.edited text members group) (setAll members group)
      groups) : Overlong stamp asset text members (group :: groups) := by
  rcases h with ⟨later, hlater, hbind⟩ | ⟨front, -, hfront, hsize⟩
  · exact Or.inl ⟨later, List.mem_cons_of_mem group hlater, hbind⟩
  · refine Or.inr ⟨group :: front, List.cons_ne_nil group front,
      (List.prefix_cons_inj group).2 hfront, ?_⟩
    rwa [List.flatten_cons, ← StoredText.edited_append]

theorem Overlong.of_first {group : List (String × Json)} {text : String}
    {members : List (String × Written)} (h : Overlong stamp asset text members [group])
    (groups : List (List (String × Json))) :
    Overlong stamp asset text members (group :: groups) := by
  have hbegins : [group] <+: group :: groups := ⟨groups, rfl⟩
  refine h.imp ?_ ?_
  · rintro ⟨first, hfirst, hbind⟩
    exact ⟨first, hbegins.subset hfirst, hbind⟩
  · rintro ⟨front, hne, hfront, hsize⟩
    exact ⟨front, hne, hfront.trans hbegins, hsize⟩

/-- Statements in turn set all their members, wherever the list of them was
    cut, unless something nests too deep or is too large. -/
theorem rewriteAll_object (stamp : Stamp) (asset : AssetId) {row : StoredRow}
    {group : List (String × Json)} {groups : List (List (String × Json))}
    (hg : ∀ entry ∈ (group :: groups).flatten, MemberPath.Quotable entry.1)
    {members : List (String × Written)}
    (htext : Written.read? row.text.toList = some (.object members)) :
    rewriteAll stamp asset ((group :: groups).map ofGroup) row =
        .ok ⟨StoredText.edited row.text members (group :: groups).flatten, some stamp⟩ ∨
      rewriteAll stamp asset ((group :: groups).map ofGroup) row = .error .malformedJson ∧
        ¬ ((Written.object members).depth ≤ StoredText.depthLimit ∧
          Shallow (group :: groups).flatten) ∨
      rewriteAll stamp asset ((group :: groups).map ofGroup) row = .error .tooBig ∧
        Overlong stamp asset row.text members (group :: groups) := by
  induction groups generalizing group row members with
  | nil =>
    rw [List.flatten_singleton] at hg ⊢
    rw [List.map_singleton, rewriteAll_cons]
    rcases rewriteBound_object hg htext with hrow | ⟨hrow, hreason⟩ | ⟨hrow, hreason⟩
    · rw [hrow]
      exact Or.inl rfl
    · rw [hrow]
      exact Or.inr (Or.inl ⟨rfl, hreason⟩)
    · rw [hrow]
      exact Or.inr (Or.inr ⟨rfl, hreason⟩)
  | cons next rest ih =>
    rw [List.flatten_cons] at hg ⊢
    rw [List.map_cons, rewriteAll_cons]
    rcases List.forall_mem_append.1 hg with ⟨hgroup, hrest⟩
    rcases rewriteBound_object hgroup htext with hrow | ⟨hrow, hreason⟩ | ⟨hrow, hreason⟩
    · -- The next statement reads what this one has written.
      rw [hrow]
      dsimp only
      rw [← StoredText.edited_append]
      refine (ih hrest (StoredText.read?_edited hgroup htext)).imp_right fun h => h.imp ?_ ?_
      · refine fun h => ⟨h.1, fun hnests => h.2 ?_⟩
        rcases List.forall_mem_append.1 hnests.2 with ⟨hfirst, hlater⟩
        exact ⟨Written.depth_setAll_le hfirst hnests.1, hlater⟩
      · exact fun h => ⟨h.1, h.2.cons⟩
    · -- The first failure is final.
      rw [hrow]
      refine Or.inr (Or.inl ⟨rfl, fun hnests => hreason ⟨hnests.1, ?_⟩⟩)
      exact (List.forall_mem_append.1 hnests.2).1
    · rw [hrow]
      exact Or.inr (Or.inr ⟨rfl, hreason.of_first _⟩)

end Rows

/-- How many bytes the encoded values of a merge have together. -/
def encodedSize : List (String × Json) → Nat
  | [] => 0
  | (_, value) :: rest => value.compact.utf8ByteSize + encodedSize rest

/-- What is encoded has keys that can be quoted, and is encoded pair by pair. -/
theorem encode_eq_ok {total : Nat} {fields : List (String × Json)}
    {pairs : List (String × String)} (h : encode total fields = .ok pairs) :
    (∀ entry ∈ fields, MemberPath.Quotable entry.1) ∧ pairs = fields.map pairOf := by
  induction fields generalizing total pairs with
  | nil =>
    cases h
    exact ⟨fun entry hentry => absurd hentry List.not_mem_nil, rfl⟩
  | cons entry rest ih =>
    rcases entry with ⟨key, value⟩
    rw [encode] at h
    split at h
    · cases h
    · rename_i path hpath
      rcases MemberPath.ofKey?_eq_some_iff.1 hpath with ⟨hkey, rfl⟩
      dsimp only at h
      split at h
      · cases h
      · rcases hrest : encode (total + value.compact.utf8ByteSize) rest with refusal | encoded
        · rw [hrest] at h
          cases h
        · rw [hrest] at h
          cases h
          rcases ih hrest with ⟨hkeys, rfl⟩
          exact ⟨List.forall_mem_cons.2 ⟨hkey, hkeys⟩, rfl⟩

/-- Keys that can be quoted and values that are small enough are encoded. -/
theorem encode_of_size_le {total : Nat} {fields : List (String × Json)}
    (hkeys : ∀ entry ∈ fields, MemberPath.Quotable entry.1)
    (hsize : total + encodedSize fields ≤ updateLimit) :
    encode total fields = .ok (fields.map pairOf) := by
  induction fields generalizing total with
  | nil => rfl
  | cons entry rest ih =>
    rcases entry with ⟨key, value⟩
    rcases List.forall_mem_cons.1 hkeys with ⟨hkey, hrest⟩
    rw [encodedSize, ← Nat.add_assoc] at hsize
    have hpath := MemberPath.ofKey?_eq_some_iff.2 ⟨hkey, rfl⟩
    -- What is added up so far is no more than the whole.
    have hsmall : ¬ updateLimit < total + value.compact.utf8ByteSize := by
      rw [Nat.not_lt]
      exact Nat.le_trans (Nat.le_add_right _ _) hsize
    rw [encode, hpath]
    dsimp only
    rw [if_neg hsmall, ih hrest hsize]
    rfl

/-- What is encoded is small enough. -/
theorem encodedSize_le_of_encode {total : Nat} {fields : List (String × Json)}
    {pairs : List (String × String)} (htotal : total ≤ updateLimit)
    (h : encode total fields = .ok pairs) : total + encodedSize fields ≤ updateLimit := by
  induction fields generalizing total pairs with
  | nil => exact htotal
  | cons entry rest ih =>
    rcases entry with ⟨key, value⟩
    rw [encode] at h
    split at h
    · cases h
    · dsimp only at h
      split at h
      · cases h
      · rename_i hsmall
        -- The sum so far was tested, and the rest is tested from there on.
        rcases hrest : encode (total + value.compact.utf8ByteSize) rest with refusal | encoded
        · rw [hrest] at h
          cases h
        · rw [encodedSize, ← Nat.add_assoc]
          exact ih (Nat.not_lt.1 hsmall) hrest

/-- Cutting a list and changing its items go together. -/
theorem chunks_map {α β : Type} (f : α → β) (size : Nat) (items : List α) :
    chunks size (items.map f) = (chunks size items).map (List.map f) := by
  fun_induction chunks size items with
  | case1 => rw [List.map_nil, chunks, List.map_nil]
  | case2 x rest ih =>
    rw [List.map_cons, chunks, ← List.map_drop, ih, ← List.map_take]
    rfl

/-- The pairs that each statement of a merge sets. If there are none, there is
    still a statement, which sets none: the row gets its stamp. -/
def groupsOf (fields : List (String × Json)) : List (List (String × Json)) :=
  if fields.isEmpty then [[]] else chunks chunkKeys fields

/-- Together the groups are the pairs, in order. -/
theorem flatten_groupsOf (fields : List (String × Json)) : (groupsOf fields).flatten = fields := by
  rcases fields with _ | ⟨entry, rest⟩
  · rfl
  · exact flatten_chunks chunkKeys (entry :: rest)

theorem groupsOf_ne_nil (fields : List (String × Json)) : groupsOf fields ≠ [] := by
  rcases fields with _ | ⟨entry, rest⟩
  · exact List.cons_ne_nil _ _
  · rw [groupsOf, List.isEmpty_cons, if_neg Bool.false_ne_true, chunks]
    exact List.cons_ne_nil _ _

/-- The statements of a merge set its groups, if it is not refused. -/
theorem groups_of_batch {updates : Document} {statements : List MergeStatement}
    (h : batch updates = .ok statements) :
    (∀ entry ∈ updates.fields, MemberPath.Quotable entry.1) ∧
      statements = (groupsOf updates.fields).map ofGroup := by
  rw [batch] at h
  rcases hencode : encode 0 updates.fields with refusal | pairs
  · rw [hencode] at h
    cases h
  · rw [hencode] at h
    rcases encode_eq_ok hencode with ⟨hkeys, rfl⟩
    refine ⟨hkeys, (Except.ok.inj h).symm.trans ?_⟩
    -- Without pairs there is still one statement, and it sets none.
    rcases updates.fields with _ | ⟨entry, rest⟩
    · rfl
    · dsimp only
      rw [List.map_cons, List.isEmpty_cons, if_neg Bool.false_ne_true, ← List.map_cons, chunks_map,
        List.map_map]
      rfl

/-- There is at least one of them, and together they set the pairs in order. -/
theorem batch_eq_ok {updates : Document} {statements : List MergeStatement}
    (h : batch updates = .ok statements) :
    (∀ entry ∈ updates.fields, MemberPath.Quotable entry.1) ∧
      ∃ group groups, (group :: groups).flatten = updates.fields ∧
        statements = (group :: groups).map ofGroup := by
  rcases groups_of_batch h with ⟨hkeys, rfl⟩
  rcases List.exists_cons_of_ne_nil (groupsOf_ne_nil updates.fields) with
    ⟨group, groups, hgroups⟩
  have hflatten := flatten_groupsOf updates.fields
  rw [hgroups] at hflatten ⊢
  exact ⟨hkeys, group, groups, hflatten, rfl⟩

/-- A merge whose keys can be quoted and whose values are small enough is not
    refused. -/
theorem batch_of_size_le {updates : Document}
    (hkeys : ∀ entry ∈ updates.fields, MemberPath.Quotable entry.1)
    (hsize : encodedSize updates.fields ≤ updateLimit) :
    ∃ statements, batch updates = .ok statements := by
  rw [batch, encode_of_size_le hkeys (by rwa [Nat.zero_add])]
  exact ⟨_, rfl⟩

/-- A merge that is not refused is small enough. -/
theorem encodedSize_le_of_batch {updates : Document} {statements : List MergeStatement}
    (h : batch updates = .ok statements) : encodedSize updates.fields ≤ updateLimit := by
  rw [batch] at h
  rcases hencode : encode 0 updates.fields with refusal | pairs
  · rw [hencode] at h
    cases h
  · have hsize := encodedSize_le_of_encode (Nat.zero_le _) hencode
    rwa [Nat.zero_add] at hsize

end MergeStatement

end Fieldwork
