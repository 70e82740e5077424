import Fieldwork.Audit.Record
import Fieldwork.Proofs.Disk.Files
import Fieldwork.Proofs.Fallible
import Fieldwork.Proofs.Json.Printed
import Fieldwork.Proofs.Json.Spelled
import Fieldwork.Proofs.Text.Bytes

/-!
# One Line for Every Record

What was recorded can be told from the bytes of the file.

A record is written as an object, and whatever texts are in it, the text of the
object has no control character and so no byte of a line break. Each line then
ends where its record ends, and the bytes that were appended split at line
breaks into the lines, no more and no fewer. A line is read field by field as
the record that was handed over. So nobody who chooses a text of a record can
add a line, join two, or change what another line says: two sequences of
records that leave the same file are the same sequence.

## Main definitions

* `AuditRecord.appended`: The bytes that records append.
* `AuditEvent.Plain`: A value that a reader finds as it was.

## Theorems

* `AuditValue.ofTree?_tree`, `AuditRecord.fields?_line`: What is written is read.
* `AuditRecord.fields_injective`: The fields are all there is to a record.
* `AuditRecord.break_notMem_line`, `break_notMem_bytes`: No line has a line
  break.
* `AuditEvent.line_record`, `AuditEvent.parse?_line_record`: The line of an event.
* `Disk.hasFile_record`: What records append to a file.
* `Disk.record_lines`: The file holds the records, line by line.
-/

namespace Fieldwork

theorem bytesOf_injective {text other : String} (h : bytesOf text = bytesOf other) :
    text = other := by
  rw [bytesOf, bytesOf, String.toUTF8_eq_toByteArray, String.toUTF8_eq_toByteArray] at h
  exact String.toByteArray_inj.1 (ByteArray.ext (Array.toList_inj.1 h))

namespace AuditValue

theorem unquote?_spelled (value : String) : Written.unquote? (spelled value) = some value :=
  Written.unquote?_escape value

theorem text?_spelled (value : String) : text? (.string (spelled value)) = some value :=
  unquote?_spelled value

/-- What a field holds is read from how it is written. -/
theorem ofTree?_tree (value : AuditValue) : ofTree? value.tree = some value := by
  cases value with
  | text value => rw [tree, ofTree?, unquote?_spelled, Option.map_some]
  | texts values =>
    have htexts : (values.map fun value => Written.string (spelled value)).mapM text? =
        some values := Fallible.mapM_map_eq_some text?_spelled values
    rw [tree, ofTree?, htexts, Option.map_some]
  | count value =>
    rw [tree, ofTree?, String.toList_ofList, Numeral.natural?_toDigits, Option.map_some]
  | flag value => rfl
  | absent => rfl

theorem isBody_spelled (value : String) : Written.IsBody (spelled value).toList := by
  rw [spelled, String.toList_ofList]
  exact Written.isBody_escape value.toList

/-- How a field is written is spelled well. -/
theorem wellSpelled_tree (value : AuditValue) : value.tree.WellSpelled := by
  cases value with
  | text value => exact isBody_spelled value
  | texts values =>
    rw [tree, Written.WellSpelled, Written.wellSpelledItems_iff]
    intro item hitem
    rcases List.mem_map.1 hitem with ⟨value, -, rfl⟩
    exact isBody_spelled value
  | count value =>
    have htoken := Number.ofChars?_toDigits false value
    rw [tree, Written.WellSpelled, String.toList_ofList]
    exact Option.isSome_iff_exists.2 ⟨_, htoken⟩
  | flag value => exact trivial
  | absent => exact trivial

theorem ofOption_injective {value other : Option String} (h : ofOption value = ofOption other) :
    value = other := by
  rcases value with _ | value <;> rcases other with _ | other <;> cases h <;> rfl

end AuditValue

namespace AuditRecord

theorem wellSpelled_tree (record : AuditRecord) : record.tree.WellSpelled := by
  rw [tree, Written.WellSpelled, Written.wellSpelledMembers_iff]
  intro member hmember
  rcases List.mem_map.1 hmember with ⟨field, -, rfl⟩
  exact ⟨AuditValue.isBody_spelled field.1, AuditValue.wellSpelled_tree field.2⟩

/-- The line of a record is read as it was written. -/
theorem read?_line (record : AuditRecord) :
    Written.read? record.line.toList = some record.tree := by
  rw [line, Written.text, String.toList_ofList, Written.read?_render record.wellSpelled_tree]

theorem field?_spelled (entry : String × AuditValue) :
    field? (AuditValue.spelled entry.1, entry.2.tree) = some entry := by
  rw [field?, AuditValue.unquote?_spelled, Option.bind_some, AuditValue.ofTree?_tree,
    Option.map_some]

/-- A line has the fields of its record. -/
theorem fields?_line (record : AuditRecord) : fields? record.line = some record.fields := by
  rw [fields?, read?_line, Option.bind_some, tree]
  exact Fallible.mapM_map_eq_some field?_spelled record.fields

theorem details_injective {details other : RecordDetails} (h : details.fields = other.fields) :
    details = other := by
  -- Two kinds have another number of fields, or another name among them.
  cases details with
  | write asset keys rows outcome error =>
    cases other with
    | write asset' keys' rows' outcome' error' =>
      simp only [RecordDetails.fields, List.cons.injEq, Prod.mk.injEq, AuditValue.text.injEq,
        AuditValue.texts.injEq, AuditValue.count.injEq, true_and, and_true] at h
      rcases h with ⟨hasset, hkeys, hrows, houtcome, herror⟩
      rw [AssetId.ext hasset, hkeys, UInt64.toNat_inj.1 hrows, houtcome,
        AuditValue.ofOption_injective herror]
    | query => simp [RecordDetails.fields] at h
    | backfill => simp [RecordDetails.fields] at h
  | query asset format countOnly outcome field =>
    cases other with
    | write => simp [RecordDetails.fields] at h
    | query asset' format' countOnly' outcome' field' =>
      simp only [RecordDetails.fields, List.cons.injEq, Prod.mk.injEq, AuditValue.text.injEq,
        AuditValue.flag.injEq, true_and, and_true] at h
      rcases h with ⟨hasset, hformat, hcount, houtcome, hfield⟩
      have hformat' : format = format' := by
        rw [← Option.some.injEq, ← Format.ofLabel?_label, hformat, Format.ofLabel?_label]
      rw [AssetId.ext hasset, hformat', hcount, houtcome, AuditValue.ofOption_injective hfield]
    | backfill => simp [RecordDetails.fields] at h
  | backfill skipped pages inserted =>
    cases other with
    | write => simp [RecordDetails.fields] at h
    | query => simp [RecordDetails.fields] at h
    | backfill skipped' pages' inserted' =>
      simp only [RecordDetails.fields, List.cons.injEq, Prod.mk.injEq, AuditValue.flag.injEq,
        AuditValue.count.injEq, true_and, and_true] at h
      rcases h with ⟨hskipped, hpages, hinserted⟩
      rw [hskipped, UInt64.toNat_inj.1 hpages, UInt64.toNat_inj.1 hinserted]

/-- The fields are all there is to a record. -/
theorem fields_injective {record other : AuditRecord} (h : record.fields = other.fields) :
    record = other := by
  rcases record with ⟨event, time, details⟩
  rcases other with ⟨event', time', details'⟩
  simp only [fields, List.cons.injEq, Prod.mk.injEq, AuditValue.text.injEq,
    AuditValue.count.injEq, true_and] at h
  rcases h with ⟨hevent, htime, hdetails⟩
  rw [hevent, htime, details_injective hdetails]

/-- Records with one line are one record. -/
theorem line_injective {record other : AuditRecord} (h : record.line = other.line) :
    record = other := by
  have hfields := record.fields?_line
  rw [h, other.fields?_line] at hfields
  exact fields_injective (Option.some.inj hfields).symm

theorem blank_le_of_mem_line (record : AuditRecord) : ∀ c ∈ record.line.toList,
    0x20 ≤ c.toNat := by
  rw [line, Written.text, String.toList_ofList]
  exact Written.blank_le_of_mem_render record.wellSpelled_tree

/-- No line has a line break, whatever texts are in its record. -/
theorem break_notMem_line (record : AuditRecord) : '\n' ∉ record.line.toList := fun h =>
  absurd (record.blank_le_of_mem_line _ h) (by decide)

/-- No line has the byte of a line break. -/
theorem break_notMem_bytes (record : AuditRecord) : '\n'.toUInt8 ∉ bytesOf record.line := by
  intro hmem
  rw [bytesOf, toList_toUTF8, List.mem_flatMap] at hmem
  rcases hmem with ⟨c, hc, hbyte⟩
  -- The byte would be a character by itself, and so the line break.
  have hchar : c.toNat = '\n'.toNat := toNat_eq_of_mem_utf8EncodeChar hbyte (by decide)
  exact record.break_notMem_line (Char.toNat_inj.1 hchar ▸ hc)

/-- A line has at least its braces. -/
theorem bytes_ne_nil (record : AuditRecord) : bytesOf record.line ≠ [] := by
  intro hnil
  -- A line is read as its record, and an empty text is not read at all.
  have hempty : bytesOf "" = [] := rfl
  have hread := record.read?_line
  have hnothing : Written.read? "".toList = none := rfl
  rw [bytesOf_injective (hnil.trans hempty.symm), hnothing] at hread
  cases hread

/-- The bytes that records append. -/
def appended (records : List AuditRecord) : List UInt8 :=
  records.flatMap fun record => bytesOf record.line ++ ['\n'.toUInt8]

/-- The bytes that records append split at line breaks into their lines. -/
theorem splitOn_appended (records : List AuditRecord) :
    (appended records).splitOn '\n'.toUInt8 =
      (records.map fun record => bytesOf record.line) ++ [[]] := by
  have hflat : appended records =
      (records.map fun record => bytesOf record.line).flatMap (· ++ ['\n'.toUInt8]) := by
    rw [appended, List.flatMap_map]
  rw [hflat, splitOn_ended]
  -- No line has a line break within it, so the pieces are the lines.
  rintro piece hpiece
  rcases List.mem_map.1 hpiece with ⟨record, -, rfl⟩
  exact record.break_notMem_bytes

/-- Records that append the same bytes are the same records. -/
theorem appended_injective {records others : List AuditRecord}
    (h : appended records = appended others) : records = others := by
  have hsplit := congrArg (List.splitOn '\n'.toUInt8) h
  rw [splitOn_appended, splitOn_appended] at hsplit
  -- Both sides end with the nothing behind the last line break.
  have hlines := List.append_cancel_right hsplit
  refine List.map_injective_iff.2 (fun record other hline => ?_) hlines
  exact line_injective (bytesOf_injective hline)

end AuditRecord

section Events

/-- Members are spelled one by one. -/
theorem Json.toWrittenMembers_eq_map (members : List (String × Json)) :
    toWrittenMembers members =
      members.map fun member => (AuditValue.spelled member.1, member.2.toWritten) := by
  induction members with
  | nil => rw [toWrittenMembers, List.map_nil]
  | cons member rest ih =>
    rw [toWrittenMembers, ih]
    rfl

theorem AuditValue.tree_text (value : String) :
    (text value).tree = (Json.string value).toWritten := by
  rw [tree, Json.toWritten]
  rfl

theorem AuditValue.tree_texts (values : List String) :
    (texts values).tree = (Json.array (values.map Json.string)).toWritten := by
  rw [tree, Json.toWritten]
  congr 1
  induction values with
  | nil => rw [List.map_nil, List.map_nil, Json.toWrittenItems]
  | cons value rest ih =>
    rw [List.map_cons, List.map_cons, Json.toWrittenItems, ih, Json.toWritten]
    rfl

theorem AuditValue.tree_count (value : UInt64) :
    (count value.toNat).tree = (Json.ofUInt64 value).toWritten := by
  have hnat : ¬ (value.toNat : Int) < 0 := by omega
  have htext : (Number.integer (.ofUInt64 value)).text = Nat.toDigits 10 value.toNat := by
    rw [Number.text, Numeral.ofInt]
    exact if_neg hnat
  rw [tree, Json.ofUInt64, Json.toWritten, htext]

theorem AuditValue.tree_flag (value : Bool) : (flag value).tree = (Json.bool value).toWritten := by
  rw [tree, Json.toWritten]

theorem AuditValue.tree_ofOption (value : Option String) :
    (ofOption value).tree = (AuditEvent.optionalString value).toWritten := by
  cases value with
  | none =>
    rw [AuditEvent.optionalString, Option.map_none, Option.getD_none, Json.toWritten]
    rfl
  | some value => exact tree_text value

namespace AuditEvent

/-- The line of an event is its object as a text. -/
theorem line_record (event : AuditEvent) (time : UInt64) :
    (event.record time).line = (event.toJson time).compact := by
  rw [AuditRecord.line, Json.compact]
  congr 1
  rw [AuditRecord.tree, toJson, Json.toWritten_object, Json.toWrittenMembers_eq_map]
  congr 1
  -- The two trees are built apart, and for each kind of event they have the same
  -- members.
  rcases event with event | event | event
  all_goals
    simp only [record, recordDetails, AuditRecord.fields, RecordDetails.fields, details,
      AssetId.toJson, List.map_cons, List.map_nil, AuditValue.tree_text, AuditValue.tree_texts,
      AuditValue.tree_count, AuditValue.tree_flag, AuditValue.tree_ofOption]

/-- A value that a reader finds as it was: no name twice, no deep nesting, and
    no number that is read as another one. -/
structure Plain (value : Json) : Prop where
  /-- No name comes twice. -/
  distinct : value.DistinctKeys
  /-- There is one level at most. -/
  depth : value.depth ≤ 1
  /-- What is read is what was written. -/
  reread : value.reread = value

theorem plain_string (text : String) : Plain (.string text) :=
  ⟨trivial, Nat.zero_le 1, rfl⟩

theorem plain_bool (value : Bool) : Plain (.bool value) :=
  ⟨trivial, Nat.zero_le 1, rfl⟩

theorem plain_ofUInt64 (value : UInt64) : Plain (.ofUInt64 value) :=
  ⟨trivial, Nat.zero_le 1, congrArg Json.number (Number.reread_integer _)⟩

theorem plain_optionalString (value : Option String) : Plain (optionalString value) := by
  cases value with
  | none => exact ⟨trivial, Nat.zero_le 1, rfl⟩
  | some text => exact plain_string text

theorem plain_strings (values : List String) : Plain (.array (values.map Json.string)) := by
  have hdepth : Json.depthOfItems (values.map Json.string) ≤ 0 :=
    Json.depthOfItems_le_iff.2 (List.forall_mem_map.2 fun _ _ => Nat.le_refl 0)
  refine ⟨?_, Nat.succ_le_succ hdepth, ?_⟩
  · rw [Json.DistinctKeys, Json.distinctKeysInItems_iff]
    exact List.forall_mem_map.2 fun _ _ => trivial
  · rw [Json.reread, Json.rereadItems_eq_self]
    exact List.forall_mem_map.2 fun _ _ => rfl

/-- All that an event says is plain. -/
theorem plain_details (event : AuditEvent) : ∀ entry ∈ event.details, Plain entry.2 := by
  rcases event with event | event | event
  · simp only [details, List.forall_mem_cons]
    exact ⟨plain_string _, plain_strings event.keys, plain_ofUInt64 _, plain_string _,
      plain_optionalString _, List.forall_mem_nil _⟩
  · simp only [details, List.forall_mem_cons]
    exact ⟨plain_string _, plain_string _, plain_bool _, plain_string _, plain_optionalString _,
      List.forall_mem_nil _⟩
  · simp only [details, List.forall_mem_cons]
    exact ⟨plain_bool _, plain_ofUInt64 _, plain_ofUInt64 _, List.forall_mem_nil _⟩

/-- The line of an event is read as the event. -/
theorem parse?_line_record (event : AuditEvent) (time : UInt64) :
    Json.parse? (event.record time).line = some (event.toJson time) := by
  have hnames : Ordered.Distinct
      (("event", Json.string event.name) :: ("timestamp_ms", .ofUInt64 time) :: event.details) := by
    rcases event with event | event | event <;>
      simp [Ordered.Distinct, Ordered.keys, details]
  have hplain : ∀ entry ∈ ("event", Json.string event.name) :: ("timestamp_ms", .ofUInt64 time) ::
      event.details, Plain entry.2 :=
    List.forall_mem_cons.2 ⟨plain_string _,
      List.forall_mem_cons.2 ⟨plain_ofUInt64 time, event.plain_details⟩⟩
  have hdistinct : (event.toJson time).DistinctKeys := by
    rw [toJson, Json.DistinctKeys, Json.distinctKeysInMembers_iff]
    exact ⟨hnames, fun entry hentry => (hplain entry hentry).distinct⟩
  have hdepth : (event.toJson time).depth ≤ Json.depthLimit := by
    have hmembers := Json.depthOfMembers_le_iff.2 fun entry hentry => (hplain entry hentry).depth
    rw [toJson, Json.depth]
    exact Nat.le_trans (Nat.succ_le_succ hmembers) (by decide)
  have hreread : (event.toJson time).reread = event.toJson time := by
    rw [toJson, Json.reread, Json.rereadMembers_eq_self fun entry hentry =>
      (hplain entry hentry).reread]
  rw [line_record, Json.parse?_compact hdistinct hdepth, hreread]

end AuditEvent

end Events

namespace Disk

variable {disk : Disk} {path : Path} {before : ByteArray}

/-- What records append to a file: a line for each, and a line break. -/
theorem hasFile_record (h : disk.HasFile path before) (records : List AuditRecord) :
    ∃ after, (disk.record path records).HasFile path after ∧
      after.data.toList = before.data.toList ++ AuditRecord.appended records := by
  induction records generalizing disk before with
  | nil => exact ⟨before, h, (List.append_nil _).symm⟩
  | cons record rest ih =>
    -- The rest is appended to a file that ends with the first line.
    rcases ih (hasFile_append h (record.line ++ "\n")) with ⟨after, hafter, hbytes⟩
    refine ⟨after, hafter, hbytes.trans ?_⟩
    have hline : (record.line ++ "\n").toUTF8.data.toList =
        bytesOf record.line ++ ['\n'.toUInt8] := by
      rw [toList_toUTF8, String.toList_append, List.flatMap_append, bytesOf, toList_toUTF8]
      rfl
    rw [ByteArray.data_append, Array.toList_append, hline, List.append_assoc]
    rfl

/-- The file holds the records, line by line. The bytes that are appended split
    at line breaks into one line for each record, in their order, and none of
    the lines is empty. A line has the fields of its record and no others, and
    no other records would have left the same file. An event is recorded as any
    record is, and its line is read as the event. -/
theorem record_lines (h : disk.HasFile path before) (records : List AuditRecord) :
    (∃ after added, (disk.record path records).HasFile path after ∧
      after.data.toList = before.data.toList ++ added ∧
      added.splitOn '\n'.toUInt8 = (records.map fun record => bytesOf record.line) ++ [[]] ∧
      (∀ record ∈ records, bytesOf record.line ≠ [] ∧
        AuditRecord.fields? record.line = some record.fields) ∧
      ∀ others, (disk.record path others).HasFile path after → others = records) ∧
      ∀ (event : AuditEvent) time, (event.record time).line = (event.toJson time).compact ∧
        Json.parse? (event.record time).line = some (event.toJson time) := by
  rcases hasFile_record h records with ⟨after, hafter, hbytes⟩
  refine ⟨⟨after, AuditRecord.appended records, hafter, hbytes,
    AuditRecord.splitOn_appended records,
    fun record _ => ⟨record.bytes_ne_nil, record.fields?_line⟩, fun others hothers => ?_⟩,
    fun event time => ⟨event.line_record time, event.parse?_line_record time⟩⟩
  -- Other records that end in the same file have appended the same bytes.
  rcases hasFile_record h others with ⟨after', hafter', hbytes'⟩
  rw [hafter'.unique hothers, hbytes] at hbytes'
  exact (AuditRecord.appended_injective (List.append_cancel_left hbytes')).symm

/-- Two records, the first of which has been given the text of a line, with a
    line break in front. -/
theorem record_lines_forgedText :
    let path : Path := .ofText "audit.log"
    let disk : Disk := ⟨[], [([path.bytes], .file .empty)]⟩
    let forged : AuditRecord := ⟨"deployment_merge", 7,
      .write ⟨"a\n\x7b\"event\":\"deployment_clear\"\x7d"⟩ ["\"", "\r\n"] 0 "failed"
        (some "\x00\n")⟩
    let records := [forged, ⟨"principal_detail_backfill", 8, .backfill true 0 0⟩]
    ∃ after, (disk.record path records).HasFile path after ∧
      (after.data.toList.splitOn '\n'.toUInt8).length = 3 ∧
      AuditRecord.fields? forged.line = some forged.fields := by
  intro path disk forged records
  have hfile : disk.HasFile path .empty := ⟨[path.bytes], by decide +kernel, rfl⟩
  rcases record_lines hfile records with
    ⟨⟨after, added, hafter, hbytes, hsplit, hlines, -⟩, -⟩
  refine ⟨after, hafter, ?_, (hlines forged List.mem_cons_self).2⟩
  have hadded : after.data.toList = added := hbytes.trans (List.nil_append added)
  rw [hadded, hsplit]
  rfl

end Disk

end Fieldwork
