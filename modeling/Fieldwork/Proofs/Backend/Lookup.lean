import Fieldwork.Proofs.Backend.Services
import Fieldwork.Proofs.Submission.Normal
import Fieldwork.Store.Memory

/-!
# Looking for One Submission

Which record a search for an id finds.

A search is a list with the one id to choose from, cut down to its first
record. Everything else that was sent goes along. The choice of submissions
that was sent is replaced, so it neither counts nor is refused. A limit lets at
least one record through, so it does not count either. But how many records to
skip is taken over as it is, and the record that is looked for is among those
that are skipped: with a start of `n` the search finds the record behind the
first `n` with the id, so where ids are unique it finds nothing unless `n` is
zero.

A search never finds a record with another id, whatever was sent.

## Main definitions

* `RecordList.withId`: The records with an id.

## Theorems

* `head?_select`: The first record that a query for one id selects.
* `complete_seeking`: What the query of a search asks for.
* `find_withId`: What a search finds.
* `find_of_start`: A search that skips the record that it looks for.
-/

namespace Fieldwork

open Submission

namespace RecordList

/-- The records with an id. -/
def withId (records : RecordList) (id : SubmissionId) : RecordList :=
  records.filter fun record => idOf record = id.number

theorem mem_withId_iff {records : RecordList} {id : SubmissionId} {record : Json} :
    record ∈ records.withId id ↔ record ∈ records ∧ idOf record = id.number := by
  rw [withId, List.mem_filter, decide_eq_true_iff]

/-- A bound lets the first record through. -/
theorem head?_take_limit (records : RecordList) (limit : PageLimit) :
    (records.take limit.count.toNat).head? = records.head? := by
  have hcount : limit.count.toNat ≠ 0 := fun h => limit.count_ne_zero (UInt64.toNat_inj.1 h)
  rw [List.head?_take, if_neg hcount]

/-- The first record that a query for one id selects is the one behind those
    that are skipped. -/
theorem head?_select {scope : Scope} {id : SubmissionId} (h : scope.instanceIds = [id])
    (listing : Listing) (records : RecordList) :
    (select (.list scope listing) records).head? = (records.withId id)[listing.start.toNat]? := by
  have hwanted : records.filter (isWanted scope) = records.withId id := by
    refine List.filter_congr fun record _ => ?_
    rw [isWanted, h, List.any_cons, List.any_nil, List.isEmpty_cons, Bool.false_or, Bool.or_false,
      Bool.beq_eq_decide_eq]
    exact decide_eq_decide.2 eq_comm
  -- The limit is applied behind the start, so it cannot take the first record away.
  rw [← List.head?_drop]
  cases hlimit : listing.limit with
  | none => simp only [select, Query.scope, Query.listing?, hlimit, hwanted]
  | some limit =>
    simp only [select, Query.scope, Query.listing?, hlimit, hwanted]
    exact head?_take_limit _ limit

end RecordList

namespace Request

/-- The query of a search asks for the one id, and skips as many records as the
    request says. -/
theorem complete_seeking {r : Request} {id : SubmissionId} {asked : Except AuthorizationError Json}
    {query : Query} (h : (r.seeking id).verdict asked = .ok query) :
    ∃ scope listing, query = .list scope listing ∧ scope.instanceIds = [id] ∧
      startOf (r.params.value? .start) = .ok listing.start := by
  rcases verdict_eq_ok_iff.1 h with ⟨filter, ids, permission, hscreen, -, hcomplete⟩
  -- The parameter that is read is the one that the search has put there.
  have hids : instanceIdsOf (some (.array [id.toJson])) = .ok ids :=
    (screen_eq_ok_iff.1 hscreen).2.2
  have hid : instanceIdsOf (some (.array [id.toJson])) = .ok [id] :=
    instanceIdsOf_instanceIdsJson ⟨filter, [id], permission⟩
  rcases complete_eq_ok_iff.1 hcomplete with ⟨hmode, -⟩ | ⟨-, listing, hlisting, rfl⟩
  · cases hmode
  · refine ⟨_, listing, rfl, ?_, (listing_eq_ok_iff.1 hlisting).2.1⟩
    exact Except.ok.inj (hids.symm.trans hid)

/-- The submissions to choose from that were sent have no part in a search. -/
theorem seeking_set_instanceIds (r : Request) (value : Json) (id : SubmissionId) :
    Request.seeking { r with params := r.params.set .instanceIds value } id = r.seeking id := by
  have hparams : (r.params.set .instanceIds value).withInstanceIds [id] =
      r.params.withInstanceIds [id] := by
    refine Params.ext (funext fun parameter => ?_)
    simp only [Params.withInstanceIds, Params.value?_set]
    split <;> rfl
  simp only [seeking, hparams]

end Request

variable {σ τ : Type}

/-- What a search finds, for every rule about who may see what, every way to
    choose the records that a query sees, and whatever else is sent. It is the
    record behind as many visible ones with the id as are to be skipped. So it
    never has another id, and it is found whenever there is one and nothing is
    skipped; then nothing is found only if no visible record has the id. The
    submissions to choose from that were sent have no part in it. -/
theorem Services.find_withId (services : Services σ τ) {visible : Query → τ → RecordList}
    (hengine : services.engine = RecordList.engine visible) (r : Request) (id : SubmissionId)
    (state : τ) {query : Query}
    (hquery : (services.validated (r.seeking id) state).1 = .ok query) :
    let result (r : Request) := (services.backend.find r id state).result
    let seen := visible query (services.validated (r.seeking id) state).2
    ∃ start, startOf (r.params.value? .start) = .ok start ∧
      result r = .ok ((seen.withId id)[start.toNat]?.map (RecordList.render r.format)) ∧
      (∀ found, result r = .ok (some found) →
        ∃ record ∈ seen, RecordList.idOf record = id.number ∧
          found = RecordList.render r.format record) ∧
      (start = 0 → (result r = .ok none ↔ ∀ record ∈ seen, RecordList.idOf record ≠ id.number)) ∧
      (∀ record, seen.withId id = [record] →
        result r = .ok (if start = 0 then some (RecordList.render r.format record) else none)) ∧
      ∀ value, result { r with params := r.params.set .instanceIds value } = result r := by
  intro result seen
  have hverdict := (Request.fst_run_validate services.permissions state).symm.trans hquery
  rcases Request.complete_seeking hverdict with ⟨scope, listing, rfl, hids, hstart⟩
  have hresult : result r =
      .ok ((seen.withId id)[listing.start.toNat]?.map (RecordList.render r.format)) := by
    have hlist := services.result_list (r.seeking id) state
    have hvalidated : services.validated { r.seeking id with mode := .list } state =
        (.ok (.list scope listing), (services.validated (r.seeking id) state).2) :=
      Prod.ext hquery rfl
    rw [hvalidated, hengine] at hlist
    rw [← RecordList.head?_select hids, ← List.head?_map]
    exact congrArg (Except.map List.head?) hlist
  have hzero (h : listing.start = 0) : listing.start.toNat = 0 := by
    rw [h]
    rfl
  refine ⟨listing.start, hstart, hresult, ?_, ?_, ?_, ?_⟩
  · intro found hfound
    rw [hresult, Except.ok.injEq, Option.map_eq_some_iff] at hfound
    rcases hfound with ⟨record, hrecord, rfl⟩
    have hmem := RecordList.mem_withId_iff.1 (List.mem_of_getElem? hrecord)
    exact ⟨record, hmem.1, hmem.2, rfl⟩
  · intro h
    rw [hresult, hzero h, Except.ok.injEq, Option.map_eq_none_iff, List.getElem?_eq_none_iff,
      Nat.le_zero, List.length_eq_zero_iff, List.eq_nil_iff_forall_not_mem]
    refine forall_congr' fun record => ?_
    rw [RecordList.mem_withId_iff, not_and]
  · intro record hone
    rw [hresult, hone]
    -- Where the id is unique, any start at all skips the only record.
    by_cases h : listing.start = 0
    · rw [hzero h, if_pos h]
      rfl
    · have hstart : listing.start.toNat ≠ 0 := fun hn => h (UInt64.toNat_inj.1 hn)
      rw [if_neg h, List.getElem?_eq_none (by simp only [List.length_singleton]; omega)]
      rfl
  · intro value
    have hlist : services.list (({ r with params := r.params.set .instanceIds value } :
        Request).seeking id) state = services.list (r.seeking id) state := by
      rw [Request.seeking_set_instanceIds]
    exact congrArg (fun answer => Except.map List.head? answer.result) hlist

/-- Services over these records, all of which everybody sees. -/
def recordServices (records : RecordList) : Services MemoryStore Unit where
  store := MemoryStore.calls
  permissions _ _ := pure (.ok Scope.unconstrained)
  engine := RecordList.engine fun _ _ => records
  counter := none

/-- A record with an id and nothing else. -/
def bareRecord (id : UInt64) : Json :=
  .object [("_id", .ofUInt64 id)]

/-- A request with these parameters. -/
def sending (params : List (String × Json)) : Request :=
  { asset := ⟨"aX"⟩, principal := ⟨"7"⟩, format := .text, mode := .list,
    params := .ofMembers params }

/-- The greatest id, with a bound of one and a choice of submissions that is
    none. -/
theorem Services.find_withId_greatest :
    let services := recordServices [bareRecord 1, bareRecord 0xffffffffffffffff]
    let r := sending [("limit", .string "1"), ("instance_ids", .string "garbage")]
    services.engine = RecordList.engine (fun _ _ => [bareRecord 1, bareRecord 0xffffffffffffffff]) ∧
      (∃ query, (services.validated (r.seeking ⟨0xffffffffffffffff⟩) ()).1 = .ok query) ∧
      (services.backend.find r ⟨0xffffffffffffffff⟩ ()).result =
        .ok (some (.text "<instance id=\"18446744073709551615\"/>")) := by
  intro services r
  have hquery : (services.validated (r.seeking ⟨0xffffffffffffffff⟩) ()).1 =
      .ok (.list ⟨.empty, [⟨0xffffffffffffffff⟩], Scope.unconstrained⟩
        ⟨0, some ⟨1, by decide⟩, [], []⟩) :=
    rfl
  refine ⟨rfl, ⟨_, hquery⟩, ?_⟩
  rcases find_withId services rfl r ⟨0xffffffffffffffff⟩ () hquery with
    ⟨start, hstart, -, -, -, hone, -⟩
  cases hstart
  exact hone (bareRecord 0xffffffffffffffff) rfl

/-- A search that skips the record that it looks for. -/
theorem Services.find_of_start :
    let services := recordServices [bareRecord 1, bareRecord 2]
    let r := sending [("start", .ofUInt64 1)]
    (∃ query, (services.validated (r.seeking ⟨2⟩) ()).1 = .ok query) ∧
      bareRecord 2 ∈ RecordList.withId [bareRecord 1, bareRecord 2] ⟨2⟩ ∧
      (services.backend.find r ⟨2⟩ ()).result = .ok none := by
  refine ⟨⟨_, rfl⟩, ?_, rfl⟩
  exact RecordList.mem_withId_iff.2 ⟨List.mem_cons_of_mem _ List.mem_cons_self, rfl⟩

end Fieldwork
