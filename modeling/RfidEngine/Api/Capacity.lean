import RfidEngine.Api.Model

/-!
# RFStatistics and the caller's buffer

The copy of the records goes on while its place is below the number of records
itself, converted to `int`, so that it never ends at the room of the buffer.
-/

namespace RfidEngine

open Api

/-- The copy ends at the last record or at the limit, whichever comes first. -/
theorem fillBuffer_spec (limit ret : Int) (i : Nat) (items : List EpcStatistics) :
    (fillBuffer limit ret i items).ret =
        (if items.length ≤ (limit - i).toNat then ret else rfidErrBufferOverflow) ∧
      (fillBuffer limit ret i items).statCount = i + min items.length (limit - i).toNat ∧
      (fillBuffer limit ret i items).written.map Prod.fst =
        List.range' i (min items.length (limit - i).toNat) := by
  induction items generalizing i with
  | nil => simp [fillBuffer]
  | cons item rest ih =>
      rw [fillBuffer]
      by_cases hlimit : (i : Int) ≥ limit
      · have hroom : (limit - i).toNat = 0 := by omega
        simp [hlimit, hroom]
      · obtain ⟨hret, hcount, hplaces⟩ := ih (i + 1)
        have hroom : (limit - i).toNat = (limit - (i + 1 : Nat)).toNat + 1 := by omega
        rw [if_neg hlimit, hroom]
        refine ⟨?_, ?_, ?_⟩
        · rw [hret, List.length_cons]
          simp only [Nat.add_le_add_iff_right]
        · rw [hcount, List.length_cons, Nat.add_min_add_right]
          push_cast
          omega
        · rw [List.map_cons, hplaces, List.length_cons, Nat.add_min_add_right, List.range'_succ]

/-- What a call may do with a buffer that has room for `n` of the records made. -/
structure RespectsBuffer (n : Nat) (records : List EpcStatistics) (answer : StatisticsAnswer) :
    Prop where
  places : ∀ item ∈ answer.written, item.1 < n
  statCount : answer.statCount = min n records.length
  overflow : answer.ret = rfidErrBufferOverflow ↔ n < records.length

/-- The room that the copy happens to need: that of all records; where their number is no `int`,
that at which its conversion ends the copy. -/
def RoomFor (n records : Nat) : Prop :=
  if records ≤ intMax then records ≤ n else n = (toInt records).toNat

instance (n records : Nat) : Decidable (RoomFor n records) :=
  inferInstanceAs (Decidable (if (records : Int) ≤ intMax then records ≤ n else _))

theorem respectsBuffer_iff (n : Nat) (records : List EpcStatistics) :
    RespectsBuffer n records (fillBuffer (toInt records.length) rfidOk 0 records) ↔
      RoomFor n records.length := by
  obtain ⟨hret, hcount, hplaces⟩ := fillBuffer_spec (toInt records.length) rfidOk 0 records
  simp only [Int.ofNat_zero, Int.sub_zero, Int.zero_add] at hret hcount hplaces
  have hwritten : (∀ item ∈ (fillBuffer (toInt records.length) rfidOk 0 records).written,
      item.1 < n) ↔ min records.length (toInt records.length).toNat ≤ n := by
    rw [← List.forall_mem_map (f := Prod.fst) (P := (· < n)), hplaces]
    constructor
    · intro h
      by_contra hlt
      have hmem := h n (List.mem_range'_1.mpr ⟨Nat.zero_le n, by omega⟩)
      exact Nat.lt_irrefl n hmem
    · intro hle i hi
      have hi' := (List.mem_range'_1.mp hi).2
      omega
  have hok : rfidOk ≠ rfidErrBufferOverflow := by decide
  have hoverflow : (fillBuffer (toInt records.length) rfidOk 0 records).ret =
      rfidErrBufferOverflow ↔ ¬ records.length ≤ (toInt records.length).toNat := by
    rw [hret]
    by_cases hfit : records.length ≤ (toInt records.length).toNat
    · rw [if_pos hfit]
      exact iff_of_false hok (not_not.mpr hfit)
    · rw [if_neg hfit]
      exact iff_of_true rfl hfit
  have hrespects : RespectsBuffer n records
      (fillBuffer (toInt records.length) rfidOk 0 records) ↔
        min records.length (toInt records.length).toNat ≤ n ∧
        min records.length (toInt records.length).toNat = min n records.length ∧
        (¬ records.length ≤ (toInt records.length).toNat ↔ n < records.length) := by
    constructor
    · intro h
      have hstat := h.statCount
      rw [hcount] at hstat
      exact ⟨hwritten.mp h.places, by omega, hoverflow.symm.trans h.overflow⟩
    · intro h
      obtain ⟨hle, hstat, hover⟩ := h
      exact ⟨hwritten.mpr hle, by rw [hcount]; omega, hoverflow.trans hover⟩
  rw [hrespects, RoomFor]
  have hle := toInt_le records.length
  have hmax : 0 ≤ intMax := by decide
  split
  · rename_i hint
    rw [toInt_eq_iff.mpr hint, Int.toNat_natCast]
    omega
  · rename_i hlarge
    omega

variable {π : Type} {host : Host π} {h : Int} {w : World π} {p : π}

/-- A bank read on an interface returns the replies that hold data, and leaves the table. -/
theorem readBankHelper_of_pointer (host : Host π) (hptr : w.hm.getRfidPtr h = some p)
    (slot : Int) (loop : Bool) (bankType start wordLen : Int) :
    ∃ results sent, readBankHelper host h slot loop bankType start wordLen w =
      some ((rfidOk, results), { w with sent := sent }) := by
  let c := InterfaceCall.readMultiBank slot loop bankType start wordLen
  obtain ⟨parsed, hparsed⟩ := exists_mapM_eq_some
    (fun response => parse_isSome host.unset response bankType)
    (host.answer w.sent p c : Int × List Str).2
  exact ⟨_, _, readBankHelper_of_parsed hptr hparsed⟩

/-- However many rounds the clock allows, their reads are collected. -/
theorem readRounds_of_pointer (host : Host π) (hptr : w.hm.getRfidPtr h = some p)
    (slot : Int) (loop : Bool) (bankType start wordLen : Int) (moreRounds : Nat) :
    ∃ results sent, readRounds host h slot loop bankType start wordLen moreRounds w =
      some ((rfidOk, results), { w with sent := sent }) := by
  induction moreRounds generalizing w with
  | zero => exact readBankHelper_of_pointer host hptr slot loop bankType start wordLen
  | succ more ih =>
      obtain ⟨first, sent, hfirst⟩ := readBankHelper_of_pointer host hptr slot loop
        bankType start wordLen
      obtain ⟨later, sent', hlater⟩ := ih (w := { w with sent := sent }) hptr
      refine ⟨first ++ later, sent', ?_⟩
      rw [readRounds, bind_of_eq hfirst, bind_of_eq hlater]
      rfl

theorem rfStatistics_of_reads {slot : Int} {loop : Bool} {bankType start wordLen : Int}
    {moreRounds : Nat} (rule : StatisticsRule) {reads : List RfidParseUR}
    {records : List EpcStatistics} {sent : List (π × InterfaceCall)}
    (hptr : w.hm.getRfidPtr h = some p)
    (hreads : readRounds host h slot loop bankType start wordLen moreRounds w =
      some ((rfidOk, reads), { w with sent := sent })) (n : Nat)
    (hrecords : doStatisticHelper (host.readerId p) rule (withBehind host reads) = some records) :
    rfStatistics host h slot loop bankType start wordLen moreRounds rule (some n) w =
      some (fillBuffer (toInt records.length) rfidOk 0 records, { w with sent := sent }) := by
  have hptr' : ({ w with sent := sent } : World π).hm.getRfidPtr h = some p := hptr
  simp only [rfStatistics]
  rw [bind_of_eq (isValidHandle_of_pointer hptr), if_pos rfl, bind_of_eq hreads]
  simp only
  rw [bind_of_eq (readerId_of_pointer hptr'), bind_of_eq (lift_of_eq hrecords _)]
  rfl

/-- On a handle of an interface `RFStatistics` makes records of the reads it collects, and
respects the caller's buffer exactly when there is room for them all. -/
theorem statistics_respects_buffer_iff (host : Host π) (h : Int) (w : World π) (p : π)
    (hptr : w.hm.getRfidPtr h = some p) (slot : Int) (loop : Bool) (bankType start wordLen : Int)
    (moreRounds : Nat) (rule : StatisticsRule) (n : Nat) :
    ∃ reads w', readRounds host h slot loop bankType start wordLen moreRounds w =
        some ((rfidOk, reads), w') ∧
      ((∃ records answer,
          doStatisticHelper (host.readerId p) rule (withBehind host reads) = some records ∧
          rfStatistics host h slot loop bankType start wordLen moreRounds rule (some n) w =
            some (answer, w') ∧
          RespectsBuffer n records answer) ↔
        ∃ records,
          doStatisticHelper (host.readerId p) rule (withBehind host reads) = some records ∧
          RoomFor n records.length) := by
  obtain ⟨reads, sent, hreads⟩ := readRounds_of_pointer host hptr slot loop bankType
    start wordLen moreRounds
  refine ⟨reads, _, hreads, ?_⟩
  have hanswer := fun records (hrecords : doStatisticHelper (host.readerId p) rule
    (withBehind host reads) = some records) =>
      rfStatistics_of_reads rule hptr hreads n hrecords
  constructor
  · intro hrespects
    obtain ⟨records, answer, hrecords, hrun, hbuffer⟩ := hrespects
    obtain ⟨rfl, -⟩ := Prod.mk.inj (Option.some.inj ((hanswer records hrecords).symm.trans hrun))
    exact ⟨records, hrecords, (respectsBuffer_iff n records).mp hbuffer⟩
  · intro hroom
    obtain ⟨records, hrecords, hroom⟩ := hroom
    exact ⟨records, _, hrecords, hanswer records hrecords,
      (respectsBuffer_iff n records).mpr hroom⟩

/-- The replies of two tags. -/
def twoTags : List MultiBankReply :=
  [sampleReply sampleEpc sampleTid, sampleReply otherEpc sampleTid]

/-- The records of the two tags. -/
def twoRecords : List EpcStatistics :=
  twoTags.map fun r => newStat sampleReaderId 1 ⟨r.parsed .tid, (sampleStatRead [] []).behind⟩

theorem readRounds_twoTags : ∃ sent,
    readRounds (replyHost rfidOk twoTags) 1 3 true Bank.tid.code 0 6 0 sampleWorld =
      some ((rfidOk, twoTags.map (MultiBankReply.parsed · .tid)),
        { sampleWorld with sent := sent }) :=
  readBankHelper_replyHost rfidOk twoTags 3 true .tid 0 6

theorem doStatisticHelper_twoTags :
    doStatisticHelper sampleReaderId .byEpc (withBehind (replyHost rfidOk twoTags)
      (twoTags.map (MultiBankReply.parsed · .tid))) = some twoRecords := by
  decide

/-- With room for both, both are handed out. -/
theorem statistics_respects_buffer_twoTags : ∃ records answer w',
    rfStatistics (replyHost rfidOk twoTags) 1 3 true Bank.tid.code 0 6 0 .byEpc (some 2)
      sampleWorld = some (answer, w') ∧
    RespectsBuffer 2 records answer := by
  obtain ⟨reads, w', hreads, hiff⟩ := statistics_respects_buffer_iff (replyHost rfidOk twoTags) 1
    sampleWorld 'b' rfl 3 true Bank.tid.code 0 6 0 .byEpc 2
  obtain ⟨sent, htags⟩ := readRounds_twoTags
  obtain ⟨⟨-, rfl⟩, -⟩ : ((rfidOk, reads) = (rfidOk, _)) ∧ _ :=
    Prod.mk.inj (Option.some.inj (hreads.symm.trans htags))
  obtain ⟨records, answer, -, hrun, hrespects⟩ :=
    hiff.mpr ⟨twoRecords, doStatisticHelper_twoTags, by decide⟩
  exact ⟨records, answer, w', hrun, hrespects⟩

/-- With room for one record, the second is written behind the buffer, and `RFID_OK` returned. -/
theorem second_record_overruns_buffer : ∃ answer w',
    rfStatistics (replyHost rfidOk twoTags) 1 3 true Bank.tid.code 0 6 0 .byEpc (some 1)
      sampleWorld = some (answer, w') ∧
    answer.written.map Prod.fst = [0, 1] ∧ answer.statCount = 2 ∧ answer.ret = rfidOk ∧
    ¬ RespectsBuffer 1 twoRecords answer := by
  obtain ⟨sent, hreads⟩ := readRounds_twoTags
  have hrun := rfStatistics_of_reads .byEpc (by rfl) hreads 1 doStatisticHelper_twoTags
  refine ⟨_, _, hrun, by decide, by decide, by decide, ?_⟩
  intro hrespects
  exact absurd ((respectsBuffer_iff 1 twoRecords).mp hrespects) (by decide)

end RfidEngine
