import RfidEngine.Api.Capacity
import RfidEngine.RfidInterface.Requests

/-!
# Failed bank reads

`ReadBankHelper` overwrites the code of `ReadMultiBank` with `RFID_OK`. Both of
its callers hand that code on, so that an input that is rejected and a send that
fails look like a field without a tag.

## Main results

The calls for which the code of the interface is the code of the function, and
those for which the statistics of failed rounds are not reported as a success.
-/

namespace RfidEngine

open Api RfidInterface AsyncSend

variable {π : Type}

/-- What `AsyncSend` gives back for the calls made so far: the count of bytes sent and the packets
recorded. -/
abbrev SendAnswers (π : Type) :=
  List (π × InterfaceCall) → π → Command (List Str) → Int × List Str

/-- The bank reads are those of `ReadMultiBank`. -/
def Host.withReads (host : Host π) (asyncSend : SendAnswers π) : Host π where
  answer := fun sent p c =>
    match c with
    | .readMultiBank slot loop bankType start wordLen =>
        match RfidInterface.readMultiBank slot loop bankType start wordLen with
        | some command =>
            ((Reading.readMultiBank slot loop bankType start wordLen).result
              (asyncSend sent p command).1, (asyncSend sent p command).2)
        | none => (rfidErrInput, [])
    | c => host.answer sent p c
  readerId := host.readerId
  dumpU := host.dumpU
  dumpUR := host.dumpUR
  unset := host.unset
  behind := host.behind

/-- The arguments of a bank read. -/
structure ReadArguments where
  slot : Int
  loop : Bool
  bankType : Int
  start : Int
  wordLen : Int

namespace ReadArguments

/-- The call made on the interface. -/
def call (a : ReadArguments) : InterfaceCall :=
  .readMultiBank a.slot a.loop a.bankType a.start a.wordLen

/-- The input is accepted and the send does not fail. -/
def Sent (a : ReadArguments) (asyncSend : SendAnswers π) (p : π)
    (sent : List (π × InterfaceCall)) : Prop :=
  ∃ command, RfidInterface.readMultiBank a.slot a.loop a.bankType a.start a.wordLen =
    some command ∧ 0 ≤ (asyncSend sent p command).1

/-- The code that the interface returns. -/
def code (a : ReadArguments) (host : Host π) (p : π) (sent : List (π × InterfaceCall)) : Int :=
  (host.answer sent p a.call : Int × List Str).1

/-- The replies of one read that hold data. -/
def held (a : ReadArguments) (host : Host π) (p : π) (sent : List (π × InterfaceCall)) :
    List RfidParseUR :=
  ((host.answer sent p a.call : Int × List Str).2.filterMap
    fun response => RfidParseUR.parse host.unset response a.bankType).filter
      fun parseUR => parseUR.isMatch && parseUR.hasData

/-- The reads of all rounds. -/
def collected (a : ReadArguments) (host : Host π) (p : π) (sent : List (π × InterfaceCall)) :
    Nat → List RfidParseUR
  | 0 => a.held host p sent
  | more + 1 => a.held host p sent ++ a.collected host p (sent ++ [(p, a.call)]) more

/-- The calls made when some rounds are over. -/
def after (a : ReadArguments) (p : π) (sent : List (π × InterfaceCall)) (rounds : Nat) :
    List (π × InterfaceCall) := sent ++ List.replicate rounds (p, a.call)

end ReadArguments

section OnPointer

variable (host : Host π) (asyncSend : SendAnswers π) {h : Int} {w : World π} {p : π}
  (a : ReadArguments)

theorem code_eq_ok_iff (sent : List (π × InterfaceCall)) :
    a.code (host.withReads asyncSend) p sent = rfidOk ↔ a.Sent asyncSend p sent := by
  have hinput : rfidErrInput ≠ rfidOk := by decide
  have hsend : rfidErrSend ≠ rfidOk := by decide
  unfold ReadArguments.code ReadArguments.Sent ReadArguments.call
  cases hcommand : RfidInterface.readMultiBank a.slot a.loop a.bankType a.start a.wordLen with
  | none => simp [Host.withReads, hcommand, hinput]
  | some command =>
      by_cases hcount : 0 ≤ (asyncSend sent p command).1
      · simp [Host.withReads, hcommand, Reading.result, hcount]
      · simp [Host.withReads, hcommand, Reading.result, hcount, hsend]

/-- Parsing the replies returns for each. -/
theorem mapM_parse_eq (unset : Unset) (bank : Int) (replies : List Str) :
    replies.mapM (fun response => RfidParseUR.parse unset response bank) =
      some (replies.filterMap fun response => RfidParseUR.parse unset response bank) := by
  induction replies with
  | nil => rfl
  | cons response replies ih =>
      obtain ⟨x, hx⟩ := Option.isSome_iff_exists.mp (parse_isSome unset response bank)
      simp [List.mapM_cons, hx, ih]

variable (hptr : w.hm.getRfidPtr h = some p)
include hptr

theorem readBankHelper_held :
    readBankHelper host h a.slot a.loop a.bankType a.start a.wordLen w =
      some ((rfidOk, a.held host p w.sent), { w with sent := w.sent ++ [(p, a.call)] }) :=
  readBankHelper_of_parsed hptr (mapM_parse_eq _ _ _)

/-- A bank read returns `RFID_OK` whatever the interface returned, if its reads can be dumped. -/
theorem rfReadMultiBank_ret (x : Int) :
    (∃ json w', rfReadMultiBank host h a.slot a.loop a.bankType a.start a.wordLen w =
        some ((x, json), w')) ↔
      x = rfidOk ∧ (host.dumpUR (a.held host p w.sent)).isSome = true := by
  have hrun := rfReadMultiBank_of_parsed hptr (mapM_parse_eq host.unset a.bankType
    (host.answer w.sent p a.call : Int × List Str).2)
  have hdumped : rfReadMultiBank host h a.slot a.loop a.bankType a.start a.wordLen w =
      (host.dumpUR (a.held host p w.sent)).map _ := hrun
  rw [hdumped]
  cases hdump : host.dumpUR (a.held host p w.sent) with
  | none => simp
  | some s =>
      rw [Option.map_some]
      constructor
      · rintro ⟨json, w', hout⟩
        exact ⟨(congrArg (fun r => r.1.1) (Option.some.inj hout)).symm, rfl⟩
      · rintro ⟨rfl, -⟩
        exact ⟨_, _, rfl⟩

/-- The rounds collect their reads and end with `RFID_OK`. -/
theorem readRounds_collected (more : Nat) :
    readRounds host h a.slot a.loop a.bankType a.start a.wordLen more w =
      some ((rfidOk, a.collected host p w.sent more),
        { w with sent := a.after p w.sent (more + 1) }) := by
  induction more generalizing w with
  | zero => exact readBankHelper_held host a hptr
  | succ more ih =>
      have hlater := ih (w := { w with sent := w.sent ++ [(p, a.call)] }) hptr
      rw [readRounds, bind_of_eq (readBankHelper_held host a hptr), bind_of_eq hlater]
      have hsent : a.after p (w.sent ++ [(p, a.call)]) (more + 1) =
          a.after p w.sent (more + 1 + 1) := by
        simp [ReadArguments.after, List.replicate_succ (n := more + 1)]
      rw [← hsent]
      rfl

omit hptr in
/-- The copy reports an overflow exactly where the number of records is no `int`. -/
theorem fillBuffer_ok_iff (records : List EpcStatistics) :
    (fillBuffer (toInt records.length) rfidOk 0 records).ret = rfidOk ↔
      (records.length : Int) ≤ intMax := by
  have hret := (fillBuffer_spec (toInt records.length) rfidOk 0 records).1
  have hoverflow : rfidErrBufferOverflow ≠ rfidOk := by decide
  have hle := toInt_le records.length
  have hint : toInt records.length = records.length ↔ (records.length : Int) ≤ intMax :=
    toInt_eq_iff
  simp only [Int.ofNat_zero, Int.sub_zero] at hret
  rw [hret]
  by_cases hsmall : (records.length : Int) ≤ intMax
  · rw [hint.mpr hsmall, Int.toNat_natCast, if_pos (Nat.le_refl _)]
    exact iff_of_true rfl hsmall
  · have hlong : ¬ records.length ≤ (toInt records.length).toNat := by
      have hmax : 0 ≤ intMax := by decide
      omega
    rw [if_neg hlong]
    exact iff_of_false hoverflow hsmall

/-- The statistics return `RFID_OK` exactly if the buffer is not null and the records that are
made of the reads can be counted. -/
theorem rfStatistics_ok_iff (more : Nat) (rule : StatisticsRule) (buffer : Option Nat) :
    (∃ answer w',
      rfStatistics host h a.slot a.loop a.bankType a.start a.wordLen more rule buffer w =
        some (answer, w') ∧ answer.ret = rfidOk) ↔
      buffer ≠ none ∧ ∃ records, doStatisticHelper (host.readerId p) rule
        (withBehind host (a.collected host p w.sent more)) = some records ∧
          (records.length : Int) ≤ intMax := by
  have hreads := readRounds_collected host a hptr more
  cases buffer with
  | none =>
      refine iff_of_false ?_ fun hbuffer => hbuffer.1 rfl
      rintro ⟨answer, w', hrun, hok⟩
      obtain ⟨rfl, -⟩ := Prod.mk.inj (Option.some.inj hrun)
      exact absurd hok (by decide : rfidErrInvalidBuffer ≠ rfidOk)
  | some n =>
      cases hrecords : doStatisticHelper (host.readerId p) rule
          (withBehind host (a.collected host p w.sent more)) with
      | none =>
          refine iff_of_false ?_ ?_
          · rintro ⟨answer, w', hrun, -⟩
            have hptr' : ({ w with sent := a.after p w.sent (more + 1) } : World π).hm.getRfidPtr
                h = some p := hptr
            simp only [rfStatistics] at hrun
            rw [bind_of_eq (isValidHandle_of_pointer hptr), if_pos rfl, bind_of_eq hreads] at hrun
            simp only at hrun
            rw [bind_of_eq (readerId_of_pointer hptr'), bind_of_none] at hrun
            · exact absurd hrun.symm (Option.some_ne_none _)
            · rw [Api.lift, hrecords, Option.map_none]
          · rintro ⟨-, records, hsome, -⟩
            exact absurd hsome.symm (Option.some_ne_none records)
      | some records =>
          have hrun := rfStatistics_of_reads rule hptr hreads n hrecords
          constructor
          · rintro ⟨answer, w', hrun', hok⟩
            obtain ⟨rfl, -⟩ := Prod.mk.inj (Option.some.inj (hrun.symm.trans hrun'))
            exact ⟨Option.some_ne_none n, records, rfl, (fillBuffer_ok_iff records).mp hok⟩
          · rintro ⟨-, records', hsame, hint⟩
            obtain rfl := Option.some.inj hsame
            exact ⟨_, _, hrun, (fillBuffer_ok_iff records).mpr hint⟩

end OnPointer

section Propagation

variable (host : Host π) (asyncSend : SendAnswers π) (h : Int) (w : World π) (p : π)
  (a : ReadArguments)

/-- `RFReadMultiBank` returns the code of the interface. -/
def PropagatesCode : Prop :=
  ∃ json w', rfReadMultiBank (host.withReads asyncSend) h a.slot a.loop a.bankType a.start
    a.wordLen w = some ((a.code (host.withReads asyncSend) p w.sent, json), w')

/-- Every round's read fails. -/
def AllRoundsFail (more : Nat) : Prop :=
  ∀ i ≤ more, a.code (host.withReads asyncSend) p (a.after p w.sent i) ≠ rfidOk

/-- `RFStatistics` does not return `RFID_OK` when every round failed. -/
def ReportsFailure (more : Nat) (rule : StatisticsRule) (buffer : Option Nat) : Prop :=
  AllRoundsFail host asyncSend w p a more → ∀ answer w',
    rfStatistics (host.withReads asyncSend) h a.slot a.loop a.bankType a.start a.wordLen more rule
      buffer w = some (answer, w') → answer.ret ≠ rfidOk

variable {h w p} (hptr : w.hm.getRfidPtr h = some p)
include hptr

theorem propagatesCode_iff : PropagatesCode host asyncSend h w p a ↔
    a.Sent asyncSend p w.sent ∧
      (host.dumpUR (a.held (host.withReads asyncSend) p w.sent)).isSome = true := by
  rw [PropagatesCode, rfReadMultiBank_ret _ a hptr, code_eq_ok_iff]
  rfl

theorem reportsFailure_iff (more : Nat) (rule : StatisticsRule) (buffer : Option Nat) :
    ReportsFailure host asyncSend h w p a more rule buffer ↔
      (∃ i ≤ more, a.Sent asyncSend p (a.after p w.sent i)) ∨ buffer = none ∨
        ∀ records, doStatisticHelper (host.readerId p) rule (withBehind host
          (a.collected (host.withReads asyncSend) p w.sent more)) = some records →
            intMax < records.length := by
  have hok := rfStatistics_ok_iff (host.withReads asyncSend) a hptr more rule buffer
  have hfail : AllRoundsFail host asyncSend w p a more ↔
      ¬ ∃ i ≤ more, a.Sent asyncSend p (a.after p w.sent i) := by
    simp only [AllRoundsFail, ne_eq, code_eq_ok_iff, not_exists, not_and]
  rw [ReportsFailure, hfail]
  by_cases hsent : ∃ i ≤ more, a.Sent asyncSend p (a.after p w.sent i)
  · exact iff_of_true (fun hnone => absurd hsent hnone) (.inl hsent)
  · constructor
    · intro hreports
      by_cases hbuffer : buffer = none
      · exact .inr (.inl hbuffer)
      · refine .inr (.inr fun records hrecords => ?_)
        by_contra hint
        obtain ⟨answer, w', hrun, hanswer⟩ :=
          hok.mpr ⟨hbuffer, records, hrecords, not_lt.mp hint⟩
        exact hreports hsent answer w' hrun hanswer
    · rintro (hround | hbuffer | hlong) - answer w' hrun hanswer
      · exact hsent hround
      · exact (hok.mp ⟨answer, w', hrun, hanswer⟩).1 hbuffer
      · obtain ⟨-, records, hrecords, hint⟩ := hok.mp ⟨answer, w', hrun, hanswer⟩
        exact absurd (hlong records hrecords) (not_lt.mpr hint)

end Propagation

/-- The code is propagated exactly where the input is accepted and the send does not fail, if the
reads can be dumped; and a failure of every round is reported exactly where one round's read is
sent, or else where the statistics end with an error of their own. -/
theorem read_errors_propagated_iff (host : Host π) (asyncSend : SendAnswers π) {h : Int}
    {w : World π} {p : π} (hptr : w.hm.getRfidPtr h = some p) (a : ReadArguments) :
    (PropagatesCode host asyncSend h w p a ↔ a.Sent asyncSend p w.sent ∧
        (host.dumpUR (a.held (host.withReads asyncSend) p w.sent)).isSome = true) ∧
      ∀ more rule buffer, ReportsFailure host asyncSend h w p a more rule buffer ↔
        (∃ i ≤ more, a.Sent asyncSend p (a.after p w.sent i)) ∨ buffer = none ∨
          ∀ records, doStatisticHelper (host.readerId p) rule (withBehind host
            (a.collected (host.withReads asyncSend) p w.sent more)) = some records →
              intMax < records.length :=
  ⟨propagatesCode_iff host asyncSend a hptr, reportsFailure_iff host asyncSend a hptr⟩

/-- A reader that refuses every send. -/
def refusedSend : SendAnswers Char := fun _ _ _ => (-1, [])

/-- A refused read, and three rounds of it for the statistics by EPC. -/
theorem read_errors_propagated_refused :
    (PropagatesCode silentHost refusedSend 1 sampleWorld 'b' ⟨3, true, 2, 0, 6⟩ ↔
        ReadArguments.Sent ⟨3, true, 2, 0, 6⟩ refusedSend 'b' [] ∧
          (silentHost.dumpUR (ReadArguments.held ⟨3, true, 2, 0, 6⟩
            (silentHost.withReads refusedSend) 'b' [])).isSome = true) ∧
      (ReportsFailure silentHost refusedSend 1 sampleWorld 'b' ⟨3, true, 2, 0, 6⟩ 2 .byEpc
          (some 4) ↔
        (∃ i ≤ 2, ReadArguments.Sent ⟨3, true, 2, 0, 6⟩ refusedSend 'b'
          (ReadArguments.after ⟨3, true, 2, 0, 6⟩ 'b' [] i)) ∨ some 4 = none ∨
        ∀ records, doStatisticHelper (silentHost.readerId 'b') .byEpc (withBehind silentHost
          (ReadArguments.collected ⟨3, true, 2, 0, 6⟩ (silentHost.withReads refusedSend) 'b' []
            2)) = some records → intMax < records.length) := by
  obtain ⟨hcode, hreports⟩ := read_errors_propagated_iff silentHost refusedSend
    (show sampleWorld.hm.getRfidPtr 1 = some 'b' by rfl) ⟨3, true, 2, 0, 6⟩
  exact ⟨hcode, hreports 2 .byEpc (some 4)⟩

/-- A bank that is rejected, a send that fails, and three rounds of it are all reported as a
success. -/
theorem failed_reads_return_ok :
    ¬ PropagatesCode silentHost refusedSend 1 sampleWorld 'b' ⟨3, true, 9, 0, 6⟩ ∧
      ¬ PropagatesCode silentHost refusedSend 1 sampleWorld 'b' ⟨3, true, 2, 0, 6⟩ ∧
      ¬ ReportsFailure silentHost refusedSend 1 sampleWorld 'b' ⟨3, true, 2, 0, 6⟩ 2 .byEpc
        (some 4) := by
  have hptr : sampleWorld.hm.getRfidPtr 1 = some 'b' := rfl
  have hnot : ∀ (a : ReadArguments) sent, ¬ a.Sent refusedSend 'b' sent := by
    rintro a sent ⟨command, -, hcount⟩
    exact absurd hcount (by decide : ¬ (0 : Int) ≤ -1)
  refine ⟨fun hcode => ?_, fun hcode => ?_, fun hreports => ?_⟩
  · exact hnot _ _ ((propagatesCode_iff _ _ _ hptr).mp hcode).1
  · exact hnot _ _ ((propagatesCode_iff _ _ _ hptr).mp hcode).1
  · obtain ⟨i, -, hsent⟩ | hbuffer | hlong := (reportsFailure_iff _ _ _ hptr _ _ _).mp hreports
    · exact hnot _ _ hsent
    · exact absurd hbuffer (Option.some_ne_none 4)
    · exact absurd (hlong [] rfl) (by decide)

end RfidEngine
