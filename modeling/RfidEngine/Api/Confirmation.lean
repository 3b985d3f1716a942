import RfidEngine.Api.DoubleCheck
import RfidEngine.Api.FrameCount

/-!
# What confirms a write

The read-back of `RFWriteEPC` looks at lines that the bank read has recorded
off the reader's stream. Each of them parses, so that only a frame with the TID
and the new EPC turns a failed write into `RFID_OK`.
-/

namespace RfidEngine

open BacktrackRegex Api RfidInterface AsyncSend StepSystem TaggedQueue ReceivePath

/-- A line that a bank read records parses. -/
theorem isMatch_of_regexMatch {unset : Unset} {line : Str} {bank : Int} {read : RfidParseUR}
    (hread : RfidParseUR.parse unset line bank = some read) (hline : regexMatch rgxU line = true) :
    read.isMatch = true := by
  obtain ⟨head, data, rfl, hdata⟩ := (regexMatch_rgxU_iff line).mp hline
  unfold RfidParseUR.parse at hread
  rw [fullMatch_rgxUR_text head hdata] at hread
  obtain ⟨time, -, hx⟩ := Option.bind_eq_some_iff.mp hread
  obtain rfl := Option.some.inj hx
  simp only
  split
  · rw [parseData_isMatch]
  · rfl

/-- Only lines with the TID and the new EPC end the read-back of recorded lines. -/
theorem endsReadBack_recorded_iff {unset : Unset} {tid epc : Str} (lines : List Str) :
    (∃ reply ∈ lines.filter (regexMatch rgxU), EndsReadBack unset tid epc reply) ↔
      ∃ line ∈ lines, Confirms unset tid epc line := by
  constructor
  · rintro ⟨reply, hmem, read, hread, htid, hepc⟩
    obtain ⟨hline, hmatch⟩ := List.mem_filter.mp hmem
    exact ⟨reply, hline, read, hread, isMatch_of_regexMatch hread hmatch, htid, hepc⟩
  · rintro ⟨line, hline, read, hread, hmatch, htid, hepc⟩
    have hrecorded := List.mem_filter.mpr ⟨hline, regexMatch_of_isMatch hread hmatch⟩
    exact ⟨line, hrecorded, read, hread, htid, hepc⟩

/-- With the double check `RFWriteEPC` returns once its read-back has returned, and `RFID_OK`
exactly if the write did or one of the frames that the read-back received, which stand together in
the stream, reads the new EPC with the TID; otherwise it returns what the write did. -/
theorem write_confirmed_by_frame {ι κ π : Type} [DecidableEq ι] (cfg : Config ι (List Str))
    (callback : Option κ) (units : List StreamUnit) (events : List (ReceivePath.Event ι))
    (t : ReceivePath ι (List Str) κ)
    (hrun : exec (ReceivePath.step cfg) (ReceivePath.init cfg callback) events = some t)
    (hstream : (chunks events).flatten <+: stream units) (c : ι)
    (hcommand : RfidInterface.readMultiBank 3 true rfidMbTid 0 6 = some (cfg.command c))
    (host : Host π) (asyncSend : SendAnswers π) (h : Int) (w : World π) (p : π)
    (hptr : w.hm.getRfidPtr h = some p) (tid epc : Str)
    (hanswer : (t.sys.call c).ReturnedWith
      (asyncSend (beforeWrite w p tid ++ [(p, epcWrite epc)]) p (cfg.command c))) :
    (framesOf [c] t) <:+: (ofTag StreamUnit.kind .normal units).map StreamUnit.bytes ∧
      ∃ ret w', rfWriteEPC (host.withReads asyncSend) h tid epc true w = some (ret, w') ∧
        (ret = rfidOk ↔ writeResult host w p tid epc = rfidOk ∨
          ∃ frame ∈ framesOf [c] t, Confirms host.unset tid epc (trim frame)) ∧
        (ret ≠ rfidOk → ret = writeResult host w p tid epc) := by
  have hframes : framesOf [c] t = texts .normal (t.sys.call c).delivered :=
    List.flatMap_singleton ..
  have hcaptured := captured_of_exec hrun hstream
    (r := .readMultiBank 3 true rfidMbTid 0 6) hcommand
  have hreplies : readBackReplies (host.withReads asyncSend) w p tid epc =
      ((framesOf [c] t).map trim).filter (regexMatch rgxU) := by
    have hread : readBackReplies (host.withReads asyncSend) w p tid epc =
        (asyncSend (beforeWrite w p tid ++ [(p, epcWrite epc)]) p (cfg.command c)).2 := by
      simp only [readBackReplies, tidRead, Host.withReads, hcommand]
    rw [hread, hanswer.captured, hcaptured, hframes]
    rfl
  have hconfirms : (∃ reply ∈ readBackReplies (host.withReads asyncSend) w p tid epc,
      EndsReadBack host.unset tid epc reply) ↔
        ∃ frame ∈ framesOf [c] t, Confirms host.unset tid epc (trim frame) := by
    rw [hreplies, endsReadBack_recorded_iff]
    simp
  refine ⟨hframes ▸ texts_infix_stream hrun hstream (by decide) c, ?_⟩
  obtain ⟨hfound, hback⟩ | ⟨hnone, hback⟩ := readBack_spec host.unset tid epc
    (writeResult (host.withReads asyncSend) w p tid epc)
    (readBackReplies (host.withReads asyncSend) w p tid epc)
  · obtain ⟨w', hwrite⟩ := rfWriteEPC_of_pointer (host.withReads asyncSend) hptr hback
    refine ⟨rfidOk, w', hwrite, ?_, fun hne => absurd rfl hne⟩
    exact iff_of_true rfl (Or.inr (hconfirms.mp hfound))
  · obtain ⟨w', hwrite⟩ := rfWriteEPC_of_pointer (host.withReads asyncSend) hptr hback
    refine ⟨writeResult host w p tid epc, w', hwrite, ?_, fun _ => rfl⟩
    constructor
    · exact Or.inl
    · rintro (hok | hfound)
      · exact hok
      · exact absurd (hconfirms.mpr hfound) hnone

/-- The write failed to be sent, but the tag reads as it was to be written. -/
theorem write_confirmed_by_frame_lostWrite :
    ∃ (asyncSend : SendAnswers Char) (w' : World Char),
      writeResult silentHost sampleWorld 'b' tidOfSample "E2801160".toList = rfidErrSend ∧
      rfWriteEPC (silentHost.withReads asyncSend) 1 tidOfSample "E2801160".toList true
        sampleWorld = some (rfidOk, w') := by
  have hrun : (exec (ReceivePath.step twoRounds)
      (ReceivePath.init twoRounds (none : Option Unit)) (tidRound false)).map
        (fun t => (framesOf [false] t, (t.sys.call false).pc)) =
          some ([tidBody.frame, endBody.frame], .returned 12) := by decide +kernel
  obtain ⟨t, ht, hend⟩ := Option.map_eq_some_iff.mp hrun
  obtain ⟨hframes, hreturned⟩ := Prod.mk.inj hend
  let asyncSend : SendAnswers Char := fun _ _ _ => (12, (t.sys.call false).captured)
  obtain ⟨-, ret, w', hwrite, hok, -⟩ := write_confirmed_by_frame twoRounds none
    [.frame tidBody, .frame endBody] (tidRound false) t ht (by decide +kernel) false rfl
    silentHost asyncSend 1 sampleWorld 'b' rfl tidOfSample "E2801160".toList ⟨hreturned, rfl⟩
  have hread : (RfidParseUR.parse silentHost.unset (trim tidBody.frame) rfidMbTid).any (fun read =>
      read.isMatch && read.tid == tidOfSample && read.epc.epc == "E2801160".toList) = true := by
    decide +kernel
  obtain ⟨read, hparse, hfields⟩ := (Option.any_eq_true _ _).mp hread
  have hconfirms :
      Confirms silentHost.unset tidOfSample "E2801160".toList (trim tidBody.frame) := by
    simp only [Bool.and_eq_true, beq_iff_eq] at hfields
    exact ⟨read, hparse, hfields.1.1, hfields.1.2, hfields.2⟩
  have hframe : tidBody.frame ∈ framesOf [false] t := by
    rw [hframes]
    exact List.mem_cons_self
  obtain rfl := hok.mpr (Or.inr ⟨tidBody.frame, hframe, hconfirms⟩)
  exact ⟨asyncSend, w', rfl, hwrite⟩

end RfidEngine
