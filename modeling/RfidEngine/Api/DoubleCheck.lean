import RfidEngine.Api.Model

/-!
# RFWriteEPC with a double check

The result of the write is kept over the read-back, which replaces it only by
`RFID_OK`, at a reply whose fields equal the TID and the new EPC. The fields of
a reply that does not parse are empty.
-/

namespace RfidEngine

open Api BacktrackRegex

section ReadBack

variable (unset : Unset) (tid epc : Str)

/-- The reply parses to the TID and the new EPC. -/
def Confirms (reply : Str) : Prop :=
  ∃ read, RfidParseUR.parse unset reply rfidMbTid = some read ∧ read.isMatch = true ∧
    read.tid = tid ∧ read.epc.epc = epc

/-- The reply does not parse. -/
def Unmatched (reply : Str) : Prop :=
  ∃ read, RfidParseUR.parse unset reply rfidMbTid = some read ∧ read.isMatch = false

/-- The reply ends the read-back: its fields are the TID and the new EPC, parsed or not. -/
def EndsReadBack (reply : Str) : Prop :=
  ∃ read, RfidParseUR.parse unset reply rfidMbTid = some read ∧ read.tid = tid ∧
    read.epc.epc = epc

variable {unset tid epc}

theorem endsReadBack_iff {reply : Str} : EndsReadBack unset tid epc reply ↔
    Confirms unset tid epc reply ∨ tid = [] ∧ epc = [] ∧ Unmatched unset reply := by
  constructor
  · intro h
    obtain ⟨read, hread, htid, hepc⟩ := h
    cases hmatch : read.isMatch with
    | true => exact Or.inl ⟨read, hread, hmatch, htid, hepc⟩
    | false =>
        obtain ⟨htid', hepc'⟩ := parse_unmatched hread hmatch
        exact Or.inr ⟨htid.symm.trans htid', hepc.symm.trans hepc', read, hread, hmatch⟩
  · intro h
    obtain ⟨read, hread, -, htid, hepc⟩ | ⟨rfl, rfl, read, hread, hmatch⟩ := h
    · exact ⟨read, hread, htid, hepc⟩
    · obtain ⟨htid, hepc⟩ := parse_unmatched hread hmatch
      exact ⟨read, hread, htid, hepc⟩

/-- The read-back returns for every list of replies: `RFID_OK` where one ends it, and what it was
given where none does. -/
theorem readBack_spec (unset : Unset) (tid epc : Str) (ret : Int) (replies : List Str) :
    ((∃ reply ∈ replies, EndsReadBack unset tid epc reply) ∧
      readBack unset tid epc ret replies = some rfidOk) ∨
    ((¬ ∃ reply ∈ replies, EndsReadBack unset tid epc reply) ∧
      readBack unset tid epc ret replies = some ret) := by
  induction replies with
  | nil => exact Or.inr ⟨by simp, rfl⟩
  | cons reply replies ih =>
      obtain ⟨read, hread⟩ := Option.isSome_iff_exists.mp (parse_isSome unset reply rfidMbTid)
      by_cases hends : read.tid = tid ∧ read.epc.epc = epc
      · refine Or.inl ⟨⟨reply, List.mem_cons_self, read, hread, hends⟩, ?_⟩
        rw [readBack, hread, Option.bind_eq_bind, Option.bind_some, if_pos hends]
      · have hnot : ¬ EndsReadBack unset tid epc reply := by
          intro h
          obtain ⟨read', hread', hends'⟩ := h
          obtain rfl := Option.some.inj (hread.symm.trans hread')
          exact hends hends'
        have hstep : readBack unset tid epc ret (reply :: replies) =
            readBack unset tid epc ret replies := by
          rw [readBack, hread, Option.bind_eq_bind, Option.bind_some, if_neg hends]
        rw [hstep]
        simpa [hnot] using ih

end ReadBack

variable {π : Type}

/-- What `RFWriteEPC` asks of the interface in front of the write. -/
def beforeWrite (w : World π) (p : π) (tid : Str) : List (π × InterfaceCall) :=
  w.sent ++ [(p, .selectTag rfidMbTid 0 96 tid)] ++ [(p, .password [])]

/-- The write of the EPC. -/
def epcWrite (epc : Str) : InterfaceCall := .writeBank rfidMbEpc 2 6 epc

/-- The read-back of the TIDs. -/
def tidRead : InterfaceCall := .readMultiBank 3 true rfidMbTid 0 6

/-- What the write returns. -/
def writeResult (host : Host π) (w : World π) (p : π) (tid epc : Str) : Int :=
  (host.answer (beforeWrite w p tid) p (epcWrite epc) : Int)

/-- The replies of the read-back. -/
def readBackReplies (host : Host π) (w : World π) (p : π) (tid epc : Str) : List Str :=
  (host.answer (beforeWrite w p tid ++ [(p, epcWrite epc)]) p tidRead : Int × List Str).2

/-- The call returns, and `RFID_OK` exactly when some reply of the read-back confirms the write. -/
def SoundDoubleCheck (host : Host π) (h : Int) (w : World π) (p : π) (tid epc : Str) : Prop :=
  ∃ ret w', rfWriteEPC host h tid epc true w = some (ret, w') ∧
    (ret = rfidOk ↔
      ∃ reply ∈ readBackReplies host w p tid epc, Confirms host.unset tid epc reply)

variable {host : Host π} {h : Int} {w : World π} {p : π}

/-- The calls of `RFWriteEPC` with a double check. -/
theorem rfWriteEPC_checked (host : Host π) (hptr : w.hm.getRfidPtr h = some p)
    {tid epc : Str} {ret : Int}
    (hread : readBack host.unset tid epc (writeResult host w p tid epc)
      (readBackReplies host w p tid epc) = some ret) :
    rfWriteEPC host h tid epc true w = some (ret,
      { w with sent := beforeWrite w p tid ++ [(p, epcWrite epc)] ++ [(p, tidRead)] }) := by
  have hptr' : ∀ sent, ({ w with sent := sent } : World π).hm.getRfidPtr h = some p := fun _ => hptr
  simp only [rfWriteEPC]
  rw [bind_of_eq (isValidHandle_of_pointer hptr), if_pos rfl,
    bind_of_eq (callInterface_of_pointer hptr _), bind_of_eq (callInterface_of_pointer (hptr' _) _),
    bind_of_eq (callInterface_of_pointer (hptr' _) _), if_pos trivial,
    bind_of_eq (callInterface_of_pointer (hptr' _) _)]
  exact lift_of_eq hread _

theorem rfWriteEPC_of_pointer (host : Host π) (hptr : w.hm.getRfidPtr h = some p)
    {tid epc : Str} {ret : Int}
    (hread : readBack host.unset tid epc (writeResult host w p tid epc)
      (readBackReplies host w p tid epc) = some ret) :
    ∃ w', rfWriteEPC host h tid epc true w = some (ret, w') :=
  ⟨_, rfWriteEPC_checked host hptr hread⟩

/-- The double check is sound exactly when some reply confirms the write, or the write did not
return `RFID_OK` and no reply that does not parse stands for empty texts. -/
theorem write_epc_double_check_iff (host : Host π) (h : Int) (w : World π) (p : π)
    (hptr : w.hm.getRfidPtr h = some p) (tid epc : Str) :
    SoundDoubleCheck host h w p tid epc ↔
      (∃ reply ∈ readBackReplies host w p tid epc, Confirms host.unset tid epc reply) ∨
      (writeResult host w p tid epc ≠ rfidOk ∧
        ¬ (tid = [] ∧ epc = [] ∧
          ∃ reply ∈ readBackReplies host w p tid epc, Unmatched host.unset reply)) := by
  have hends : (∃ reply ∈ readBackReplies host w p tid epc, EndsReadBack host.unset tid epc reply) ↔
      (∃ reply ∈ readBackReplies host w p tid epc, Confirms host.unset tid epc reply) ∨
      (tid = [] ∧ epc = [] ∧
        ∃ reply ∈ readBackReplies host w p tid epc, Unmatched host.unset reply) := by
    simp only [endsReadBack_iff]
    constructor
    · intro h
      obtain ⟨reply, hmem, hconfirms | ⟨htid, hepc, hunmatched⟩⟩ := h
      · exact Or.inl ⟨reply, hmem, hconfirms⟩
      · exact Or.inr ⟨htid, hepc, reply, hmem, hunmatched⟩
    · intro h
      obtain ⟨reply, hmem, hconfirms⟩ | ⟨htid, hepc, reply, hmem, hunmatched⟩ := h
      · exact ⟨reply, hmem, Or.inl hconfirms⟩
      · exact ⟨reply, hmem, Or.inr ⟨htid, hepc, hunmatched⟩⟩
  have hreturned : ∀ ret, readBack host.unset tid epc (writeResult host w p tid epc)
      (readBackReplies host w p tid epc) = some ret →
      (SoundDoubleCheck host h w p tid epc ↔ (ret = rfidOk ↔
        ∃ reply ∈ readBackReplies host w p tid epc, Confirms host.unset tid epc reply)) := by
    intro ret hread
    obtain ⟨w', hrun⟩ := rfWriteEPC_of_pointer host hptr hread
    constructor
    · intro hsound
      obtain ⟨ret', w'', hrun', hiff⟩ := hsound
      obtain ⟨rfl, -⟩ := Prod.mk.inj (Option.some.inj (hrun.symm.trans hrun'))
      exact hiff
    · exact fun hiff => ⟨ret, w', hrun, hiff⟩
  obtain ⟨hfound, hread⟩ | ⟨hnone, hread⟩ := readBack_spec host.unset tid epc
    (writeResult host w p tid epc) (readBackReplies host w p tid epc)
  · rw [hreturned _ hread]
    constructor
    · exact fun hiff => Or.inl (hiff.mp rfl)
    · intro hor
      refine iff_of_true rfl ?_
      obtain hconfirmed | ⟨-, hmatched⟩ := hor
      · exact hconfirmed
      · exact (hends.mp hfound).resolve_right hmatched
  · rw [hreturned _ hread]
    constructor
    · intro hiff
      refine Or.inr ⟨fun hok => hnone (hends.mpr (Or.inl (hiff.mp hok))), fun hunmatched => ?_⟩
      exact hnone (hends.mpr (Or.inr hunmatched))
    · intro hor
      obtain hconfirmed | ⟨hfailed, -⟩ := hor
      · exact absurd (hends.mpr (Or.inl hconfirmed)) hnone
      · exact iff_of_false hfailed fun hconfirmed => hnone (hends.mpr (Or.inl hconfirmed))

def tidOfSample : Str := "E2003412".toList

theorem confirms_sampleReply_iff (epc : HexText 16) :
    Confirms nothingSet tidOfSample sampleEpc (sampleReply epc sampleTid).line ↔
      (epc : Str) = sampleEpc := by
  have hread := (sampleReply epc sampleTid).parse_line nothingSet .tid
  constructor
  · intro h
    obtain ⟨read, hread', -, -, hepc⟩ := h
    obtain rfl := Option.some.inj (hread.symm.trans hread')
    exact hepc
  · intro h
    exact ⟨_, hread, rfl, rfl, h⟩

/-- A write whose own answer got lost is confirmed by the tag's reply. -/
theorem write_epc_double_check_lostAnswer :
    SoundDoubleCheck (replyHost rfidErrSend [sampleReply sampleEpc sampleTid]) 1 sampleWorld 'b'
      tidOfSample sampleEpc :=
  (write_epc_double_check_iff (replyHost rfidErrSend [sampleReply sampleEpc sampleTid]) 1
    sampleWorld 'b' rfl tidOfSample sampleEpc).mpr
      (Or.inl ⟨_, List.mem_singleton_self _, (confirms_sampleReply_iff sampleEpc).mpr rfl⟩)

/-- The tag answers with another EPC than the one written: the double check returns `RFID_OK`. -/
theorem unconfirmed_write_returns_ok :
    (∃ w', rfWriteEPC (replyHost rfidOk [sampleReply otherEpc sampleTid]) 1 tidOfSample sampleEpc
      true sampleWorld = some (rfidOk, w')) ∧
    ¬ SoundDoubleCheck (replyHost rfidOk [sampleReply otherEpc sampleTid]) 1 sampleWorld 'b'
      tidOfSample sampleEpc := by
  have hother : ¬ Confirms nothingSet tidOfSample sampleEpc (sampleReply otherEpc sampleTid).line :=
    fun h => absurd ((confirms_sampleReply_iff otherEpc).mp h) (by decide)
  have hread : readBack nothingSet tidOfSample sampleEpc rfidOk
      [(sampleReply otherEpc sampleTid).line] = some rfidOk := by
    obtain ⟨-, hread⟩ | ⟨-, hread⟩ := readBack_spec nothingSet tidOfSample
      sampleEpc rfidOk [(sampleReply otherEpc sampleTid).line]
    · exact hread
    · exact hread
  obtain ⟨w', hrun⟩ := rfWriteEPC_of_pointer (replyHost rfidOk
    [sampleReply otherEpc sampleTid]) (w := sampleWorld) (h := 1) (p := 'b') rfl hread
  refine ⟨⟨w', hrun⟩, fun hsound => ?_⟩
  obtain ⟨ret, w'', hrun', hiff⟩ := hsound
  obtain ⟨rfl, -⟩ := Prod.mk.inj (Option.some.inj (hrun.symm.trans hrun'))
  obtain ⟨reply, hmem, hconfirms⟩ := hiff.mp rfl
  obtain rfl : reply = (sampleReply otherEpc sampleTid).line := List.mem_singleton.mp hmem
  exact hother hconfirms

end RfidEngine
