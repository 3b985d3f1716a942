import RfidEngine.Api.DoubleCheck
import RfidEngine.RfidInterface.TagWrite

/-!
# RFWriteEPC and the selection of its tag

`RFWriteEPC` selects the tag and sets the password before it writes, and drops
the result codes of both: the write is sent in any case.
-/

namespace RfidEngine

open Api RfidInterface

variable {π : Type}

/-- What `Send` gives back for a call that an interface sends to its reader: the count of bytes
sent and the response, which may depend on all that was asked before. -/
abbrev Reader (π : Type) := List (π × InterfaceCall) → π → InterfaceCall → Int × Str

/-- A host whose interfaces select and write tags by the responses of a reader. -/
def readerHost (host : Host π) (reader : Reader π) : Host π where
  answer := fun sent p c =>
    let given := reader sent p c
    match c with
    | .selectTag bank bitStart bitLength pattern =>
        (selectTag bank bitStart bitLength pattern).after given.1 given.2
    | .password word => (password word).after given.1 given.2
    | .writeBank bank startAddr length data =>
        (writeBank bank startAddr length data).after given.1 given.2
    | c => host.answer sent p c
  readerId := host.readerId
  dumpU := host.dumpU
  dumpUR := host.dumpUR
  unset := host.unset
  behind := host.behind

/-- The call of an interface sends the command of a write. -/
def SendsWrite (c : InterfaceCall) : Prop :=
  ∃ bank startAddr length data, c = .writeBank bank startAddr length data ∧
    (writeBank bank startAddr length data).sent ≠ none

def tidSelection (tid : Str) : InterfaceCall := .selectTag rfidMbTid 0 96 tid

def noPassword : InterfaceCall := .password []

section Guard

variable (host : Host π) (w : World π) (p : π) (tid : Str)

/-- What the selection and the password return. -/
def selectionResult : Int := (host.answer w.sent p (tidSelection tid) : Int)

def passwordResult : Int := (host.answer (w.sent ++ [(p, tidSelection tid)]) p noPassword : Int)

/-- The call returns, with a write among the calls it has made only if the selection and the
password returned `RFID_OK`, and with an error code if one of them did not. -/
def WriteGuarded (h : Int) (epc : Str) (doubleCheck : Bool) : Prop :=
  ∃ ret w' calls, rfWriteEPC host h tid epc doubleCheck w = some (ret, w') ∧
    w'.sent = w.sent ++ calls ∧
    ((∃ call ∈ calls, SendsWrite call.2) →
      selectionResult host w p tid = rfidOk ∧ passwordResult host w p tid = rfidOk) ∧
    (¬ (selectionResult host w p tid = rfidOk ∧ passwordResult host w p tid = rfidOk) →
      ret ≠ rfidOk)

end Guard

variable {host : Host π} {h : Int} {w : World π} {p : π}

/-- The calls of `RFWriteEPC` without a double check. -/
theorem rfWriteEPC_unchecked (host : Host π) (hptr : w.hm.getRfidPtr h = some p)
    (tid epc : Str) :
    rfWriteEPC host h tid epc false w = some (writeResult host w p tid epc,
      { w with sent := beforeWrite w p tid ++ [(p, epcWrite epc)] }) := by
  have hptr' : ∀ sent, ({ w with sent := sent } : World π).hm.getRfidPtr h = some p := fun _ => hptr
  simp only [rfWriteEPC]
  rw [bind_of_eq (isValidHandle_of_pointer hptr), if_pos rfl,
    bind_of_eq (callInterface_of_pointer hptr _), bind_of_eq (callInterface_of_pointer (hptr' _) _),
    bind_of_eq (callInterface_of_pointer (hptr' _) _)]
  rfl

/-- Whatever the selection and the password return, the write is among the calls. -/
theorem rfWriteEPC_writes (host : Host π) (hptr : w.hm.getRfidPtr h = some p) (tid epc : Str)
    (doubleCheck : Bool) :
    ∃ ret w' calls, rfWriteEPC host h tid epc doubleCheck w = some (ret, w') ∧
      w'.sent = w.sent ++ calls ∧ (p, epcWrite epc) ∈ calls := by
  cases doubleCheck with
  | false =>
      refine ⟨_, _, [(p, tidSelection tid), (p, noPassword), (p, epcWrite epc)],
        rfWriteEPC_unchecked host hptr tid epc, ?_, by simp⟩
      exact (List.append_assoc _ _ _).trans (List.append_assoc _ _ _)
  | true =>
      obtain ⟨ret, hread⟩ : ∃ ret, readBack host.unset tid epc (writeResult host w p tid epc)
          (readBackReplies host w p tid epc) = some ret := by
        obtain ⟨-, hread⟩ | ⟨-, hread⟩ := readBack_spec host.unset tid epc
          (writeResult host w p tid epc) (readBackReplies host w p tid epc)
        · exact ⟨_, hread⟩
        · exact ⟨_, hread⟩
      refine ⟨_, _, [(p, tidSelection tid), (p, noPassword), (p, epcWrite epc), (p, tidRead)],
        rfWriteEPC_checked host hptr hread, ?_, by simp⟩
      simp [beforeWrite, tidSelection, noPassword]

/-- The write is guarded exactly where nothing had to be guarded against. -/
theorem writeGuarded_iff (hptr : w.hm.getRfidPtr h = some p) (tid epc : Str)
    (doubleCheck : Bool) :
    WriteGuarded host w p tid h epc doubleCheck ↔
      selectionResult host w p tid = rfidOk ∧ passwordResult host w p tid = rfidOk := by
  obtain ⟨ret, w', calls, hrun, hsent, hmem⟩ := rfWriteEPC_writes host hptr tid epc doubleCheck
  constructor
  · rintro ⟨ret', w'', calls', hrun', hsent', hguarded, -⟩
    obtain ⟨-, rfl⟩ := Prod.mk.inj (Option.some.inj (hrun.symm.trans hrun'))
    obtain rfl := List.append_cancel_left (hsent.symm.trans hsent')
    exact hguarded ⟨_, hmem, _, _, _, _, rfl, writeBank_sent epc⟩
  · intro hok
    exact ⟨ret, w', calls, hrun, hsent, fun _ => hok, fun hnot => absurd hok hnot⟩

/-- What the reader gives back for the selection and for the password. -/
def selectionGiven (reader : Reader π) (w : World π) (p : π) (tid : Str) : Int × Str :=
  reader w.sent p (tidSelection tid)

def passwordGiven (reader : Reader π) (w : World π) (p : π) (tid : Str) : Int × Str :=
  reader (w.sent ++ [(p, tidSelection tid)]) p noPassword

/-- The write is guarded exactly where the reader accepts both the selection and the password. -/
theorem write_guarded_iff (host : Host π) (reader : Reader π) (h : Int) (w : World π) (p : π)
    (hptr : w.hm.getRfidPtr h = some p) (tid epc : Str) (doubleCheck : Bool) :
    WriteGuarded (readerHost host reader) w p tid h epc doubleCheck ↔
      Accepted rgxT (selectionGiven reader w p tid).1 (selectionGiven reader w p tid).2 ∧
      Accepted rgxAnswer (passwordGiven reader w p tid).1 (passwordGiven reader w p tid).2 := by
  rw [writeGuarded_iff hptr, ← selectTag_ok_iff tid, ← password_ok_iff []]
  exact Iff.rfl

/-- A reader that answers the password and the write, and the selection if it hears it. -/
def sampleReader (selected : Str) : Reader Char := fun _ _ c =>
  match c with
  | .selectTag _ _ _ _ => (18, selected)
  | .password _ => (3, "@2020/11/10 17:29:27.544-Antenna1-P".toList)
  | .writeBank _ _ _ _ => (24, "@2020/11/10 17:29:27.544-Antenna1-W<OK>".toList)
  | _ => (0, [])

def selectedReply : Str := "@2020/11/10 17:29:27.544-Antenna1-T".toList

theorem write_guarded_selected :
    WriteGuarded (readerHost silentHost (sampleReader selectedReply)) sampleWorld 'b' tidOfSample 1
      sampleEpc false :=
  (write_guarded_iff silentHost (sampleReader selectedReply) 1 sampleWorld 'b' rfl tidOfSample
    sampleEpc false).mpr ⟨⟨by decide, rfl⟩, ⟨by decide, rfl⟩⟩

/-- No tag answers the selection: the write is sent and its success returned. -/
theorem unselected_tag_written :
    (∃ w', rfWriteEPC (readerHost silentHost (sampleReader [])) 1 tidOfSample sampleEpc false
      sampleWorld = some (rfidOk, w') ∧ ('b', epcWrite sampleEpc) ∈ w'.sent) ∧
    selectionResult (readerHost silentHost (sampleReader [])) sampleWorld 'b' tidOfSample =
      rfidErrParse ∧
    ¬ WriteGuarded (readerHost silentHost (sampleReader [])) sampleWorld 'b' tidOfSample 1
      sampleEpc false := by
  have hptr : sampleWorld.hm.getRfidPtr 1 = some 'b' := rfl
  have hrun := rfWriteEPC_unchecked (readerHost silentHost (sampleReader [])) hptr tidOfSample
    sampleEpc
  have hwritten : writeResult (readerHost silentHost (sampleReader [])) sampleWorld 'b'
      tidOfSample sampleEpc = rfidOk := rfl
  have hselected : selectionResult (readerHost silentHost (sampleReader [])) sampleWorld 'b'
      tidOfSample = rfidErrParse := rfl
  rw [hwritten] at hrun
  refine ⟨⟨_, hrun, by simp [beforeWrite]⟩, hselected, ?_⟩
  rw [writeGuarded_iff hptr, hselected]
  exact fun hok => absurd hok.1 (by decide)

end RfidEngine
