import RfidEngine.RfidInterface.Response

/-!
# RfidInterface: selecting and writing a tag

`SelectTag`, `Password` and `WriteBank` send one text each and look for the
timestamp, the antenna and the result in the response. They take no response,
or one of another form, for an error of the reply, and a send of no bytes for
an error of the send.
-/

namespace RfidEngine.RfidInterface

open BacktrackRegex

def rfPtReqSetTagMemoryData : Nat := 0x05
def rfPtReqSetAccessPassword : Nat := 0x08
def rfPtReqSelect : Nat := 0x0B

/-- `…-T(.*)$` -/
def rgxT : Regex Char :=
  .seqs (readHead ++ [.lit ['T'], .group 4 (.many isDot), .lineEnd])

/-- `…-(.*)$` -/
def rgxAnswer : Regex Char := .seqs (readHead ++ [.group 4 (.many isDot), .lineEnd])

/-- The result code for what `Send` gives back, with that of a response of the form. -/
def replyCode (r : Regex Char) (matched : Captures Char → Int) (nSend : Int) (response : Str) :
    Int :=
  if nSend > 0 then
    match fullMatch r response with
    | some indexMatch => matched indexMatch
    | none => rfidErrParse
  else rfidErrSend

/-- `std::hex` of a number that is not negative. -/
def hexadecimal (n : Int) : Str := Nat.toDigits 16 n.toNat

def selectTag (bank bitStart bitLength : Int) (pattern : Str) : Exchange Int :=
  if 0 ≤ bank ∧ bank ≤ 3 ∧ 0 ≤ bitStart ∧ bitStart ≤ 0x3FFF ∧ 1 ≤ bitLength ∧
      bitLength ≤ 0x60 then
    .send rfPtReqSelect
      ("\nT".toList ++ decimal bank ++ ',' :: hexadecimal bitStart ++ ',' ::
        hexadecimal bitLength ++ ',' :: pattern ++ ['\r'])
      (replyCode rgxT fun _ => rfidOk)
  else .done rfidErrInput

def password (password : Str) : Exchange Int :=
  .send rfPtReqSetAccessPassword (snprintf ("\nP".toList ++ cStr password ++ ['\r']))
    (replyCode rgxAnswer fun _ => rfidOk)

/-- The result of a write in the response. -/
def writeBankResult (result : Str) : Int :=
  if "OK".toList <:+: result then rfidOk
  else if ['Z'] <:+: result then rfidErrWordsWriteErrZ
  else rfidErrOther

def writeBank (bank startAddr length : Int) (data : Str) : Exchange Int :=
  if validInput bank startAddr length then
    .send rfPtReqSetTagMemoryData
      (snprintf ("\nW".toList ++ decimal bank ++ ',' :: decimal startAddr ++ ',' ::
        decimal length ++ ',' :: cStr data ++ ['\r']))
      (replyCode rgxAnswer fun indexMatch => writeBankResult (Captures.str indexMatch 4))
  else .done rfidErrInput

/-- Something was sent and the response has the form that is looked for. -/
def Accepted (r : Regex Char) (nSend : Int) (response : Str) : Prop :=
  0 < nSend ∧ regexMatch r response = true

/-- The code is `RFID_OK` exactly for an accepted response of a form that is always a success. -/
theorem replyCode_ok_iff (r : Regex Char) (nSend : Int) (response : Str) :
    replyCode r (fun _ => rfidOk) nSend response = rfidOk ↔ Accepted r nSend response := by
  unfold replyCode Accepted regexMatch
  by_cases hsend : nSend > 0
  · rw [if_pos hsend, and_iff_right hsend]
    cases fullMatch r response with
    | none => exact iff_of_false (by decide) Bool.false_ne_true
    | some indexMatch => exact iff_of_true rfl rfl
  · rw [if_neg hsend]
    exact iff_of_false (by decide) fun haccepted => hsend haccepted.1

/-- The selection of `RFWriteEPC` is always sent, and succeeds exactly if it is accepted. -/
theorem selectTag_ok_iff (tid : Str) (nSend : Int) (response : Str) :
    (selectTag 2 0 96 tid).after nSend response = rfidOk ↔ Accepted rgxT nSend response :=
  replyCode_ok_iff rgxT nSend response

theorem password_ok_iff (word : Str) (nSend : Int) (response : Str) :
    (password word).after nSend response = rfidOk ↔ Accepted rgxAnswer nSend response :=
  replyCode_ok_iff rgxAnswer nSend response

/-- A write of six words to the EPC is always sent. -/
theorem writeBank_sent (data : Str) : (writeBank 1 2 6 data).sent ≠ none :=
  Option.some_ne_none _

end RfidEngine.RfidInterface
