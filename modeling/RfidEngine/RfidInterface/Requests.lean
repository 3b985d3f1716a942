import RfidEngine.AsyncSend.Model
import RfidEngine.Parser

/-!
# RfidInterface: the requests made of AsyncSend

The finish conditions of a request depend on its packet type alone. `Send`
takes the first packet as its response; the readings `InventoryEPC`,
`ReadMultiBank` and `ReadBank` record every packet of their form until a
finish condition ends the wait, and turn the count of bytes sent into a result
code.
-/

namespace RfidEngine.RfidInterface

open BacktrackRegex AsyncSend

def rfPtReqGetFirmwareVersion : Nat := 0x01
def rfPtReqGetMultiTagEpc : Nat := 0x09
def rfPtReqGetTagBank : Nat := 0x1A
def rfPtReqGetMultiTagEpcLoop : Nat := 0x25
def rfPtReqGetTagBankLoop : Nat := 0x2B
def rfPtReqGetMultiBankLoop : Nat := 0x2C
def rfPtReqGetMultiBankOnce : Nat := 0x2D

def regexMatch (r : Regex Char) (target : Str) : Bool := (fullMatch r target).isSome

/-- `^@END$` -/
def isEOP (pkt : PacketContent) : Bool :=
  regexMatch (.seqs [.lineStart, .lit "@END".toList, .lineEnd]) pkt.toString

/-- A read without a tag: `…-U$`. -/
def isEOU (pkt : PacketContent) : Bool :=
  regexMatch (.seqs (readHead ++ [.lit ['U'], .lineEnd])) pkt.toString

/-- `…-R(.*)?$` -/
def isEOR (pkt : PacketContent) : Bool :=
  regexMatch (.seqs (readHead ++ [.lit ['R'], .opt (.group 4 (.many isDot)), .lineEnd]))
    pkt.toString

/-- `@Please Restart System$` -/
def isRestartSystem (pkt : PacketContent) : Bool :=
  regexMatch (.seqs [.lit "@Please Restart System".toList, .lineEnd]) pkt.toString

def compileFinishConditions (uiPacketType : Nat) : List (PacketContent → Bool) :=
  let finishConditions :=
    if uiPacketType = rfPtReqGetMultiTagEpcLoop ∨ uiPacketType = rfPtReqGetMultiBankLoop ∨
        uiPacketType = rfPtReqGetTagBankLoop then [isEOP]
    else if uiPacketType = rfPtReqGetTagBank then [isEOR]
    else if uiPacketType = rfPtReqGetMultiTagEpc ∨ uiPacketType = rfPtReqGetMultiBankOnce then
      [isEOU]
    else []
  finishConditions ++ [isRestartSystem]

/-- `Send`: its callback stores the packet in the caller's `response` and ends the wait. -/
def sendCommand (uiCommandType : Nat) (lpBuf response : Str) : Command Str where
  uiCommandId := uiCommandType
  cmd := lpBuf
  finishConditions := compileFinishConditions uiCommandType
  callback := some fun _ pkt => (pkt.toString, true)
  captured := response

theorem sendCommand_judge (uiCommandType : Nat) (lpBuf response x : Str) (pkt : PacketContent) :
    (sendCommand uiCommandType lpBuf response).judge x pkt = (pkt.toString, true) := rfl

/-- A callback that appends the packets of a form to `result_vec` and never ends the wait. -/
def record (r : Regex Char) (resultVec : List Str) (pkt : PacketContent) : List Str × Bool :=
  (if regexMatch r pkt.toString then resultVec ++ [pkt.toString] else resultVec, false)

/-- `…-U(.*)$` -/
def rgxU : Regex Char :=
  .seqs (readHead ++ [.lit ['U'], .group 4 (.many isDot), .lineEnd])

/-- `…-R(.*)$` -/
def rgxR : Regex Char :=
  .seqs (readHead ++ [.lit ['R'], .group 4 (.many isDot), .lineEnd])

/-- The conversion `%d`. -/
def decimal (n : Int) : Str := (toString n).toList

theorem decimal_natCast (n : Nat) : decimal n = Nat.toDigits 10 n := by
  rw [decimal]
  exact Nat.toList_repr

def reading (uiCommandId : Nat) (szSend : Str) (r : Regex Char) : Command (List Str) where
  uiCommandId := uiCommandId
  cmd := szSend
  finishConditions := compileFinishConditions uiCommandId
  callback := some (record r)
  captured := []

def inventoryEPC (exponent : Int) (loop : Bool) : Command (List Str) :=
  let slot := if 0 < exponent ∧ exponent ≤ 9 then decimal exponent else []
  if loop then reading rfPtReqGetMultiTagEpcLoop ("\n@U".toList ++ slot ++ ['\r']) rgxU
  else reading rfPtReqGetMultiTagEpc ("\nU".toList ++ slot ++ ['\r']) rgxU

def validInput (bankType nStart nLength : Int) : Bool :=
  0 ≤ bankType && bankType ≤ 3 && 0 ≤ nStart && nStart ≤ 0x3FFF && 1 ≤ nLength && nLength ≤ 0x1E

/-- `R<bank>,<address>,<length>` -/
def bankText (bankType nStart nLength : Int) : Str :=
  'R' :: decimal bankType ++ ',' :: decimal nStart ++ ',' :: decimal nLength

/-- Nothing is sent for an input out of range. -/
def readMultiBank (slot : Int) (loop : Bool) (bankType nStart nLength : Int) :
    Option (Command (List Str)) :=
  if validInput bankType nStart nLength then
    let slotText := if 0 < slot ∧ slot ≤ 9 then decimal slot else []
    let tail := slotText ++ ',' :: bankText bankType nStart nLength ++ ['\r']
    if loop then some (reading rfPtReqGetMultiBankLoop ("\n@U".toList ++ tail) rgxU)
    else some (reading rfPtReqGetMultiBankOnce ("\nU".toList ++ tail) rgxU)
  else none

def readBank (loop : Bool) (bankType nStart nLength : Int) : Option (Command (List Str)) :=
  if validInput bankType nStart nLength then
    let tail := bankText bankType nStart nLength ++ ['\r']
    if loop then some (reading rfPtReqGetTagBankLoop ("\n@".toList ++ tail) rgxR)
    else some (reading rfPtReqGetTagBank ('\n' :: tail) rgxR)
  else none

/-- The calls that read tags. -/
inductive Reading where
  | inventoryEPC (exponent : Int) (loop : Bool)
  | readMultiBank (slot : Int) (loop : Bool) (bankType nStart nLength : Int)
  | readBank (loop : Bool) (bankType nStart nLength : Int)

/-- The command a reading gives to `AsyncSend`, if it gives one. -/
def Reading.command : Reading → Option (Command (List Str))
  | .inventoryEPC exponent loop => some (RfidInterface.inventoryEPC exponent loop)
  | .readMultiBank slot loop bankType nStart nLength =>
      RfidInterface.readMultiBank slot loop bankType nStart nLength
  | .readBank loop bankType nStart nLength =>
      RfidInterface.readBank loop bankType nStart nLength

/-- The result code for what `AsyncSend` returned. -/
def Reading.result (asyncSend : Int) : Reading → Int
  | .inventoryEPC _ _ =>
      let nSend := asyncSend
      if nSend > 0 then rfidOk else rfidErrSend
  | .readMultiBank _ _ _ _ _ | .readBank _ _ _ _ =>
      -- The comparison is made first, so that `nSend` is 0 or 1.
      let nSend := if asyncSend ≥ 0 then 1 else 0
      if nSend > 0 then rfidOk else rfidErrSend

/-- What a reading returns: an input out of range is reported at once. -/
def Reading.returned (r : Reading) (asyncSend : Int) : Int :=
  match r.command with
  | some _ => r.result asyncSend
  | none => rfidErrInput

end RfidEngine.RfidInterface
