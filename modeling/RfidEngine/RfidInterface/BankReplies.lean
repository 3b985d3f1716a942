import RfidEngine.RfidInterface.Response

/-!
# RfidInterface: replies to a read of one bank

A reply is `<timestamp>-Antenna<antenna>-` with the read's letter and its data,
or with an error code of one character. Four parsers differ only in where they
store the data, and three functions send a read and hand its reply to one.

## Main result

The data are decoded by all four parsers, and the antenna where it is an
`unsigned int`. The error code is looked for behind the one character it
consists of, which ends the parser with an exception. No caller is given an
error code.
-/

namespace RfidEngine.RfidInterface

/-- The members of `RFID_TAG_DATA` that are stored from a reply. -/
structure RfidTagData where
  uiAntenna : Nat
  strTime : Str
  strData : Str
  strEPC : Str
  strTID : Str
  strUser : Str
  deriving DecidableEq

structure RfidTagEPC where
  strRaw : Str
  uiProtocolControl : Nat
  strEPC : Str
  uiCRC16 : Nat
  deriving DecidableEq

/-- What a parser returns and leaves in its arguments; a pointer is null or points to a value. -/
structure TagAnswer where
  fResult : Bool
  stTagData : RfidTagData
  pstTagEPC : Option RfidTagEPC
  puiErrorCode : Option Nat
  deriving DecidableEq

/-- What the parsers do with the third part of a content: it gives the result, the stored tag and
the error code. -/
abbrev Decoder :=
  Str → RfidTagData → Option RfidTagEPC → Option (Bool × RfidTagData × Option RfidTagEPC × Nat)

/-- The common part of the parsers: a content that is not of three parts is refused without an
error code. -/
def parseTag (decode : Decoder) (lpBuffer : Str) (stTagData : RfidTagData)
    (pstTagEPC : Option RfidTagEPC) (puiErrorCode : Option Nat) : Option TagAnswer := do
  let strContent ← getContent lpBuffer
  let (fResult, stTagData, pstTagEPC, uiErrorCode) ←
    match token strContent '-' with
    | [strTime, strAntenna, strData] =>
        decode strData { stTagData with
          strTime := strTime
          uiAntenna := (parseAntenna (cStr strAntenna)).getD 0 } pstTagEPC
    | _ => some (false, { stTagData with uiAntenna := 0 }, pstTagEPC, errorRfidSuccess)
  some ⟨fResult, stTagData, pstTagEPC, puiErrorCode.map fun _ => uiErrorCode⟩

/-- The data of a bank, or an error code, which is taken from the second character. -/
def decodeBank (store : Str → RfidTagData → RfidTagData) : Decoder :=
  fun strData stTagData pstTagEPC => do
    if (← strData[0]?) = 'R' then
      let data ← substr strData 1 (sizeSub strData.length 1)
      some (true, store data stTagData, pstTagEPC, errorRfidSuccess)
    else
      let szResponseCode ← strData[1]?
      some (false, stTagData, pstTagEPC, parseErrorCode szResponseCode)

def parseReadBank (lpBuffer : Str) (stTagData : RfidTagData) (puiErrorCode : Option Nat) :
    Option TagAnswer :=
  parseTag (decodeBank fun data tag => { tag with strData := data }) lpBuffer stTagData none
    puiErrorCode

def parseReadEPC (lpBuffer : Str) (stTagData : RfidTagData) (puiErrorCode : Option Nat) :
    Option TagAnswer :=
  parseTag (decodeBank fun data tag => { tag with strData := data, strEPC := data }) lpBuffer
    stTagData none puiErrorCode

def parseReadTID (lpBuffer : Str) (stTagData : RfidTagData) (puiErrorCode : Option Nat) :
    Option TagAnswer :=
  parseTag (decodeBank fun data tag => { tag with strData := data, strTID := data }) lpBuffer
    stTagData none puiErrorCode

def parseReadUserData (lpBuffer : Str) (stTagData : RfidTagData) (puiErrorCode : Option Nat) :
    Option TagAnswer :=
  parseTag (decodeBank fun data tag => { tag with strData := data }) lpBuffer stTagData none
    puiErrorCode

def rfPtReqGetTagEpc : Nat := 0x1C
def rfPtReqGetTagTid : Nat := 0x1E

def maxMemoryBankAddress : Nat := 0x3FFF
def maxMemoryBankLength : Nat := 0x1E

/-- The common part of the readers: an address or a length out of range sends nothing, and the
parser is not given the caller's pointer to an error code. -/
def readTag (parse : Str → RfidTagData → Option Nat → Option TagAnswer) (lowest : Nat)
    (uiCommandType : Nat) (bank : Int) (uiStartAddress uiWordLength : Nat)
    (stTagData : RfidTagData) (puiErrorCode : Option Nat) :
    Exchange (Option (Bool × RfidTagData × Option Nat)) :=
  if uiStartAddress < lowest ∨ maxMemoryBankAddress < uiStartAddress then
    .done (some (false, stTagData, puiErrorCode))
  else if uiWordLength = 0 ∨ maxMemoryBankLength < uiWordLength then
    .done (some (false, stTagData, puiErrorCode))
  else
    .send uiCommandType
      (snprintf ('\n' :: bankText bank uiStartAddress uiWordLength ++ ['\r']))
      fun _ response =>
        if response = [] then some (false, stTagData, puiErrorCode)
        else (parse response stTagData none).map fun a => (a.fResult, a.stTagData, puiErrorCode)

def readEPC : Nat → Nat → RfidTagData → Option Nat →
    Exchange (Option (Bool × RfidTagData × Option Nat)) :=
  readTag parseReadEPC 0 rfPtReqGetTagEpc rfidMbEpc

def readTID : Nat → Nat → RfidTagData → Option Nat →
    Exchange (Option (Bool × RfidTagData × Option Nat)) :=
  readTag parseReadTID 0 rfPtReqGetTagTid rfidMbTid

/-- User data are not read from address 0, and the command has the number of a read of the TID. -/
def readUserData : Nat → Nat → RfidTagData → Option Nat →
    Exchange (Option (Bool × RfidTagData × Option Nat)) :=
  readTag parseReadUserData 1 rfPtReqGetTagTid rfidMbUser

/-- What stands behind the head of a reply: data of some form, or one of the error codes. -/
inductive ReadResult (form : Str → Prop) where
  | data (w : Str) (formed : form w)
  | error (code : Char) (listed : code ∈ ['0', '3', '4', 'B', 'F'])

namespace ReadResult

variable {form : Str → Prop}

def text : ReadResult form → Str
  | data w _ => 'R' :: w
  | error code _ => [code]

def isData : ReadResult form → Bool
  | data _ _ => true
  | error _ _ => false

/-- The error code that the caller is to be given. -/
def errorCode : ReadResult form → Nat
  | data _ _ => errorRfidSuccess
  | error code _ => parseErrorCode code

theorem ne_of_listed {code : Char} (ch : Char) (h : code ∈ ['0', '3', '4', 'B', 'F'])
    (hch : (['0', '3', '4', 'B', 'F'].contains ch) = false) : code ≠ ch := by
  rintro rfl
  have hcontains := List.contains_iff_mem.mpr h
  exact absurd (hch.symm.trans hcontains) Bool.false_ne_true

end ReadResult

/-- What stands in front of the last part of a reply: a time and an antenna. -/
structure TagHead where
  time : Str
  time_plain : '-' ∉ time
  antenna : Str
  antenna_plain : '-' ∉ antenna

namespace TagHead

def content (h : TagHead) (part : Str) : Str := h.time ++ '-' :: (h.antenna ++ '-' :: part)

/-- `<timestamp>-Antenna<n>-` -/
def numbered (time : Str) (plain : '-' ∉ time) (n : DecimalText) : TagHead where
  time := time
  time_plain := plain
  antenna := textRfidAntenna ++ n
  antenna_plain := by
    rw [List.mem_append, not_or]
    exact ⟨by decide, n.not_mem rfl⟩

/-- The tag with the head's fields stored. -/
def stored (h : TagHead) (stTagData : RfidTagData) : RfidTagData :=
  { stTagData with
    strTime := h.time
    uiAntenna := (parseAntenna (cStr h.antenna)).getD 0 }

theorem stored_numbered (time : Str) (plain : '-' ∉ time) (n : DecimalText)
    (stTagData : RfidTagData) :
    ((numbered time plain n).stored stTagData).uiAntenna = toUnsigned (strtol n 10) := by
  change (parseAntenna (cStr (textRfidAntenna ++ n))).getD 0 = _
  rw [parseAntenna_text, Option.getD_some]

/-- The parts of a content are its time, its antenna and what is to be decoded. -/
theorem token_content (h : TagHead) {part : Str} (hpart : '-' ∉ part) :
    token (h.content part) '-' = [h.time, h.antenna, part] := by
  rw [token_eq_splitOn]
  exact Fields.splitOn_eq_triple_iff.mpr ⟨rfl, h.time_plain, h.antenna_plain, hpart⟩

end TagHead

/-- A parser goes on with the last part of the content. -/
theorem parseTag_of_content (decode : Decoder) (h : TagHead) {part response : Str}
    (hpart : '-' ∉ part) (hresponse : getContent response = some (h.content part))
    (stTagData : RfidTagData) (pstTagEPC : Option RfidTagEPC) (puiErrorCode : Option Nat) :
    parseTag decode response stTagData pstTagEPC puiErrorCode =
      (decode part (h.stored stTagData) pstTagEPC).map fun d =>
        ⟨d.1, d.2.1, d.2.2.1, puiErrorCode.map fun _ => d.2.2.2⟩ := by
  rw [parseTag, hresponse]
  simp only [Option.bind_eq_bind, Option.bind_some, h.token_content hpart]
  rw [TagHead.stored]
  cases decode part _ pstTagEPC <;> rfl

/-- The four parsers. -/
inductive BankParser where
  | bank
  | epc
  | tid
  | userData
  deriving DecidableEq

def BankParser.parse : BankParser → Str → RfidTagData → Option Nat → Option TagAnswer
  | bank => parseReadBank
  | epc => parseReadEPC
  | tid => parseReadTID
  | userData => parseReadUserData

/-- The functions that send a read and hand its reply to a parser. -/
inductive BankReader where
  | epc
  | tid
  | userData
  deriving DecidableEq

def BankReader.call : BankReader → Nat → Nat → RfidTagData → Option Nat →
    Exchange (Option (Bool × RfidTagData × Option Nat))
  | epc => readEPC
  | tid => readTID
  | userData => readUserData

/-- The parser returns the result's data and antenna, or its error code. -/
def DecodesBank (parser : BankParser) (n : DecimalText)
    (result : ReadResult fun w => '-' ∉ w) (response : Str) (stTagData : RfidTagData)
    (puiErrorCode : Option Nat) : Prop :=
  ∃ answer, parser.parse response stTagData puiErrorCode = some answer ∧
    answer.puiErrorCode = (puiErrorCode.map fun _ => result.errorCode) ∧
    match result with
    | .data w _ => answer.fResult = true ∧ answer.stTagData.strData = w ∧
        answer.stTagData.uiAntenna = decimalValue n
    | .error _ _ => answer.fResult = false

/-- The reader returns with the result's error code where the caller asked for it. -/
def HandsErrorCode (reader : BankReader) (uiStartAddress uiWordLength : Nat) (nSend : Int)
    (result : ReadResult fun w => '-' ∉ w) (response : Str) (stTagData : RfidTagData)
    (puiErrorCode : Option Nat) : Prop :=
  ∃ fResult tag, (reader.call uiStartAddress uiWordLength stTagData puiErrorCode).after nSend
    response = some (fResult, tag, puiErrorCode.map fun _ => result.errorCode)

section Reply

variable {time : Str} {plain : '-' ∉ time} {n : DecimalText}
  {result : ReadResult fun w => '-' ∉ w} {response : Str}

theorem ReadResult.text_plain (result : ReadResult fun w => '-' ∉ w) : '-' ∉ result.text := by
  cases result with
  | data w formed => simpa [text] using formed
  | error code listed => simpa [text] using (ne_of_listed '-' listed rfl).symm

/-- The data go where the parser stores them; on an error code it throws. -/
theorem decodeBank_text (store : Str → RfidTagData → RfidTagData)
    (result : ReadResult fun w => '-' ∉ w) (tag : RfidTagData) (epc : Option RfidTagEPC) :
    decodeBank store result.text tag epc =
      match result with
      | .data w _ => some (true, store w tag, epc, errorRfidSuccess)
      | .error _ _ => none := by
  cases result with
  | data w formed =>
      have hdata := substr_tail 'R' w
      simp only [decodeBank, ReadResult.text, List.getElem?_cons_zero, Option.bind_eq_bind,
        Option.bind_some, if_true, hdata]
  | error code listed =>
      have hcode : ¬ code = 'R' := ReadResult.ne_of_listed 'R' listed rfl
      simp only [decodeBank, ReadResult.text, List.getElem?_cons_zero, Option.bind_eq_bind,
        Option.bind_some, if_neg hcode]
      rfl

/-- What a parser answers to data. -/
def BankParser.stored : BankParser → Str → RfidTagData → RfidTagData
  | bank, data, tag => { tag with strData := data }
  | epc, data, tag => { tag with strData := data, strEPC := data }
  | tid, data, tag => { tag with strData := data, strTID := data }
  | userData, data, tag => { tag with strData := data }

theorem BankParser.stored_strData (parser : BankParser) (data : Str) (tag : RfidTagData) :
    (parser.stored data tag).strData = data := by
  cases parser <;> rfl

theorem BankParser.stored_uiAntenna (parser : BankParser) (data : Str) (tag : RfidTagData) :
    (parser.stored data tag).uiAntenna = tag.uiAntenna := by
  cases parser <;> rfl

theorem BankParser.parse_of_content (parser : BankParser)
    (hresponse : getContent response = some ((TagHead.numbered time plain n).content result.text))
    (stTagData : RfidTagData) (puiErrorCode : Option Nat) :
    parser.parse response stTagData puiErrorCode =
      match result with
      | .data w _ => some ⟨true,
          parser.stored w ((TagHead.numbered time plain n).stored stTagData), none,
          puiErrorCode.map fun _ => errorRfidSuccess⟩
      | .error _ _ => none := by
  have hparse := fun store => parseTag_of_content (decodeBank store) _ result.text_plain hresponse
    stTagData none puiErrorCode
  have hdecode := fun store => decodeBank_text store result
    ((TagHead.numbered time plain n).stored stTagData) none
  cases parser <;> (
    refine (hparse _).trans ?_
    rw [hdecode]
    cases result <;> rfl)

/-- A parser decodes exactly the data, with an antenna that is an `unsigned int`. -/
theorem decodesBank_iff (parser : BankParser)
    (hresponse : getContent response = some ((TagHead.numbered time plain n).content result.text))
    (stTagData : RfidTagData) (puiErrorCode : Option Nat) :
    DecodesBank parser n result response stTagData puiErrorCode ↔
      result.isData = true ∧ decimalValue n < 4294967296 := by
  rw [DecodesBank, parser.parse_of_content hresponse]
  cases result with
  | data w formed =>
      rw [← toUnsigned_strtol_decimal, ← TagHead.stored_numbered time plain n stTagData,
        ← parser.stored_uiAntenna w]
      constructor
      · rintro ⟨answer, heq, -, -, -, hantenna⟩
        obtain rfl := Option.some.inj heq
        exact ⟨rfl, hantenna⟩
      · rintro ⟨-, hantenna⟩
        exact ⟨_, rfl, rfl, rfl, parser.stored_strData w _, hantenna⟩
  | error code listed =>
      constructor
      · rintro ⟨answer, heq, -⟩
        exact absurd heq.symm (Option.some_ne_none answer)
      · rintro ⟨hdata, -⟩
        exact absurd hdata Bool.false_ne_true

/-- The parser that a reader hands its reply to. -/
def BankReader.parser : BankReader → BankParser
  | epc => .epc
  | tid => .tid
  | userData => .userData

theorem readTag_after {parse : Str → RfidTagData → Option Nat → Option TagAnswer} {lowest : Nat}
    {uiCommandType : Nat} {bank : Int} {uiStartAddress uiWordLength : Nat} {stTagData : RfidTagData}
    {puiErrorCode : Option Nat}
    (hsent : (readTag parse lowest uiCommandType bank uiStartAddress uiWordLength stTagData
      puiErrorCode).sent ≠ none) (nSend : Int) (hne : response ≠ []) :
    (readTag parse lowest uiCommandType bank uiStartAddress uiWordLength stTagData
      puiErrorCode).after nSend response =
        (parse response stTagData none).map fun a => (a.fResult, a.stTagData, puiErrorCode) := by
  unfold readTag at hsent ⊢
  split
  · rename_i haddress
    rw [if_pos haddress] at hsent
    exact absurd rfl hsent
  · rename_i haddress
    rw [if_neg haddress] at hsent
    split
    · rename_i hlength
      rw [if_pos hlength] at hsent
      exact absurd rfl hsent
    · exact if_neg hne

/-- What a reader that has sent its command makes of a response. -/
theorem BankReader.after_eq (reader : BankReader) {uiStartAddress uiWordLength : Nat}
    {stTagData : RfidTagData} {puiErrorCode : Option Nat}
    (hsent : (reader.call uiStartAddress uiWordLength stTagData puiErrorCode).sent ≠ none)
    (nSend : Int) (hne : response ≠ []) :
    (reader.call uiStartAddress uiWordLength stTagData puiErrorCode).after nSend response =
      (reader.parser.parse response stTagData none).map fun a =>
        (a.fResult, a.stTagData, puiErrorCode) := by
  cases reader
  · exact readTag_after hsent nSend hne
  · exact readTag_after hsent nSend hne
  · exact readTag_after hsent nSend hne

/-- A reader hands out what the caller's variable held before. -/
theorem handsErrorCode_iff (reader : BankReader)
    (hresponse : getContent response = some ((TagHead.numbered time plain n).content result.text))
    {uiStartAddress uiWordLength : Nat} {stTagData : RfidTagData} {puiErrorCode : Option Nat}
    (hsent : (reader.call uiStartAddress uiWordLength stTagData puiErrorCode).sent ≠ none)
    (nSend : Int) :
    HandsErrorCode reader uiStartAddress uiWordLength nSend result response stTagData
        puiErrorCode ↔
      result.isData = true ∧ (puiErrorCode = none ∨ puiErrorCode = some errorRfidSuccess) := by
  have hne : response ≠ [] := by
    rintro rfl
    exact absurd hresponse.symm (Option.some_ne_none _)
  rw [HandsErrorCode, reader.after_eq hsent nSend hne, reader.parser.parse_of_content hresponse]
  cases result with
  | data w formed =>
      constructor
      · rintro ⟨fResult, tag, heq⟩
        have hcode := congrArg (fun x => x.2.2) (Option.some.inj heq)
        cases puiErrorCode with
        | none => exact ⟨rfl, Or.inl rfl⟩
        | some code => exact ⟨rfl, Or.inr hcode⟩
      · rintro ⟨-, rfl | rfl⟩
        · exact ⟨_, _, rfl⟩
        · exact ⟨_, _, rfl⟩
  | error code listed =>
      constructor
      · rintro ⟨fResult, tag, heq⟩
        exact absurd heq.symm (Option.some_ne_none _)
      · rintro ⟨hdata, -⟩
        exact absurd hdata Bool.false_ne_true

/-- A reply is decoded exactly when it is data with an antenna that is an `unsigned int`, and its
error code handed out exactly when it is data and the caller's variable, if there is one, held the
code of a success before. -/
theorem bank_reply_decoded_iff (time : Str) (plain : '-' ∉ time) (n : DecimalText)
    (result : ReadResult fun w => '-' ∉ w) (response : Str)
    (hresponse : getContent response = some ((TagHead.numbered time plain n).content result.text))
    (stTagData : RfidTagData) (puiErrorCode : Option Nat) :
    (∀ parser : BankParser, DecodesBank parser n result response stTagData puiErrorCode ↔
      result.isData = true ∧ decimalValue n < 4294967296) ∧
    ∀ (reader : BankReader) (uiStartAddress uiWordLength : Nat) (nSend : Int),
      (reader.call uiStartAddress uiWordLength stTagData puiErrorCode).sent ≠ none →
        (HandsErrorCode reader uiStartAddress uiWordLength nSend result response stTagData
            puiErrorCode ↔
          result.isData = true ∧
            (puiErrorCode = none ∨ puiErrorCode = some errorRfidSuccess)) :=
  ⟨fun parser => decodesBank_iff parser hresponse stTagData puiErrorCode,
    fun reader _ _ nSend hsent => handsErrorCode_iff reader hresponse hsent nSend⟩

end Reply

def sampleTime : Str := "2020/11/10 17:29:27.544".toList

theorem sampleTime_plain : '-' ∉ sampleTime := by decide

def antennaOne : DecimalText := ⟨['1'], by simp, by simp [isDigit]⟩

/-- A tag before anything was stored. -/
def sampleTag : RfidTagData := ⟨0, [], [], [], [], []⟩

def sampleHead : TagHead := TagHead.numbered sampleTime sampleTime_plain antennaOne

/-- `@2020/11/10 17:29:27.544-Antenna1-<part>` -/
def sampleResponse (part : Str) : Str := '@' :: sampleHead.content part

theorem getContent_sampleResponse (part : Str) (hzero : '\x00' ∉ part)
    (hdot : ∀ ch ∈ part, isDot ch = true) :
    getContent (sampleResponse part) = some (sampleHead.content part) := by
  have hsplit : sampleHead.content part = sampleHead.content [] ++ part := by
    simp [TagHead.content]
  have hlead : ∀ ch ∈ sampleHead.content [], isDot ch = true := List.all_eq_true.mp rfl
  rw [sampleResponse, hsplit]
  apply getContent_at
  · rw [List.mem_append, not_or]
    exact ⟨by decide, hzero⟩
  · intro ch hch
    exact (List.mem_append.mp hch).elim (hlead ch) (hdot ch)

/-- Data are decoded, and a reader without a variable for the error code returns. -/
theorem bank_reply_decoded_sample :
    DecodesBank .tid antennaOne (.data "E280".toList (by decide)) (sampleResponse "RE280".toList)
        sampleTag (some 7) ∧
      HandsErrorCode .tid 2 6 8 (.data "E280".toList (by decide)) (sampleResponse "RE280".toList)
        sampleTag none := by
  have hcontent : getContent (sampleResponse "RE280".toList) =
      some (sampleHead.content "RE280".toList) :=
    getContent_sampleResponse _ (by decide) (List.all_eq_true.mp rfl)
  have hiff := fun code => bank_reply_decoded_iff sampleTime sampleTime_plain antennaOne
    (.data "E280".toList (by decide)) (sampleResponse "RE280".toList) hcontent sampleTag code
  have hsent : (BankReader.call .tid 2 6 sampleTag none).sent ≠ none := Option.some_ne_none _
  exact ⟨((hiff (some 7)).1 .tid).mpr ⟨rfl, by decide⟩,
    ((hiff none).2 .tid 2 6 8 hsent).mpr ⟨rfl, Or.inl rfl⟩⟩

/-- The documented reply to a read of memory that is not there ends the parser. -/
theorem bank_error_throws :
    parseReadEPC (sampleResponse ['3']) sampleTag (some 0) = none ∧
      ¬ DecodesBank .epc antennaOne (.error '3' (by simp)) (sampleResponse ['3']) sampleTag
        (some 0) ∧
      ¬ HandsErrorCode .epc 2 6 8 (.error '3' (by simp)) (sampleResponse ['3']) sampleTag
        (some 0) := by
  have hcontent : getContent (sampleResponse ['3']) =
      some (sampleHead.content (.error '3' (by simp) : ReadResult fun w => '-' ∉ w).text) :=
    getContent_sampleResponse _ (by decide) (List.all_eq_true.mp rfl)
  have hsent : (BankReader.call .epc 2 6 sampleTag (some 0)).sent ≠ none := Option.some_ne_none _
  refine ⟨BankParser.epc.parse_of_content hcontent sampleTag (some 0), ?_, ?_⟩
  · rw [decodesBank_iff .epc hcontent]
    exact fun h => absurd h.1 Bool.false_ne_true
  · rw [handsErrorCode_iff .epc hcontent hsent]
    exact fun h => absurd h.1 Bool.false_ne_true

end RfidEngine.RfidInterface
