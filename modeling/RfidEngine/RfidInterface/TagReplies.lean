import RfidEngine.RfidInterface.BankReplies

/-!
# RfidInterface: replies with the EPC of a tag

The EPC stands between a protocol word and a checksum of four hex digits each,
and is cut out by the length of the text. Two parsers read it alone, two others
together with the data of a bank, from fields separated by commas.

## Main results

A reply with data is decoded exactly when it shows a tag: without one the cut
starts behind the text and throws. The parsers of the EPC alone agree with
`RfidParseEPC` exactly on texts of eight hex digits or more: on shorter ones they
throw, or report a tag.
-/

namespace RfidEngine.RfidInterface

open BacktrackRegex

def lenEpcProtocol : Nat := 4
def lenEpcCrc16 : Nat := 4

/-- What is stored of a tag's text, which starts with the letter of the command. -/
def storeTagEPC (strTag : Str) (stTagData : RfidTagData) (pstTagEPC : Option RfidTagEPC) :
    Option (RfidTagData × Option RfidTagEPC) := do
  let strEPC ← substr strTag (1 + lenEpcProtocol)
    (sizeSub strTag.length (1 + lenEpcProtocol + lenEpcCrc16))
  let stTagData := { stTagData with strEPC := strEPC }
  match pstTagEPC with
  | none => some (stTagData, none)
  | some _ => do
      let strPC ← substr strTag 1 lenEpcProtocol
      let strCRC ← substr strTag (sizeSub strTag.length lenEpcCrc16) lenEpcCrc16
      let strRaw ← substr strTag 1 (sizeSub strTag.length 1)
      some (stTagData,
        some ⟨strRaw, toUnsigned (strtol strPC 16), strEPC, toUnsigned (strtol strCRC 16)⟩)

/-- The tag's text behind the letter of the command; anything else is an error code. -/
def decodeEPC (command : Char) : Decoder := fun strData stTagData pstTagEPC => do
  let ch ← strData[0]?
  if ch = command ∧ 1 < strData.length then
    let (stTagData, pstTagEPC) ← storeTagEPC strData stTagData pstTagEPC
    some (true, stTagData, pstTagEPC, errorRfidSuccess)
  else some (false, stTagData, pstTagEPC, parseErrorCode ch)

def parseReadSingleEPC : Str → RfidTagData → Option RfidTagEPC → Option Nat → Option TagAnswer :=
  parseTag (decodeEPC 'Q')

def parseReadMultiEPC : Str → RfidTagData → Option RfidTagEPC → Option Nat → Option TagAnswer :=
  parseTag (decodeEPC 'U')

/-- The loop over the fields: a tag, data, or an error code, which is kept with the result so
far. -/
def decodeFields (store : Str → RfidTagData → RfidTagData) :
    List Str → Bool × RfidTagData × Option RfidTagEPC × Nat →
      Option (Bool × RfidTagData × Option RfidTagEPC × Nat)
  | [], decoded => some decoded
  | field :: aryTag, (fResult, stTagData, pstTagEPC, uiErrorCode) => do
      let ch ← field[0]?
      if ch = 'Q' then
        let (stTagData, pstTagEPC) ← storeTagEPC field stTagData pstTagEPC
        decodeFields store aryTag (true, stTagData, pstTagEPC, uiErrorCode)
      else if ch = 'R' then
        let data ← substr field 1 (sizeSub field.length 1)
        decodeFields store aryTag (true, store data stTagData, pstTagEPC, uiErrorCode)
      else decodeFields store aryTag (fResult, stTagData, pstTagEPC, parseErrorCode ch)

def decodeEPCandData (store : Str → RfidTagData → RfidTagData) : Decoder :=
  fun strData stTagData pstTagEPC => do
    let ch ← strData[0]?
    if ch = 'Q' ∧ 1 < strData.length then
      decodeFields store (token strData ',') (false, stTagData, pstTagEPC, errorRfidSuccess)
    else some (false, stTagData, pstTagEPC, parseErrorCode ch)

def parseReadEPCandTID : Str → RfidTagData → Option RfidTagEPC → Option Nat → Option TagAnswer :=
  parseTag (decodeEPCandData fun data tag => { tag with strTID := data })

def parseReadEPCandUserData :
    Str → RfidTagData → Option RfidTagEPC → Option Nat → Option TagAnswer :=
  parseTag (decodeEPCandData fun data tag => { tag with strUser := data })

/-- A tag's text is cut exactly when it has a letter and a protocol word. -/
theorem storeTagEPC_isSome_iff (s : Str) (tag : RfidTagData) (epc : Option RfidTagEPC) :
    (storeTagEPC s tag epc).isSome = true ↔ 5 ≤ s.length := by
  unfold storeTagEPC
  by_cases hlen : 5 ≤ s.length
  · have hone : 1 ≤ s.length := by omega
    have hcrc : sizeSub s.length lenEpcCrc16 ≤ s.length := by
      unfold sizeSub lenEpcCrc16
      split <;> omega
    have hepc : 1 + lenEpcProtocol ≤ s.length := hlen
    cases epc <;> simp [substr, hepc, hone, hcrc, hlen]
  · have hepc : ¬ 1 + lenEpcProtocol ≤ s.length := hlen
    simp [substr, hepc, hlen]

theorem storeTagEPC_eq_none {s : Str} (h : s.length < 5) (tag : RfidTagData)
    (epc : Option RfidTagEPC) : storeTagEPC s tag epc = none := by
  by_contra hne
  have hsome := (storeTagEPC_isSome_iff s tag epc).mp (Option.isSome_iff_ne_none.mpr hne)
  omega

/-- The numbers and texts of a tag. -/
def tagEPC (pc : HexText 4) (epc : Str) (crc : HexText 4) : RfidTagEPC :=
  ⟨pc ++ (epc ++ crc), hexValue pc, epc, hexValue crc⟩

/-- A text with protocol word and checksum is cut at its parts. -/
theorem storeTagEPC_parts (ch : Char) (pc : HexText 4) (epc : Str) (crc : HexText 4)
    (tag : RfidTagData) (old : Option RfidTagEPC) :
    storeTagEPC (ch :: (pc ++ (epc ++ crc))) tag old =
      some ({ tag with strEPC := epc }, old.map fun _ => tagEPC pc epc crc) := by
  have hpc : (pc : Str).length = 4 := pc.2.1
  have hcrc : (crc : Str).length = 4 := crc.2.1
  have hlen : (ch :: ((pc : Str) ++ (epc ++ crc))).length = epc.length + 9 := by
    simp only [List.length_cons, List.length_append, hpc, hcrc]
    omega
  have hepc : substr (ch :: ((pc : Str) ++ (epc ++ crc))) (1 + lenEpcProtocol)
      (sizeSub (epc.length + 9) (1 + lenEpcProtocol + lenEpcCrc16)) = some epc := by
    apply substr_of_parts (ch :: (pc : Str)) epc crc rfl
    · rw [List.length_cons, hpc]
      rfl
    · unfold sizeSub lenEpcProtocol lenEpcCrc16
      rw [if_pos (by omega)]
      omega
  have hword : substr (ch :: ((pc : Str) ++ (epc ++ crc))) 1 lenEpcProtocol = some (pc : Str) :=
    substr_of_parts [ch] pc (epc ++ crc) rfl rfl hpc.symm
  have hsum : substr (ch :: ((pc : Str) ++ (epc ++ crc))) (sizeSub (epc.length + 9) lenEpcCrc16)
      lenEpcCrc16 = some (crc : Str) := by
    apply substr_of_parts (ch :: ((pc : Str) ++ epc)) crc []
    · simp
    · unfold sizeSub lenEpcCrc16
      rw [if_pos (by omega), List.length_cons, List.length_append, hpc]
      omega
    · exact hcrc.symm
  have hraw := substr_tail ch ((pc : Str) ++ (epc ++ crc))
  rw [hlen] at hraw
  unfold storeTagEPC
  rw [hlen, hepc, hword, hsum, hraw]
  cases old with
  | none => rfl
  | some e =>
      simp only [Option.bind_eq_bind, Option.bind_some, toUnsigned_strtol_hex, Option.map_some]
      rfl

/-- A tag's protocol word, EPC and checksum. -/
structure TagText where
  pc : HexText 4
  epc : Str
  epc_hex : ∀ ch ∈ epc, isHexDigit ch = true
  crc : HexText 4

namespace TagText

def text (t : TagText) : Str := t.pc ++ (t.epc ++ t.crc)

theorem text_hex (t : TagText) : ∀ ch ∈ t.text, isHexDigit ch = true := by
  intro ch hch
  obtain h | h := List.mem_append.mp hch
  · exact t.pc.2.2 ch h
  · exact (List.mem_append.mp h).elim (t.epc_hex ch) (t.crc.2.2 ch)

/-- Every text of eight hex digits or more is that of a tag. -/
theorem exists_of_length {p : Str} (hp : ∀ ch ∈ p, isHexDigit ch = true) (hlen : 8 ≤ p.length) :
    ∃ t : TagText, t.text = p := by
  obtain ⟨pc, crc, epc, hepc, rfl⟩ := exists_epc_parts hp hlen
  exact ⟨⟨pc, epc, hepc, crc⟩, rfl⟩

/-- What is stored of the tag. -/
def stored (t : TagText) : RfidTagEPC := tagEPC t.pc t.epc t.crc

end TagText

/-- The data of a reply that shows a tag are hex digits. -/
abbrev HexResult := ReadResult fun w => ∀ ch ∈ w, isHexDigit ch = true

theorem hex_ne {w : Str} (hw : ∀ ch ∈ w, isHexDigit ch = true) {c : Char}
    (hc : isHexDigit c = false) : c ∉ w :=
  fun h => absurd (hc.symm.trans (hw c h)) Bool.false_ne_true

theorem HexResult.not_mem (result : HexResult) {c : Char} (hc : isHexDigit c = false)
    (hR : c ≠ 'R') (hlisted : (['0', '3', '4', 'B', 'F'].contains c) = false) :
    c ∉ result.text := by
  cases result with
  | data w formed =>
      rw [ReadResult.text, List.mem_cons, not_or]
      exact ⟨hR, hex_ne formed hc⟩
  | error code listed =>
      rw [ReadResult.text, List.mem_singleton]
      exact (ReadResult.ne_of_listed _ listed hlisted).symm

/-- `Q<tag>,<result>`, where the tag's text may be missing. -/
def epcDataPart (tag : Option TagText) (result : HexResult) : Str :=
  'Q' :: ((tag.map TagText.text).getD [] ++ ',' :: result.text)

theorem tagText_not_mem (tag : Option TagText) {c : Char} (hc : isHexDigit c = false) :
    c ∉ (tag.map TagText.text).getD [] := by
  cases tag with
  | none => exact List.not_mem_nil
  | some t => exact hex_ne t.text_hex hc

theorem epcDataPart_plain (tag : Option TagText) (result : HexResult) :
    '-' ∉ epcDataPart tag result := by
  simp only [epcDataPart, List.mem_cons, List.mem_append, not_or]
  exact ⟨by decide, tagText_not_mem tag rfl, by decide, result.not_mem rfl (by decide) rfl⟩

theorem token_epcDataPart (tag : Option TagText) (result : HexResult) :
    token (epcDataPart tag result) ',' =
      ['Q' :: (tag.map TagText.text).getD [], result.text] := by
  rw [token_eq_splitOn]
  refine Fields.splitOn_eq_pair_iff.mpr ⟨rfl, ?_, result.not_mem rfl (by decide) rfl⟩
  rw [List.mem_cons, not_or]
  exact ⟨by decide, tagText_not_mem tag rfl⟩

/-- The tag with the data of a result stored. -/
def HexResult.storedBy (result : HexResult) (store : Str → RfidTagData → RfidTagData)
    (tag : RfidTagData) : RfidTagData :=
  match result with
  | .data w _ => store w tag
  | .error _ _ => tag

/-- The field of the result: data are stored, an error code is kept. -/
theorem decodeFields_result (store : Str → RfidTagData → RfidTagData) (result : HexResult)
    (tag : RfidTagData) (epc : Option RfidTagEPC) :
    decodeFields store [result.text] (true, tag, epc, errorRfidSuccess) =
      some (true, result.storedBy store tag, epc, result.errorCode) := by
  cases result with
  | data w formed =>
      have hdata := substr_tail 'R' w
      have hQ : ¬ 'R' = 'Q' := by decide
      simp only [decodeFields, ReadResult.text, List.getElem?_cons_zero, Option.bind_eq_bind,
        Option.bind_some, if_neg hQ, if_true, hdata]
      rfl
  | error code listed =>
      have hQ : ¬ code = 'Q' := ReadResult.ne_of_listed 'Q' listed rfl
      have hR : ¬ code = 'R' := ReadResult.ne_of_listed 'R' listed rfl
      simp only [decodeFields, ReadResult.text, List.getElem?_cons_zero, Option.bind_eq_bind,
        Option.bind_some, if_neg hQ, if_neg hR]
      rfl

/-- A reply that shows a tag is decoded field by field; without a tag the decoder throws. -/
theorem decodeEPCandData_part (store : Str → RfidTagData → RfidTagData) (tag : Option TagText)
    (result : HexResult) (old : RfidTagData) (oldEPC : Option RfidTagEPC) :
    decodeEPCandData store (epcDataPart tag result) old oldEPC =
      tag.map fun t => (true, result.storedBy store { old with strEPC := t.epc },
        oldEPC.map fun _ => t.stored, result.errorCode) := by
  have hlen : 1 < (epcDataPart tag result).length := by
    simp only [epcDataPart, List.length_cons, List.length_append]
    omega
  have hfirst : (epcDataPart tag result)[0]? = some 'Q' := rfl
  rw [decodeEPCandData, hfirst]
  simp only [Option.bind_eq_bind, Option.bind_some, hlen, and_self, if_true,
    token_epcDataPart]
  cases tag with
  | none =>
      have hcut : storeTagEPC ['Q'] old oldEPC = none := storeTagEPC_eq_none (by simp) old oldEPC
      simp only [Option.map_none, Option.getD_none]
      rw [decodeFields]
      simp only [List.getElem?_cons_zero, Option.bind_eq_bind, Option.bind_some, if_true, hcut,
        Option.bind_none]
  | some t =>
      have hcut := storeTagEPC_parts 'Q' t.pc t.epc t.crc old oldEPC
      simp only [Option.map_some, Option.getD_some]
      rw [decodeFields]
      simp only [List.getElem?_cons_zero, Option.bind_eq_bind, Option.bind_some, if_true,
        TagText.text, hcut]
      exact decodeFields_result store result _ _

/-- The two parsers. -/
inductive EpcDataParser where
  | tid
  | userData
  deriving DecidableEq

def EpcDataParser.parse : EpcDataParser → Str → RfidTagData → Option RfidTagEPC → Option Nat →
    Option TagAnswer
  | tid => parseReadEPCandTID
  | userData => parseReadEPCandUserData

def EpcDataParser.store : EpcDataParser → Str → RfidTagData → RfidTagData
  | tid, data, tag => { tag with strTID := data }
  | userData, data, tag => { tag with strUser := data }

/-- The member that the data are for. -/
def EpcDataParser.field : EpcDataParser → RfidTagData → Str
  | tid => RfidTagData.strTID
  | userData => RfidTagData.strUser

/-- The parser returns, reports the EPC of a tag that is shown and no other, stores the data and
sets an error code where the result is one. -/
def DecodesEpcData (parser : EpcDataParser) (tag : Option TagText) (result : HexResult)
    (response : Str) (stTagData : RfidTagData) (pstTagEPC : Option RfidTagEPC)
    (puiErrorCode : Option Nat) : Prop :=
  ∃ answer, parser.parse response stTagData pstTagEPC puiErrorCode = some answer ∧
    (match tag with
      | some t => answer.stTagData.strEPC = t.epc ∧
          answer.pstTagEPC = pstTagEPC.map fun _ => t.stored
      | none => answer.stTagData.strEPC = stTagData.strEPC ∧ answer.pstTagEPC = pstTagEPC) ∧
    (match result with
      | .data w _ => parser.field answer.stTagData = w
      | .error _ _ => True) ∧
    answer.puiErrorCode = puiErrorCode.map fun _ => result.errorCode

theorem EpcDataParser.field_store (parser : EpcDataParser) (data : Str) (tag : RfidTagData) :
    parser.field (parser.store data tag) = data ∧
      (parser.store data tag).strEPC = tag.strEPC := by
  cases parser <;> exact ⟨rfl, rfl⟩

theorem EpcDataParser.parse_of_content (parser : EpcDataParser) (head : TagHead)
    {tag : Option TagText} {result : HexResult} {response : Str}
    (hresponse : getContent response = some (head.content (epcDataPart tag result)))
    (stTagData : RfidTagData) (pstTagEPC : Option RfidTagEPC) (puiErrorCode : Option Nat) :
    parser.parse response stTagData pstTagEPC puiErrorCode = tag.map fun t => ⟨true,
      result.storedBy parser.store { head.stored stTagData with strEPC := t.epc },
      pstTagEPC.map fun _ => t.stored, puiErrorCode.map fun _ => result.errorCode⟩ := by
  have hparse : parser.parse response stTagData pstTagEPC puiErrorCode =
      parseTag (decodeEPCandData parser.store) response stTagData pstTagEPC puiErrorCode := by
    cases parser <;> rfl
  rw [hparse, parseTag_of_content _ head (epcDataPart_plain tag result) hresponse,
    decodeEPCandData_part, Option.map_map]
  rfl

/-- A reply is decoded exactly when it shows a tag. -/
theorem epc_data_decoded_iff (parser : EpcDataParser) (head : TagHead) (tag : Option TagText)
    (result : HexResult) (response : Str)
    (hresponse : getContent response = some (head.content (epcDataPart tag result)))
    (stTagData : RfidTagData) (pstTagEPC : Option RfidTagEPC) (puiErrorCode : Option Nat) :
    DecodesEpcData parser tag result response stTagData pstTagEPC puiErrorCode ↔
      tag ≠ none := by
  rw [DecodesEpcData, parser.parse_of_content head hresponse]
  cases tag with
  | none =>
      constructor
      · rintro ⟨answer, heq, -⟩
        exact absurd heq.symm (Option.some_ne_none answer)
      · exact fun h => absurd rfl h
  | some t =>
      refine iff_of_true ?_ (Option.some_ne_none t)
      cases result with
      | data w formed =>
          obtain ⟨hfield, hepc⟩ :=
            parser.field_store w { head.stored stTagData with strEPC := t.epc }
          exact ⟨_, rfl, ⟨hepc, rfl⟩, hfield, rfl⟩
      | error code listed => exact ⟨_, rfl, ⟨rfl, rfl⟩, trivial, rfl⟩

def sampleTagText : TagText where
  pc := ⟨"3000".toList, rfl, List.all_eq_true.mp rfl⟩
  epc := "E28011606000020D6843006F".toList
  epc_hex := List.all_eq_true.mp rfl
  crc := ⟨"BA7D".toList, rfl, List.all_eq_true.mp rfl⟩

theorem sampleHex : ∀ ch ∈ "E280".toList, isHexDigit ch = true := List.all_eq_true.mp rfl

/-- A read with a tag answers with its data. -/
theorem epc_data_decoded_sample :
    DecodesEpcData .tid (some sampleTagText) (.data "E280".toList sampleHex)
      (sampleResponse (epcDataPart (some sampleTagText) (.data "E280".toList sampleHex)))
      sampleTag (some ⟨[], 0, [], 0⟩) (some 7) := by
  have hcontent := getContent_sampleResponse
    (epcDataPart (some sampleTagText) (.data "E280".toList sampleHex))
    (by decide) (List.all_eq_true.mp rfl)
  exact (epc_data_decoded_iff .tid sampleHead (some sampleTagText) _ _ hcontent _ _ _).mpr
    (Option.some_ne_none _)

/-- The documented reply `Q,R` of a read without a tag ends the parser. -/
theorem no_tag_reply_throws :
    parseReadEPCandUserData (sampleResponse "Q,R".toList) sampleTag none (some 0) = none ∧
      ¬ DecodesEpcData .userData none (.data [] (by simp)) (sampleResponse "Q,R".toList) sampleTag
        none (some 0) := by
  have hcontent : getContent (sampleResponse "Q,R".toList) =
      some (sampleHead.content (epcDataPart none (.data [] (by simp)))) :=
    getContent_sampleResponse _ (by decide) (List.all_eq_true.mp rfl)
  have hparse := EpcDataParser.parse_of_content .userData sampleHead hcontent sampleTag none
    (some 0)
  refine ⟨hparse, ?_⟩
  rintro ⟨answer, hsome, -⟩
  exact Option.some_ne_none answer (hsome.symm.trans hparse)

/-- The two parsers of the EPC alone. -/
inductive EpcParser where
  | single
  | multi
  deriving DecidableEq

namespace EpcParser

def parse : EpcParser → Str → RfidTagData → Option RfidTagEPC → Option Nat → Option TagAnswer
  | single => parseReadSingleEPC
  | multi => parseReadMultiEPC

/-- The letter of the parser's command. -/
def command : EpcParser → Char
  | single => 'Q'
  | multi => 'U'

/-- The parser returns; it reports a tag exactly where `RfidParseEPC` matches, and then stores the
same EPC, the numbers of the same words and the whole text. -/
def Agrees (parser : EpcParser) (p response : Str) (stTagData : RfidTagData)
    (pstTagEPC : Option RfidTagEPC) (puiErrorCode : Option Nat) : Prop :=
  let parsed := RfidParseEPC.parse p
  ∃ answer, parser.parse response stTagData pstTagEPC puiErrorCode = some answer ∧
    (answer.fResult = true ↔ parsed.isMatch = true) ∧
    (parsed.isMatch = true ↔ 8 ≤ p.length) ∧
    (answer.fResult = true → answer.stTagData.strEPC = parsed.epc ∧
      (answer.pstTagEPC = pstTagEPC.map fun _ =>
        ⟨p, hexValue parsed.proto, parsed.epc, hexValue parsed.crc⟩) ∧
      parsed.proto ++ parsed.epc ++ parsed.crc = p)

end EpcParser

theorem decodeEPC_command (command : Char) {p : Str} (hne : p ≠ []) (tag : RfidTagData)
    (epc : Option RfidTagEPC) :
    decodeEPC command (command :: p) tag epc =
      (storeTagEPC (command :: p) tag epc).map fun stored =>
        (true, stored.1, stored.2, errorRfidSuccess) := by
  have hlen : 1 < (command :: p).length := by
    rw [List.length_cons]
    have hpos := List.length_pos_iff.mpr hne
    omega
  rw [decodeEPC]
  simp only [List.getElem?_cons_zero, Option.bind_eq_bind, Option.bind_some, hlen, and_self,
    if_true]
  cases storeTagEPC (command :: p) tag epc <;> rfl

theorem EpcParser.parse_of_content (parser : EpcParser) (head : TagHead) {p response : Str}
    (hp : ∀ ch ∈ p, isHexDigit ch = true) (hne : p ≠ [])
    (hresponse : getContent response = some (head.content (parser.command :: p)))
    (stTagData : RfidTagData) (pstTagEPC : Option RfidTagEPC) (puiErrorCode : Option Nat) :
    parser.parse response stTagData pstTagEPC puiErrorCode =
      (storeTagEPC (parser.command :: p) (head.stored stTagData) pstTagEPC).map fun stored =>
        ⟨true, stored.1, stored.2, puiErrorCode.map fun _ => errorRfidSuccess⟩ := by
  have hplain : '-' ∉ parser.command :: p := by
    rw [List.mem_cons, not_or]
    exact ⟨by cases parser <;> decide, hex_ne hp rfl⟩
  have hparse : parser.parse response stTagData pstTagEPC puiErrorCode =
      parseTag (decodeEPC parser.command) response stTagData pstTagEPC puiErrorCode := by
    cases parser <;> rfl
  rw [hparse, parseTag_of_content _ head hplain hresponse, decodeEPC_command _ hne,
    Option.map_map]
  rfl

/-- The parsers agree with `RfidParseEPC` exactly on texts of eight hex digits or more. -/
theorem epc_parsers_agree_iff (parser : EpcParser) (time : Str) (plain : '-' ∉ time)
    (n : DecimalText) (p : Str) (hp : ∀ ch ∈ p, isHexDigit ch = true) (hne : p ≠ [])
    (response : Str) (hresponse : getContent response =
      some ((TagHead.numbered time plain n).content (parser.command :: p)))
    (stTagData : RfidTagData) (pstTagEPC : Option RfidTagEPC) (puiErrorCode : Option Nat) :
    parser.Agrees p response stTagData pstTagEPC puiErrorCode ↔ 8 ≤ p.length := by
  rw [EpcParser.Agrees, parser.parse_of_content _ hp hne hresponse]
  constructor
  · rintro ⟨answer, hanswer, hmatch, hlen, -⟩
    obtain ⟨stored, -, rfl⟩ := Option.map_eq_some_iff.mp hanswer
    exact hlen.mp (hmatch.mp rfl)
  · intro hlen
    obtain ⟨t, rfl⟩ := TagText.exists_of_length hp hlen
    have hparsed : RfidParseEPC.parse t.text = ⟨true, t.pc, t.epc, t.crc⟩ :=
      parse_epc_text t.pc t.crc t.epc_hex
    rw [TagText.text, storeTagEPC_parts, ← TagText.text]
    simp only [hparsed]
    refine ⟨_, rfl, iff_of_true rfl trivial, iff_of_true trivial hlen, fun _ => ⟨rfl, rfl, ?_⟩⟩
    exact List.append_assoc _ _ _

/-- A text of protocol word, EPC and checksum is decoded as `RfidParseEPC` does. -/
theorem epc_parsers_agree_sample :
    EpcParser.multi.Agrees sampleTagText.text (sampleResponse ('U' :: sampleTagText.text))
      sampleTag (some ⟨[], 0, [], 0⟩) none := by
  have hcontent := getContent_sampleResponse ('U' :: sampleTagText.text)
    (by decide) (List.all_eq_true.mp rfl)
  exact (epc_parsers_agree_iff .multi sampleTime sampleTime_plain antennaOne sampleTagText.text
    sampleTagText.text_hex (by decide) _ hcontent _ _ _).mpr (by decide)

/-- A text of four hex digits is reported as a tag, which `RfidParseEPC` does not match, and one
of three digits ends the parser. -/
theorem short_epc_reported :
    ((parseReadSingleEPC (sampleResponse "Q3000".toList) sampleTag none none).map
        TagAnswer.fResult = some true ∧
      (RfidParseEPC.parse "3000".toList).isMatch = false ∧
      ¬ EpcParser.single.Agrees "3000".toList (sampleResponse "Q3000".toList) sampleTag none
        none) ∧
    parseReadSingleEPC (sampleResponse "Q300".toList) sampleTag none none = none := by
  have hparse : ∀ p : Str, (∀ ch ∈ p, isHexDigit ch = true) → p ≠ [] →
      (∀ ch ∈ 'Q' :: p, isDot ch = true) → '\x00' ∉ 'Q' :: p →
      parseReadSingleEPC (sampleResponse ('Q' :: p)) sampleTag none none =
        (storeTagEPC ('Q' :: p) (sampleHead.stored sampleTag) none).map fun stored =>
          ⟨true, stored.1, stored.2, none⟩ :=
    fun p hp hne hdot hzero => EpcParser.parse_of_content .single sampleHead hp hne
      (getContent_sampleResponse _ hzero hdot) sampleTag none none
  have hfour := hparse "3000".toList (List.all_eq_true.mp rfl) (by decide)
    (List.all_eq_true.mp rfl) (by decide)
  have hthree := hparse "300".toList (List.all_eq_true.mp rfl) (by decide)
    (List.all_eq_true.mp rfl) (by decide)
  have hmatch : (RfidParseEPC.parse "3000".toList).isMatch = false := by
    rw [Bool.eq_false_iff, Ne, parse_epc_isMatch_iff]
    exact fun h => absurd h.2 (by decide)
  obtain ⟨stored, hstored⟩ := Option.isSome_iff_exists.mp
    ((storeTagEPC_isSome_iff ('Q' :: "3000".toList) (sampleHead.stored sampleTag) none).mpr
      (by decide))
  rw [hstored] at hfour
  refine ⟨⟨congrArg (Option.map TagAnswer.fResult) hfour, hmatch, ?_⟩, ?_⟩
  · rintro ⟨answer, hanswer, hiff, -⟩
    obtain rfl := Option.some.inj (hfour.symm.trans hanswer)
    exact absurd (hmatch.symm.trans (hiff.mp rfl)) Bool.false_ne_true
  · exact hthree.trans (congrArg _ (storeTagEPC_eq_none (by decide) _ _))

end RfidEngine.RfidInterface
