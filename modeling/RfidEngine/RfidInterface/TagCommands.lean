import RfidEngine.RfidInterface.DateTime
import RfidEngine.RfidInterface.TagReplies
import RfidEngine.RfidInterface.TagWrite
import RfidEngine.ReceivePath

/-!
# RfidInterface: the commands that parse the reply of a tag

Eight functions send one text and hand whatever packet comes first to a parser,
which cuts it at its dashes and looks into the last part. `at` and `substr`
throw where that part is too short, and no function catches it.

## Main result

For every response each function throws exactly if the response has no content
or its last part is cut short, and reports success exactly if the last part has
the form of its own reply; where it starts a loop it reports success without a
look. In a run the response is the trimmed text of the last packet received, a
whole unit of the reader's stream.
-/

namespace RfidEngine.RfidInterface

open StepSystem AsyncSend TaggedQueue

def rfPtReqGetSignleTagEpcOnce : Nat := 0x03
def rfPtReqGetTagEpcTid : Nat := 0x22
def rfPtReqGetTagEpcUser : Nat := 0x23
def rfPtReqGetSignleTagEpcLoop : Nat := 0x24

/-- The variables of a function before a parser writes them. -/
def unsetTag : RfidTagData := ⟨0, [], [], [], [], []⟩
def unsetTagEPC : RfidTagEPC := ⟨[], 0, [], 0⟩

/-- Without a loop the response is parsed; there is none where nothing came. -/
def readTagEPC (parse : Str → RfidTagData → Option RfidTagEPC → Option Nat → Option TagAnswer)
    (uiCommandType : Nat) (szSend : Str) : Exchange (Option Bool) :=
  .send uiCommandType (snprintf szSend) fun _ response =>
    if response = [] then some false
    else (parse response unsetTag (some unsetTagEPC) none).map TagAnswer.fResult

/-- A loop reports success without a look at the response. -/
def startLoop (uiCommandType : Nat) (szSend : Str) : Exchange (Option Bool) :=
  .send uiCommandType (snprintf szSend) fun _ _ => some true

def readSingleTagEPC (fLoop : Bool) : Exchange (Option Bool) :=
  if fLoop then startLoop rfPtReqGetSignleTagEpcLoop "\n@Q\r".toList
  else readTagEPC parseReadSingleEPC rfPtReqGetSignleTagEpcOnce "\nQ\r".toList

def readMultiTagEPC (nSlot : Int) (fLoop : Bool) : Exchange (Option Bool) :=
  let slot := if 0 < nSlot ∧ nSlot ≤ 9 then decimal nSlot else []
  if fLoop then startLoop rfPtReqGetMultiTagEpcLoop ("\n@U".toList ++ slot ++ ['\r'])
  else readTagEPC parseReadMultiEPC rfPtReqGetMultiTagEpc ("\nU".toList ++ slot ++ ['\r'])

/-- The common part of the reads of the EPC with the data of a bank; the parser is not given the
caller's pointer to an error code. -/
def readEPCandData
    (parse : Str → RfidTagData → Option RfidTagEPC → Option Nat → Option TagAnswer)
    (uiCommandType : Nat) (bank : Int) (uiStartAddress uiWordLength : Nat)
    (stTagData : RfidTagData) (pstTagEPC : Option RfidTagEPC) :
    Exchange (Option (Bool × RfidTagData × Option RfidTagEPC)) :=
  if maxMemoryBankAddress < uiStartAddress then .done (some (false, stTagData, pstTagEPC))
  else if uiWordLength = 0 ∨ maxMemoryBankLength < uiWordLength then
    .done (some (false, stTagData, pstTagEPC))
  else
    .send uiCommandType
      (snprintf ("\nQ,".toList ++ bankText bank uiStartAddress uiWordLength ++ ['\r']))
      fun _ response =>
        if response = [] then some (false, stTagData, pstTagEPC)
        else (parse response stTagData pstTagEPC none).map fun a =>
          (a.fResult, a.stTagData, a.pstTagEPC)

def readEPCandTID : Nat → Nat → RfidTagData → Option RfidTagEPC →
    Exchange (Option (Bool × RfidTagData × Option RfidTagEPC)) :=
  readEPCandData parseReadEPCandTID rfPtReqGetTagEpcTid rfidMbTid

def readEPCandUserData : Nat → Nat → RfidTagData → Option RfidTagEPC →
    Exchange (Option (Bool × RfidTagData × Option RfidTagEPC)) :=
  readEPCandData parseReadEPCandUserData rfPtReqGetTagEpcUser rfidMbUser

/-- The reply to a session is the letter alone. -/
def decodeSession : Decoder := fun strData stTagData pstTagEPC => do
  let ch ← strData[0]?
  some (ch = 'T' && strData.length = 1, stTagData, pstTagEPC, errorRfidSuccess)

def parseSession (lpBuffer : Str) (stTagData : RfidTagData) : Option TagAnswer :=
  parseTag decodeSession lpBuffer stTagData none none

/-- The target goes out only with a session above 0. -/
def setSession (emSession emTarget : Int) : Exchange (Option Bool) :=
  let szSend :=
    if 0 < emSession then "\nT".toList ++ twoDigits emSession ++ decimal emTarget ++ ['\r']
    else "\nT\r".toList
  .send rfPtReqSelect (snprintf szSend) fun _ response =>
    if response = [] then some false
    else (parseSession response unsetTag).map TagAnswer.fResult

/-- The third part of a content with three. -/
def lastPart (response : Str) : Option Str :=
  (getContent response).bind fun strContent =>
    match token strContent '-' with
    | [_, _, strData] => some strData
    | _ => none

theorem lastPart_nil : lastPart [] = none := by
  rw [lastPart, getContent_eq]
  rfl

/-- A parser throws without a content, goes on with the last part, or refuses the response. -/
theorem parseTag_cases (decode : Decoder) (response : Str) (tag : RfidTagData)
    (epc : Option RfidTagEPC) (code : Option Nat) :
    (getContent response = none ∧ lastPart response = none ∧
      parseTag decode response tag epc code = none) ∨
    (∃ part stored, lastPart response = some part ∧
      parseTag decode response tag epc code = (decode part stored epc).map fun d =>
        ⟨d.1, d.2.1, d.2.2.1, code.map fun _ => d.2.2.2⟩) ∨
    (getContent response ≠ none ∧ lastPart response = none ∧
      ∃ answer, parseTag decode response tag epc code = some answer ∧
        answer.fResult = false) := by
  rw [parseTag, lastPart]
  cases getContent response with
  | none => exact Or.inl ⟨rfl, rfl, rfl⟩
  | some strContent =>
      simp only [Option.bind_eq_bind, Option.bind_some]
      match token strContent '-' with
      | [strTime, strAntenna, strData] =>
          let stored := { tag with
            strTime := strTime
            uiAntenna := (parseAntenna (cStr strAntenna)).getD 0 }
          exact Or.inr (Or.inl ⟨strData, stored, rfl, Option.map_eq_bind.symm⟩)
      | [] | [_] | [_, _] | _ :: _ :: _ :: _ :: _ =>
          exact Or.inr (Or.inr ⟨Option.some_ne_none _, rfl, _, rfl, rfl⟩)

/-- What a decoder makes of every last part: it throws on some and reports success on others. -/
structure Judges (decode : Decoder) (accepts faulty : Str → Prop) : Prop where
  throws : ∀ part tag epc, decode part tag epc = none ↔ faulty part
  succeeds : ∀ part tag epc, (∃ d, decode part tag epc = some d ∧ d.1 = true) ↔ accepts part

section Parser

variable {decode : Decoder} {accepts faulty : Str → Prop} (h : Judges decode accepts faulty)
  (response : Str) (tag : RfidTagData) (epc : Option RfidTagEPC) (code : Option Nat)

include h

/-- The parser throws where the content or the decoder does. -/
theorem Judges.parseTag_eq_none_iff :
    parseTag decode response tag epc code = none ↔
      getContent response = none ∨ ∃ part, lastPart response = some part ∧ faulty part := by
  obtain ⟨hcontent, -, hparse⟩ | ⟨part, stored, hpart, hparse⟩ |
      ⟨hcontent, hnone, answer, hparse, -⟩ := parseTag_cases decode response tag epc code
  · exact iff_of_true hparse (Or.inl hcontent)
  · have hcontent : getContent response ≠ none := by
      intro hnone
      rw [lastPart, hnone] at hpart
      exact absurd hpart.symm (Option.some_ne_none part)
    rw [hparse, Option.map_eq_none_iff, h.throws, hpart]
    simp [hcontent]
  · rw [hparse, hnone]
    simp [hcontent]

/-- The parser reports success where the decoder does. -/
theorem Judges.parseTag_succeeds_iff :
    (parseTag decode response tag epc code).map TagAnswer.fResult = some true ↔
      ∃ part, lastPart response = some part ∧ accepts part := by
  obtain ⟨-, hnone, hparse⟩ | ⟨part, stored, hpart, hparse⟩ | ⟨-, hnone, answer, hparse, hfalse⟩ :=
    parseTag_cases decode response tag epc code
  · simp [hparse, hnone]
  · rw [hparse, hpart, Option.map_map, Option.map_eq_some_iff]
    simp only [Option.some.injEq, exists_eq_left', ← h.succeeds part stored epc]
    rfl
  · simp [hparse, hnone, hfalse]

end Parser

/-- Data stand behind their letter; one character of another kind is cut short. -/
theorem judges_decodeBank (store : Str → RfidTagData → RfidTagData) :
    Judges (decodeBank store) (fun part => part.head? = some 'R')
      (fun part => part = [] ∨ ∃ ch, ch ≠ 'R' ∧ part = [ch]) := by
  constructor <;> intro part tag epc <;> cases part with
  | nil => simp [decodeBank]
  | cons ch rest =>
      by_cases hch : ch = 'R'
      · have hdata := substr_tail ch rest
        simp only [decodeBank, List.getElem?_cons_zero, Option.bind_eq_bind, Option.bind_some,
          if_pos hch, hdata]
        simp [hch]
      · simp only [decodeBank, List.getElem?_cons_zero, Option.bind_eq_bind, Option.bind_some,
          if_neg hch]
        cases rest <;> simp [hch]

/-- A decoder that goes on behind the letter of its command, and throws where what stands there is
not complete. -/
theorem judges_of_letter (command : Char) (decode go : Decoder) (complete : Str → Prop)
    (hnil : ∀ tag epc, decode [] tag epc = none)
    (hcons : ∀ ch rest tag epc, decode (ch :: rest) tag epc =
      if ch = command ∧ 1 < (ch :: rest).length then go (ch :: rest) tag epc
      else some (false, tag, epc, parseErrorCode ch))
    (hgo : ∀ rest tag epc,
      (complete (command :: rest) ∧ ∃ d, go (command :: rest) tag epc = some d ∧ d.1 = true) ∨
      (¬ complete (command :: rest) ∧ go (command :: rest) tag epc = none)) :
    Judges decode (fun part => part.head? = some command ∧ 1 < part.length ∧ complete part)
      (fun part => part = [] ∨
        (part.head? = some command ∧ 1 < part.length ∧ ¬ complete part)) := by
  constructor
  · intro part tag epc
    cases part with
    | nil => exact iff_of_true (hnil tag epc) (Or.inl rfl)
    | cons ch rest =>
        rw [hcons]
        split
        · rename_i hletter
          obtain ⟨rfl, hlen⟩ := hletter
          obtain ⟨hcomplete, d, hd, -⟩ | ⟨hcut, hnone⟩ := hgo rest tag epc
          · refine iff_of_false (by simp [hd]) ?_
            rintro (hempty | ⟨-, -, hcut⟩)
            · exact absurd hempty (List.cons_ne_nil ch rest)
            · exact hcut hcomplete
          · exact iff_of_true hnone (Or.inr ⟨rfl, hlen, hcut⟩)
        · rename_i hno
          refine iff_of_false (Option.some_ne_none _) ?_
          rintro (hempty | ⟨hch, hlen, -⟩)
          · exact absurd hempty (List.cons_ne_nil ch rest)
          · exact hno ⟨Option.some.inj hch, hlen⟩
  · intro part tag epc
    cases part with
    | nil => simp [hnil]
    | cons ch rest =>
        rw [hcons]
        split
        · rename_i hletter
          obtain ⟨rfl, hlen⟩ := hletter
          obtain ⟨hcomplete, hd⟩ | ⟨hcut, hnone⟩ := hgo rest tag epc
          · exact iff_of_true hd ⟨rfl, hlen, hcomplete⟩
          · exact iff_of_false (by simp [hnone]) fun h => hcut h.2.2
        · rename_i hno
          refine iff_of_false ?_ fun h => hno ⟨Option.some.inj h.1, h.2.1⟩
          rintro ⟨d, hd, hsuccess⟩
          obtain rfl := Option.some.inj hd
          exact absurd hsuccess Bool.false_ne_true

theorem storeTagEPC_eq_none_iff (s : Str) (tag : RfidTagData) (epc : Option RfidTagEPC) :
    storeTagEPC s tag epc = none ↔ s.length < 5 := by
  rw [← Option.not_isSome_iff_eq_none, storeTagEPC_isSome_iff, Nat.not_le]

/-- A tag's text has its letter and a protocol word; one with less of it is cut short. -/
theorem judges_decodeEPC (command : Char) :
    Judges (decodeEPC command) (fun part => part.head? = some command ∧ 5 ≤ part.length)
      (fun part => part = [] ∨
        (part.head? = some command ∧ 1 < part.length ∧ part.length < 5)) := by
  have h := judges_of_letter command (decodeEPC command)
    (fun part tag epc =>
      (storeTagEPC part tag epc).map fun stored => (true, stored.1, stored.2, errorRfidSuccess))
    (fun part => 5 ≤ part.length) (fun _ _ => rfl) ?_ ?_
  · constructor
    · intro part tag epc
      rw [h.throws, Nat.not_le]
    · intro part tag epc
      rw [h.succeeds]
      exact and_congr_right fun _ => ⟨And.right, fun hlen => ⟨by omega, hlen⟩⟩
  · intro ch rest tag epc
    simp only [decodeEPC, List.getElem?_cons_zero, Option.bind_eq_bind, Option.bind_some]
    congr 1
    exact Option.map_eq_bind.symm
  · intro rest tag epc
    rw [← storeTagEPC_isSome_iff _ tag epc]
    cases storeTagEPC (command :: rest) tag epc with
    | none => exact Or.inr ⟨Bool.false_ne_true, rfl⟩
    | some stored => exact Or.inl ⟨rfl, _, rfl, rfl⟩

/-- A field that the loop over the fields gets through. -/
def CompleteField (field : Str) : Prop :=
  field ≠ [] ∧ (field.head? = some 'Q' → 5 ≤ field.length)

/-- A turn of the loop reads a complete field and goes on, with success behind a tag, or throws. -/
theorem decodeFields_cons (store : Str → RfidTagData → RfidTagData) (field : Str)
    (aryTag : List Str) (decoded : Bool × RfidTagData × Option RfidTagEPC × Nat) :
    (CompleteField field ∧ ∃ next,
      decodeFields store (field :: aryTag) decoded = decodeFields store aryTag next ∧
        (decoded.1 = true ∨ field.head? = some 'Q' → next.1 = true)) ∨
    (¬ CompleteField field ∧ decodeFields store (field :: aryTag) decoded = none) := by
  obtain ⟨fResult, stTagData, pstTagEPC, uiErrorCode⟩ := decoded
  cases field with
  | nil => exact Or.inr ⟨fun h => h.1 rfl, rfl⟩
  | cons ch rest =>
      have hne : ch :: rest ≠ [] := List.cons_ne_nil ch rest
      by_cases hQ : ch = 'Q'
      · subst hQ
        cases hstored : storeTagEPC ('Q' :: rest) stTagData pstTagEPC with
        | none =>
            have hlen := (storeTagEPC_eq_none_iff _ _ _).mp hstored
            refine Or.inr ⟨fun h => absurd (h.2 rfl) (Nat.not_le.mpr hlen), ?_⟩
            simp [decodeFields, hstored]
        | some stored =>
            have hlen := (storeTagEPC_isSome_iff _ _ _).mp (Option.isSome_of_eq_some hstored)
            refine Or.inl ⟨⟨hne, fun _ => hlen⟩, (true, stored.1, stored.2, uiErrorCode), ?_,
              fun _ => rfl⟩
            simp [decodeFields, hstored]
      · have hcomplete : CompleteField (ch :: rest) :=
          ⟨hne, fun h => absurd (Option.some.inj h) hQ⟩
        by_cases hR : ch = 'R'
        · have hdata := substr_tail ch rest
          refine Or.inl ⟨hcomplete, (true, store rest stTagData, pstTagEPC, uiErrorCode), ?_,
            fun _ => rfl⟩
          simp only [decodeFields, List.getElem?_cons_zero, Option.bind_eq_bind, Option.bind_some,
            if_neg hQ, if_pos hR, hdata]
        · refine Or.inl ⟨hcomplete, (fResult, stTagData, pstTagEPC, parseErrorCode ch), ?_, ?_⟩
          · simp [decodeFields, hQ, hR]
          · exact fun h => h.resolve_right fun h => hQ (Option.some.inj h)

/-- The loop gets through its fields or throws at one that is cut short; a success stays one. -/
theorem decodeFields_spec (store : Str → RfidTagData → RfidTagData) (aryTag : List Str)
    (decoded : Bool × RfidTagData × Option RfidTagEPC × Nat) :
    ((∀ field ∈ aryTag, CompleteField field) ∧ ∃ d, decodeFields store aryTag decoded = some d ∧
      (decoded.1 = true ∨ (∃ field ∈ aryTag, field.head? = some 'Q') → d.1 = true)) ∨
    ((∃ field ∈ aryTag, ¬ CompleteField field) ∧ decodeFields store aryTag decoded = none) := by
  induction aryTag generalizing decoded with
  | nil => exact Or.inl ⟨fun _ h => absurd h List.not_mem_nil, decoded, rfl, by simp⟩
  | cons field aryTag ih =>
      obtain ⟨hfield, next, heq, hkeeps⟩ | ⟨hcut, hnone⟩ :=
        decodeFields_cons store field aryTag decoded
      · obtain ⟨hall, d, hd, hsuccess⟩ | ⟨⟨f, hf, hcut⟩, hnone⟩ := ih next
        · refine Or.inl ⟨List.forall_mem_cons.mpr ⟨hfield, hall⟩, d, heq.trans hd, ?_⟩
          rintro (hold | ⟨f, hf, hQ⟩)
          · exact hsuccess (Or.inl (hkeeps (Or.inl hold)))
          · obtain rfl | hlater := List.mem_cons.mp hf
            · exact hsuccess (Or.inl (hkeeps (Or.inr hQ)))
            · exact hsuccess (Or.inr ⟨f, hlater, hQ⟩)
        · exact Or.inr ⟨⟨f, List.mem_cons_of_mem _ hf, hcut⟩, heq.trans hnone⟩
      · exact Or.inr ⟨⟨field, List.mem_cons_self, hcut⟩, hnone⟩

/-- The first of the fields starts as the text does. -/
theorem exists_token_head {ch d : Char} (h : ch ≠ d) (rest : Str) :
    ∃ field ∈ token (ch :: rest) d, field.head? = some ch := by
  obtain ⟨field, fields, heq⟩ := List.exists_cons_of_ne_nil (List.splitOn_ne_nil d rest)
  rw [token_eq_splitOn, List.splitOn_cons_eq_if_modifyHead, if_neg (by simpa using h), heq]
  exact ⟨ch :: field, List.mem_cons_self, rfl⟩

/-- The reply starts with the letter of a tag, and every field of it is complete. -/
theorem judges_decodeEPCandData (store : Str → RfidTagData → RfidTagData) :
    Judges (decodeEPCandData store)
      (fun part => part.head? = some 'Q' ∧ 1 < part.length ∧
        ∀ field ∈ token part ',', CompleteField field)
      (fun part => part = [] ∨ (part.head? = some 'Q' ∧ 1 < part.length ∧
        ¬ ∀ field ∈ token part ',', CompleteField field)) := by
  refine judges_of_letter 'Q' _
    (fun part tag epc => decodeFields store (token part ',') (false, tag, epc, errorRfidSuccess))
    (fun part => ∀ field ∈ token part ',', CompleteField field) (fun _ _ => rfl)
    (fun _ _ _ _ => rfl) ?_
  intro rest tag epc
  obtain ⟨hall, d, hd, hsuccess⟩ | ⟨⟨field, hfield, hcut⟩, hnone⟩ := decodeFields_spec store
    (token ('Q' :: rest) ',') (false, tag, epc, errorRfidSuccess)
  · have hfirst := exists_token_head (show 'Q' ≠ ',' by decide) rest
    exact Or.inl ⟨hall, d, hd, hsuccess (Or.inr hfirst)⟩
  · exact Or.inr ⟨fun hall => hcut (hall field hfield), hnone⟩

theorem judges_decodeSession : Judges decodeSession (fun part => part = ['T'])
    (fun part => part = []) := by
  constructor <;> intro part tag epc <;> cases part with
  | nil => simp [decodeSession]
  | cons ch rest => simp [decodeSession]

/-- The functions that parse the reply of a tag. -/
inductive TagCommand where
  | bank (reader : BankReader) (uiStartAddress uiWordLength : Nat)
  | epcAndData (parser : EpcDataParser) (uiStartAddress uiWordLength : Nat)
  | singleEPC (fLoop : Bool)
  | multiEPC (nSlot : Int) (fLoop : Bool)
  | session (emSession emTarget : Int)

def EpcDataParser.call : EpcDataParser → Nat → Nat → RfidTagData → Option RfidTagEPC →
    Exchange (Option (Bool × RfidTagData × Option RfidTagEPC))
  | tid => readEPCandTID
  | userData => readEPCandUserData

def Exchange.map {α β : Type*} (f : α → β) : Exchange α → Exchange β
  | .done result => .done (f result)
  | .send uiCommandType szSend reply =>
      .send uiCommandType szSend fun nSend response => f (reply nSend response)

namespace TagCommand

/-- What the function returns. -/
def fResult (stTagData : RfidTagData) (pstTagEPC : Option RfidTagEPC) (puiErrorCode : Option Nat) :
    TagCommand → Exchange (Option Bool)
  | bank reader uiStartAddress uiWordLength =>
      (reader.call uiStartAddress uiWordLength stTagData puiErrorCode).map (Option.map Prod.fst)
  | epcAndData parser uiStartAddress uiWordLength =>
      (parser.call uiStartAddress uiWordLength stTagData pstTagEPC).map (Option.map Prod.fst)
  | singleEPC fLoop => readSingleTagEPC fLoop
  | multiEPC nSlot fLoop => readMultiTagEPC nSlot fLoop
  | session emSession emTarget => setSession emSession emTarget

/-- The function starts a loop, and looks at no response. -/
def looped : TagCommand → Bool
  | singleEPC fLoop | multiEPC _ fLoop => fLoop
  | _ => false

/-- The last part of the function's own reply. -/
def Accepts : TagCommand → Str → Prop
  | bank _ _ _, part => part.head? = some 'R'
  | epcAndData _ _ _, part =>
      part.head? = some 'Q' ∧ 1 < part.length ∧ ∀ field ∈ token part ',', CompleteField field
  | singleEPC _, part => part.head? = some 'Q' ∧ 5 ≤ part.length
  | multiEPC _ _, part => part.head? = some 'U' ∧ 5 ≤ part.length
  | session _ _, part => part = ['T']

/-- A last part that is cut short. -/
def Faulty : TagCommand → Str → Prop
  | bank _ _ _, part => part = [] ∨ ∃ ch, ch ≠ 'R' ∧ part = [ch]
  | epcAndData _ _ _, part => part = [] ∨ (part.head? = some 'Q' ∧ 1 < part.length ∧
      ¬ ∀ field ∈ token part ',', CompleteField field)
  | singleEPC _, part =>
      part = [] ∨ (part.head? = some 'Q' ∧ 1 < part.length ∧ part.length < 5)
  | multiEPC _ _, part =>
      part = [] ∨ (part.head? = some 'U' ∧ 1 < part.length ∧ part.length < 5)
  | session _ _, part => part = []

/-- The parser of the function throws on a response. -/
def Throws (command : TagCommand) (response : Str) : Prop :=
  getContent response = none ∨ ∃ part, lastPart response = some part ∧ command.Faulty part

/-- The parser of the function reports success on a response. -/
def Succeeds (command : TagCommand) (response : Str) : Prop :=
  ∃ part, lastPart response = some part ∧ command.Accepts part

end TagCommand

/-- A read sends nothing for a place out of range, or hands the response to its parser. -/
theorem readTag_cases (parse : Str → RfidTagData → Option Nat → Option TagAnswer) (lowest : Nat)
    (uiCommandType : Nat) (bank : Int) (uiStartAddress uiWordLength : Nat)
    (stTagData : RfidTagData) (puiErrorCode : Option Nat) :
    readTag parse lowest uiCommandType bank uiStartAddress uiWordLength stTagData puiErrorCode =
      .done (some (false, stTagData, puiErrorCode)) ∨
    ∃ szSend, readTag parse lowest uiCommandType bank uiStartAddress uiWordLength stTagData
      puiErrorCode = .send uiCommandType szSend fun _ response =>
        if response = [] then some (false, stTagData, puiErrorCode)
        else (parse response stTagData none).map fun a =>
          (a.fResult, a.stTagData, puiErrorCode) := by
  unfold readTag
  split
  · exact Or.inl rfl
  · split
    · exact Or.inl rfl
    · exact Or.inr ⟨_, rfl⟩

theorem readEPCandData_cases
    (parse : Str → RfidTagData → Option RfidTagEPC → Option Nat → Option TagAnswer)
    (uiCommandType : Nat) (bank : Int) (uiStartAddress uiWordLength : Nat)
    (stTagData : RfidTagData) (pstTagEPC : Option RfidTagEPC) :
    readEPCandData parse uiCommandType bank uiStartAddress uiWordLength stTagData pstTagEPC =
      .done (some (false, stTagData, pstTagEPC)) ∨
    ∃ szSend, readEPCandData parse uiCommandType bank uiStartAddress uiWordLength stTagData
      pstTagEPC = .send uiCommandType szSend fun _ response =>
        if response = [] then some (false, stTagData, pstTagEPC)
        else (parse response stTagData pstTagEPC none).map fun a =>
          (a.fResult, a.stTagData, a.pstTagEPC) := by
  unfold readEPCandData
  split
  · exact Or.inl rfl
  · split
    · exact Or.inl rfl
    · exact Or.inr ⟨_, rfl⟩

namespace TagCommand

variable (command : TagCommand) (stTagData : RfidTagData) (pstTagEPC : Option RfidTagEPC)
  (puiErrorCode : Option Nat)

theorem fResult_of_looped (hloop : command.looped = true) : ∃ uiCommandType szSend,
    command.fResult stTagData pstTagEPC puiErrorCode =
      .send uiCommandType szSend fun _ _ => some true := by
  cases command with
  | singleEPC fLoop =>
      obtain rfl : fLoop = true := hloop
      exact ⟨_, _, rfl⟩
  | multiEPC nSlot fLoop =>
      obtain rfl : fLoop = true := hloop
      exact ⟨_, _, rfl⟩
  | _ => exact absurd hloop Bool.false_ne_true

/-- A function without a loop sends nothing and returns `false`, or hands the response to the parser
of its own decoder. -/
theorem fResult_cases (hloop : command.looped = false) :
    command.fResult stTagData pstTagEPC puiErrorCode = .done (some false) ∨
    ∃ decode tag epc uiCommandType szSend, Judges decode command.Accepts command.Faulty ∧
      command.fResult stTagData pstTagEPC puiErrorCode =
        .send uiCommandType szSend fun _ response =>
          if response = [] then some false
          else (parseTag decode response tag epc none).map TagAnswer.fResult := by
  cases command with
  | bank reader uiStartAddress uiWordLength =>
      obtain ⟨lowest, uiCommandType, bank, hcall⟩ : ∃ lowest uiCommandType bank,
          reader.call = readTag reader.parser.parse lowest uiCommandType bank := by
        cases reader
        · exact ⟨_, _, _, rfl⟩
        · exact ⟨_, _, _, rfl⟩
        · exact ⟨_, _, _, rfl⟩
      have hparse : ∀ response, reader.parser.parse response stTagData none =
          parseTag (decodeBank reader.parser.stored) response stTagData none none := by
        cases reader <;> exact fun _ => rfl
      rw [fResult, hcall]
      obtain hdone | ⟨szSend, hsend⟩ := readTag_cases reader.parser.parse lowest uiCommandType bank
        uiStartAddress uiWordLength stTagData puiErrorCode
      · exact Or.inl (by rw [hdone, Exchange.map, Option.map_some])
      · refine Or.inr ⟨decodeBank reader.parser.stored, stTagData, none, uiCommandType, szSend,
          judges_decodeBank _, ?_⟩
        rw [hsend, Exchange.map]
        congr 1
        funext nSend response
        split
        · rfl
        · rw [hparse, Option.map_map]
          rfl
  | epcAndData parser uiStartAddress uiWordLength =>
      obtain ⟨uiCommandType, bank, hcall⟩ : ∃ uiCommandType bank,
          parser.call = readEPCandData parser.parse uiCommandType bank := by
        cases parser
        · exact ⟨_, _, rfl⟩
        · exact ⟨_, _, rfl⟩
      have hparse : ∀ response, parser.parse response stTagData pstTagEPC none =
          parseTag (decodeEPCandData parser.store) response stTagData pstTagEPC none := by
        cases parser <;> exact fun _ => rfl
      rw [fResult, hcall]
      obtain hdone | ⟨szSend, hsend⟩ := readEPCandData_cases parser.parse uiCommandType bank
        uiStartAddress uiWordLength stTagData pstTagEPC
      · exact Or.inl (by rw [hdone, Exchange.map, Option.map_some])
      · refine Or.inr ⟨decodeEPCandData parser.store, stTagData, pstTagEPC, uiCommandType, szSend,
          judges_decodeEPCandData _, ?_⟩
        rw [hsend, Exchange.map]
        congr 1
        funext nSend response
        split
        · rfl
        · rw [hparse, Option.map_map]
          rfl
  | singleEPC fLoop =>
      obtain rfl : fLoop = false := hloop
      exact Or.inr ⟨_, _, _, _, _, judges_decodeEPC 'Q', rfl⟩
  | multiEPC nSlot fLoop =>
      obtain rfl : fLoop = false := hloop
      exact Or.inr ⟨_, _, _, _, _, judges_decodeEPC 'U', rfl⟩
  | session emSession emTarget => exact Or.inr ⟨_, _, _, _, _, judges_decodeSession, rfl⟩

/-- What a function without a loop makes of every response. -/
theorem after_iff_of_once (hloop : command.looped = false) (nSend : Int) (response : Str) :
    ((command.fResult stTagData pstTagEPC puiErrorCode).after nSend response = none ↔
      (command.fResult stTagData pstTagEPC puiErrorCode).sent ≠ none ∧ response ≠ [] ∧
        command.Throws response) ∧
    ((command.fResult stTagData pstTagEPC puiErrorCode).after nSend response = some true ↔
      (command.fResult stTagData pstTagEPC puiErrorCode).sent ≠ none ∧
        command.Succeeds response) := by
  obtain hdone | ⟨decode, tag, epc, uiCommandType, szSend, hjudges, hsend⟩ :=
    command.fResult_cases stTagData pstTagEPC puiErrorCode hloop
  · rw [hdone]
    exact ⟨iff_of_false (Option.some_ne_none _) fun h => h.1 rfl,
      iff_of_false (by simp [Exchange.after]) fun h => h.1 rfl⟩
  · rw [hsend]
    simp only [Exchange.after, Exchange.sent, ne_eq, Option.some_ne_none, not_false_eq_true,
      true_and]
    by_cases hempty : response = []
    · rw [if_pos hempty]
      refine ⟨iff_of_false (Option.some_ne_none _) fun h => h.1 hempty,
        iff_of_false (by simp) ?_⟩
      rintro ⟨part, hpart, -⟩
      rw [hempty, lastPart_nil] at hpart
      exact absurd hpart.symm (Option.some_ne_none part)
    · rw [if_neg hempty]
      constructor
      · rw [Option.map_eq_none_iff, hjudges.parseTag_eq_none_iff]
        exact (and_iff_right hempty).symm
      · exact hjudges.parseTag_succeeds_iff response tag epc none

/-- What a function makes of every response. -/
theorem after_iff (nSend : Int) (response : Str) :
    ((command.fResult stTagData pstTagEPC puiErrorCode).after nSend response = none ↔
      (command.fResult stTagData pstTagEPC puiErrorCode).sent ≠ none ∧ command.looped = false ∧
        response ≠ [] ∧ command.Throws response) ∧
    ((command.fResult stTagData pstTagEPC puiErrorCode).after nSend response = some true ↔
      (command.fResult stTagData pstTagEPC puiErrorCode).sent ≠ none ∧
        (command.looped = true ∨ command.Succeeds response)) := by
  cases hloop : command.looped with
  | true =>
      obtain ⟨uiCommandType, szSend, hsend⟩ :=
        command.fResult_of_looped stTagData pstTagEPC puiErrorCode hloop
      rw [hsend]
      simp [Exchange.after, Exchange.sent]
  | false =>
      rw [and_iff_right rfl, or_iff_right Bool.false_ne_true]
      exact command.after_iff_of_once stTagData pstTagEPC puiErrorCode hloop nSend response

end TagCommand

section Runs

variable {ι κ : Type*} [DecidableEq ι] {cfg : Config ι Str} {c : ι}

omit [DecidableEq ι] in
/-- The response is the text of the last packet received. -/
theorem captured_send {uiCommandType : Nat} {lpBuf : Str} {t : Sys ι Str}
    (hcommand : cfg.command c = sendCommand uiCommandType lpBuf []) (ht : WellFormed cfg t) :
    (t.call c).captured =
      ((t.call c).delivered.getLast?.map PacketContent.toString).getD [] := by
  have hfinal : ∀ pkts, Judge.final (sendCommand uiCommandType lpBuf []).judge [] pkts =
      (pkts.getLast?.map PacketContent.toString).getD [] := by
    intro pkts
    induction pkts using List.reverseRecOn with
    | nil => rfl
    | append_singleton pkts pkt ih =>
        rw [Judge.final_snoc, sendCommand_judge, List.getLast?_concat]
        rfl
  rw [(ht.traced c).captured_eq, hcommand]
  exact hfinal _

/-- A packet that a call receives is a whole unit of the reader's stream. -/
theorem exists_unit_of_delivered {ρ : Type*} {cfg : Config ι ρ} {callback : Option κ}
    {units : List StreamUnit} {events : List (ReceivePath.Event ι)} {t : ReceivePath ι ρ κ}
    (hrun : exec (ReceivePath.step cfg) (ReceivePath.init cfg callback) events = some t)
    (hstream : (ReceivePath.chunks events).flatten <+: stream units) {pkt : PacketContent}
    (hpkt : pkt ∈ (t.sys.call c).delivered) : ∃ u ∈ units, u.bytes = pkt.vtBuffer := by
  have htype : pkt.packetType ≠ .heartBeat :=
    ReceivePath.not_heartBeat_receive ((ReceivePath.delivered_contiguous hrun c).subset hpkt)
  have htext : pkt.vtBuffer ∈ ReceivePath.texts pkt.packetType (t.sys.call c).delivered :=
    List.mem_filterMap.mpr ⟨pkt, hpkt, if_pos rfl⟩
  obtain ⟨u, hu, hbytes⟩ :=
    List.mem_map.mp ((ReceivePath.texts_infix_stream hrun hstream htype c).subset htext)
  exact ⟨u, List.mem_of_mem_filter hu, hbytes⟩

end Runs

/-- For every response a function that starts no loop throws exactly if it has sent its text, got a
response and this has no content or a last part cut short, and it reports success exactly on its own
replies; one that starts a loop reports success whatever it got. In every run the response of its
`Send` is the text of the last packet received, a whole unit of the stream. -/
theorem tag_commands_judge (command : TagCommand) (stTagData : RfidTagData)
    (pstTagEPC : Option RfidTagEPC) (puiErrorCode : Option Nat) :
    (∀ (nSend : Int) (response : Str),
      ((command.fResult stTagData pstTagEPC puiErrorCode).after nSend response = none ↔
        (command.fResult stTagData pstTagEPC puiErrorCode).sent ≠ none ∧ command.looped = false ∧
          response ≠ [] ∧ command.Throws response) ∧
      ((command.fResult stTagData pstTagEPC puiErrorCode).after nSend response = some true ↔
        (command.fResult stTagData pstTagEPC puiErrorCode).sent ≠ none ∧
          (command.looped = true ∨ command.Succeeds response))) ∧
    ∀ {ι κ : Type} [DecidableEq ι] (cfg : Config ι Str) (c : ι) (uiCommandType : Nat)
      (szSend : Str) (reply : Int → Str → Option Bool) (callback : Option κ)
      (units : List StreamUnit) (events : List (ReceivePath.Event ι)) (t : ReceivePath ι Str κ),
      command.fResult stTagData pstTagEPC puiErrorCode = .send uiCommandType szSend reply →
      cfg.command c = sendCommand uiCommandType szSend [] →
      exec (ReceivePath.step cfg) (ReceivePath.init cfg callback) events = some t →
      (ReceivePath.chunks events).flatten <+: stream units →
        ((t.sys.call c).captured = [] ∨ ∃ u ∈ units, (t.sys.call c).captured = trim u.bytes) ∧
        ∀ nSend, (reply nSend (t.sys.call c).captured = none ↔ command.looped = false ∧
          ∃ u ∈ units, (t.sys.call c).captured = trim u.bytes ∧ trim u.bytes ≠ [] ∧
            command.Throws (trim u.bytes)) := by
  refine ⟨command.after_iff stTagData pstTagEPC puiErrorCode, ?_⟩
  intro ι κ _ cfg c uiCommandType szSend reply callback units events t hsend hcommand hrun hstream
  obtain ⟨acts, h⟩ := ReceivePath.handedOn_of_exec hrun
  have hcaptured := captured_send hcommand (wellFormed_of_exec (wellFormed_init cfg) h.run)
  have hunit : (t.sys.call c).captured = [] ∨
      ∃ u ∈ units, (t.sys.call c).captured = trim u.bytes := by
    rw [hcaptured]
    cases hlast : (t.sys.call c).delivered.getLast? with
    | none => exact Or.inl rfl
    | some pkt =>
        obtain ⟨u, hu, hbytes⟩ :=
          exists_unit_of_delivered hrun hstream (List.mem_of_getLast? hlast)
        exact Or.inr ⟨u, hu, congrArg trim hbytes.symm⟩
  refine ⟨hunit, fun nSend => ?_⟩
  have hafter := (command.after_iff stTagData pstTagEPC puiErrorCode nSend
    (t.sys.call c).captured).1
  rw [hsend] at hafter
  refine hafter.trans ?_
  constructor
  · rintro ⟨-, honce, hne, hthrows⟩
    obtain hempty | ⟨u, hu, heq⟩ := hunit
    · exact absurd hempty hne
    · rw [heq] at hne hthrows
      exact ⟨honce, u, hu, heq, hne, hthrows⟩
  · rintro ⟨honce, u, -, heq, hne, hthrows⟩
    rw [heq]
    exact ⟨Option.some_ne_none _, honce, hne, hthrows⟩

/-- A read of the TID. -/
def tidCommand : TagCommand := .bank .tid 0 6

def tidQuery : Config Unit Str :=
  ⟨true, fun _ => sendCommand rfPtReqGetTagTid "\nR2,0,6\r".toList []⟩

/-- The tag's memory is overrun. -/
def errorBody : FrameBody where
  text := "@2021/04/15 11:22:27.944-Antenna1-3".toList
  no_lf := by decide
  no_cr := by decide
  no_stx := by decide
  no_heartbeat := by decide

def errorReplyEvents : List (ReceivePath.Event Unit) :=
  [.sender () .launch, .sender () .attach, .sender () (.send (.count 8)), .sender () .enterWait,
    .received errorBody.frame, .handOn, .sender () .leaveWait, .sender () .detach]

/-- The reply with the error code ends the read. -/
theorem tag_commands_judge_errorReply :
    ∃ szSend reply t,
      tidCommand.fResult unsetTag none none = .send rfPtReqGetTagTid szSend reply ∧
      exec (ReceivePath.step tidQuery) (ReceivePath.init tidQuery (none : Option Unit))
        errorReplyEvents = some t ∧
      reply 8 (t.sys.call ()).captured = none := by
  have hrun : (exec (ReceivePath.step tidQuery)
      (ReceivePath.init tidQuery (none : Option Unit)) errorReplyEvents).map
        (fun t => (t.sys.call ()).captured) = some (trim errorBody.frame) := by decide +kernel
  obtain ⟨t, ht, hcaptured⟩ := Option.map_eq_some_iff.mp hrun
  have hthrows : tidCommand.Throws (trim errorBody.frame) := by
    have hpart : lastPart (trim errorBody.frame) = some ['3'] := by decide +kernel
    exact Or.inr ⟨['3'], hpart, Or.inr ⟨'3', by decide, rfl⟩⟩
  refine ⟨_, _, t, rfl, ht, ?_⟩
  obtain ⟨-, hreply⟩ := (tag_commands_judge tidCommand unsetTag none none).2 tidQuery () _ _ _
    none [.frame errorBody] errorReplyEvents t rfl rfl ht (by decide +kernel)
  exact (hreply 8).mpr ⟨rfl, .frame errorBody, by simp, hcaptured, by decide, hthrows⟩

end RfidEngine.RfidInterface
