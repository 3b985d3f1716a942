import RfidEngine.RfidInterface.BankReplies

/-!
# RfidInterface: what the reader says of itself

`ParseVersion`, `ParseModuleVersion` and `ParseReaderID` take the versions and
the identifier of the reader from the first packet that comes in, whatever it
is. They index into the fields of it and into the fields' characters.

## Main results

The parsers return without an exception, and with `RFID_OK` or
`RFID_ERR_PARSE`, exactly on replies of their own format; the parser of the
identifier also on contents with fields of other letters only. The version is
stored with its command letter where the reply has no timestamp.
-/

namespace RfidEngine.RfidInterface

structure RfidReaderVersion where
  strFirmware : Str
  strHardware : Str
  strReaderId : Str
  strRfBandRegualation : Str
  strMessage : Str
  deriving DecidableEq

/-- The loop that looks for a field of a letter and takes the text behind it; `at` throws on an
empty field. -/
def fieldOfLetter (letter : Char) : List Str → Option (Option Str)
  | [] => some none
  | field :: fields => do
      if (← field[0]?) = letter then
        let text ← substr field 1 (sizeSub field.length 1)
        some (some text)
      else fieldOfLetter letter fields

/-- The firmware from the first field; without a timestamp the whole field is taken. -/
def parseFirmware (first : Str) (stVersion : RfidReaderVersion) : Option RfidReaderVersion := do
  if (← first[0]?) ≠ 'V' then
    let firmware ← fieldOfLetter 'V' (token first '-')
    some { stVersion with
      strFirmware := firmware.getD stVersion.strFirmware
      strMessage := first }
  else some { stVersion with strFirmware := first }

def parseVersion (lpBuffer : Str) (stVersion : RfidReaderVersion) :
    Option (Int × RfidReaderVersion) := do
  let strContent ← getContent lpBuffer
  let aryVersion := token strContent ','
  match aryVersion with
  | [] => some (rfidErrParse, stVersion)
  | first :: _ => do
      let stVersion ← parseFirmware first stVersion
      let strReaderId ← aryVersion[1]?
      let strHardware ← aryVersion[2]?
      let strRfBandRegualation ← aryVersion[3]?
      some (rfidOk, { stVersion with
        strReaderId := strReaderId
        strHardware := strHardware
        strRfBandRegualation := strRfBandRegualation })

/-- The result starts as what `GetContent` returned, `true`. -/
def parseModuleVersion (lpBuffer strVersion : Str) : Option (Int × Str) := do
  let strContent ← getContent lpBuffer
  if (← strContent[0]?) = 'V' then
    match token strContent ':' with
    | _ :: version :: _ => some (rfidOk, version)
    | _ => some (1, strVersion)
  else some (1, strVersion)

def parseReaderID (lpBuffer strID : Str) : Option (Int × Str) := do
  let strContent ← getContent lpBuffer
  if (← strContent[0]?) ≠ 'S' then
    match ← fieldOfLetter 'S' (token strContent '-') with
    | some text => some (rfidOk, text)
    | none => some (rfidErrParse, strID)
  else
    let text ← substr strContent 1 (sizeSub strContent.length 1)
    some (rfidOk, text)

def powerRangeTable : List (Str × Int × Int) :=
  [(['C', '2'], -2, 18), (['D', '2'], -2, 25), (['D', '3'], 0, 27), (['D', '4'], 2, 29)]

def defaultSetPowerValue : Int := 10

/-- The lower bound is computed and then overwritten. -/
def regulatePower (strFirmware : Str) (nPower : Int) : Int :=
  match powerRangeTable.lookup (strFirmware.take 2) with
  | some range => min nPower range.2
  | none => defaultSetPowerValue

/-- The content of a response, which is empty where `GetContent` throws. -/
def contentOf (response : Str) : Str :=
  match line (cStr response) with
  | [] => []
  | ch :: rest => if ch = '@' then rest else ch :: rest

/-- A text without a delimiter of the replies and without a line end. -/
abbrev FieldText := {w : Str // ∀ ch ∈ w, ch ≠ ',' ∧ ch ≠ '-' ∧ isDot ch = true}

/-- What stands in front of a reply: a timestamp, which starts with a digit, and an antenna. -/
structure StampedHead where
  digit : Char
  digit_digit : isDigit digit = true
  time : Str
  time_plain : ∀ ch ∈ time, ch ≠ '-' ∧ ch ≠ ','
  antenna : DecimalText

namespace StampedHead

/-- `<timestamp>-Antenna<antenna>-<part>` -/
def content (h : StampedHead) (part : Str) : Str :=
  (h.digit :: h.time) ++ '-' :: ((textRfidAntenna ++ h.antenna) ++ '-' :: part)

end StampedHead

/-- The texts of a reply with the reader's version. -/
structure VersionFields where
  firmware : FieldText
  firmware_ne_nil : (firmware : Str) ≠ []
  readerId : FieldText
  hardware : FieldText
  band : FieldText

/-- `V<firmware>,<reader id>,<hardware>,<band>` -/
def VersionFields.text (v : VersionFields) : Str :=
  ('V' :: (v.firmware : Str)) ++ ',' :: (v.readerId ++ ',' :: (v.hardware ++ ',' :: v.band))

/-- The fields of a version are those of a reply. -/
structure VersionFields.StoredIn (v : VersionFields) (stVersion : RfidReaderVersion) : Prop where
  firmware : stVersion.strFirmware = v.firmware
  readerId : stVersion.strReaderId = v.readerId
  hardware : stVersion.strHardware = v.hardware
  band : stVersion.strRfBandRegualation = v.band

/-- The version of a reply of one of the two layouts. -/
def VersionOf (response : Str) (stVersion : RfidReaderVersion) : Prop :=
  ∃ v : VersionFields, v.StoredIn stVersion ∧
    ((∃ h : StampedHead, contentOf response = h.content v.text) ∨ contentOf response = v.text)

/-- The version of a reply `Version:<version>`. -/
def ModuleVersionOf (response version : Str) : Prop :=
  contentOf response = "Version:".toList ++ version ∧
    ∀ ch ∈ version, ch ≠ ':' ∧ isDot ch = true

/-- The identifier of a reply `S<identifier>`, with a timestamp or without. -/
def ReaderIdOf (response : Str) (id : Str) : Prop :=
  (∀ ch ∈ id, ch ≠ '-' ∧ isDot ch = true) ∧
    ((∃ h : StampedHead, contentOf response = h.content ('S' :: id)) ∨
      contentOf response = 'S' :: id)

/-- The parser returns, with `RFID_OK` and what it was to extract or with `RFID_ERR_PARSE` and the
output as it was. -/
def TotalAtomic {ω : Type*} (parsed : Option (Int × ω)) (old : ω) (Extracts : ω → Prop) : Prop :=
  ∃ ret new, parsed = some (ret, new) ∧
    ((ret = rfidOk ∧ Extracts new) ∨ (ret = rfidErrParse ∧ new = old))

theorem getContent_of_content {response : Str} (h : contentOf response ≠ []) :
    getContent response = some (contentOf response) := by
  rw [getContent_eq]
  unfold contentOf at h ⊢
  cases hline : line (cStr response) with
  | nil =>
      rw [hline] at h
      exact absurd rfl h
  | cons ch rest => rfl

/-- On an empty content `GetContent` throws, or what comes next does. -/
theorem getContent_bind_of_nil {α : Type*} {response : Str} (h : contentOf response = [])
    {next : Str → Option α} (hnext : next [] = none) : (getContent response).bind next = none := by
  rw [getContent_eq]
  unfold contentOf at h
  cases hline : line (cStr response) with
  | nil => rfl
  | cons ch rest =>
      rw [hline] at h
      simp only at h
      rw [Option.bind_some, h]
      exact hnext

/-- A field of another letter is passed over. -/
theorem fieldOfLetter_cons_of_ne {letter ch : Char} (h : ch ≠ letter) (text : Str)
    (fields : List Str) :
    fieldOfLetter letter ((ch :: text) :: fields) = fieldOfLetter letter fields := by
  rw [fieldOfLetter]
  simp only [List.getElem?_cons_zero, Option.bind_eq_bind, Option.bind_some, if_neg h]

theorem fieldOfLetter_cons_self (letter : Char) (text : Str) (fields : List Str) :
    fieldOfLetter letter ((letter :: text) :: fields) = some (some text) := by
  have htail := substr_tail letter text
  rw [fieldOfLetter]
  simp only [List.getElem?_cons_zero, Option.bind_eq_bind, Option.bind_some, if_true, htail]

/-- The loop ends without a field exactly when there is none of the letter and none is empty. -/
theorem fieldOfLetter_eq_none_iff (letter : Char) (fields : List Str) :
    fieldOfLetter letter fields = some none ↔
      ∀ field ∈ fields, field ≠ [] ∧ field.head? ≠ some letter := by
  induction fields with
  | nil => simp [fieldOfLetter]
  | cons field fields ih =>
      rw [List.forall_mem_cons]
      cases field with
      | nil => simp [fieldOfLetter]
      | cons ch text =>
          by_cases hch : ch = letter
          · subst hch
            rw [fieldOfLetter_cons_self]
            simp
          · rw [fieldOfLetter_cons_of_ne hch, ih]
            simp [hch]

namespace StampedHead

theorem digit_ne (h : StampedHead) {ch : Char} (hch : isDigit ch = false) : h.digit ≠ ch :=
  ne_of_class h.digit_digit hch

/-- The field of the command's letter is found behind timestamp and antenna. -/
theorem fieldOfLetter_content (h : StampedHead) (letter : Char) (text : Str)
    (hletter : isDigit letter = false) (hA : letter ≠ 'A') (hdash : letter ≠ '-')
    (htext : '-' ∉ text) :
    fieldOfLetter letter (token (h.content (letter :: text)) '-') = some (some text) := by
  have htime : '-' ∉ h.digit :: h.time := by
    rw [List.mem_cons, not_or]
    exact ⟨(h.digit_ne rfl).symm, fun hmem => (h.time_plain _ hmem).1 rfl⟩
  have hantenna : '-' ∉ textRfidAntenna ++ (h.antenna : Str) := by
    rw [List.mem_append, not_or]
    exact ⟨by decide, h.antenna.not_mem rfl⟩
  have hpart : '-' ∉ letter :: text := by
    rw [List.mem_cons, not_or]
    exact ⟨hdash.symm, htext⟩
  have hsplit := Fields.splitOn_eq_triple_iff.mpr
    (⟨rfl, htime, hantenna, hpart⟩ : h.content (letter :: text) = _ ∧ _ ∧ _ ∧ _)
  have hcons : textRfidAntenna ++ (h.antenna : Str) = 'A' :: ("ntenna".toList ++ h.antenna) := rfl
  rw [token_eq_splitOn, hsplit, fieldOfLetter_cons_of_ne (h.digit_ne hletter), hcons,
    fieldOfLetter_cons_of_ne hA.symm, fieldOfLetter_cons_self]

end StampedHead

theorem parseReaderID_of_content {response : Str} (h : contentOf response ≠ []) (old : Str) :
    parseReaderID response old =
      if (contentOf response).head? = some 'S' then some (rfidOk, (contentOf response).tail)
      else (fieldOfLetter 'S' (token (contentOf response) '-')).map fun
        | some text => (rfidOk, text)
        | none => (rfidErrParse, old) := by
  rw [parseReaderID, getContent_of_content h]
  cases hcontent : contentOf response with
  | nil => exact absurd hcontent h
  | cons ch rest =>
      simp only [Option.bind_eq_bind, Option.bind_some, List.getElem?_cons_zero, List.head?_cons,
        Option.some.injEq, List.tail_cons]
      by_cases hch : ch = 'S'
      · have htail := substr_tail ch rest
        rw [if_neg (fun hne => hne hch), if_pos hch, htail]
        rfl
      · rw [if_pos hch, if_neg hch]
        cases fieldOfLetter 'S' (token (ch :: rest) '-') with
        | none => rfl
        | some found => cases found <;> rfl

theorem parseReaderID_of_nil {response : Str} (h : contentOf response = []) (old : Str) :
    parseReaderID response old = none :=
  getContent_bind_of_nil h rfl

theorem rfidOk_ne_rfidErrParse : rfidOk ≠ rfidErrParse := by decide

/-- A parser that returns `RFID_OK` is sound exactly when it extracted what it stored. -/
theorem totalAtomic_ok_iff {ω : Type*} {new old : ω} {Extracts : ω → Prop} :
    TotalAtomic (some (rfidOk, new)) old Extracts ↔ Extracts new := by
  constructor
  · rintro ⟨ret, stored, heq, ⟨-, hextracts⟩ | ⟨hret, -⟩⟩
    · obtain ⟨-, rfl⟩ := Prod.mk.inj (Option.some.inj heq)
      exact hextracts
    · obtain ⟨rfl, -⟩ := Prod.mk.inj (Option.some.inj heq)
      exact absurd hret rfidOk_ne_rfidErrParse
  · exact fun h => ⟨rfidOk, new, rfl, Or.inl ⟨rfl, h⟩⟩

theorem not_totalAtomic_none {ω : Type*} {old : ω} {Extracts : ω → Prop} :
    ¬ TotalAtomic none old Extracts := by
  rintro ⟨ret, new, heq, -⟩
  exact absurd heq.symm (Option.some_ne_none _)

theorem StampedHead.content_head (h : StampedHead) (part : Str) :
    (h.content part).head? = some h.digit := rfl

theorem ReaderIdOf.eq_tail {response id : Str} (h : ReaderIdOf response id)
    (hS : (contentOf response).head? = some 'S') : id = (contentOf response).tail := by
  obtain ⟨-, ⟨head, hcontent⟩ | hcontent⟩ := h
  · rw [hcontent, head.content_head] at hS
    exact absurd (Option.some.inj hS) (head.digit_ne rfl)
  · rw [hcontent, List.tail_cons]

/-- The first field starts as the text does. -/
theorem exists_field_head {ch : Char} (hch : ch ≠ '-') (rest : Str) :
    ∃ field ∈ (ch :: rest).splitOn '-', field.head? = some ch := by
  obtain ⟨first, fields, heq⟩ := List.exists_cons_of_ne_nil (List.splitOn_ne_nil '-' rest)
  refine ⟨ch :: first, ?_, rfl⟩
  rw [List.splitOn_cons_eq_if_modifyHead, if_neg (by simpa using hch), heq, List.modifyHead_cons]
  exact List.mem_cons_self

/-- The parser of the identifier is sound exactly on its replies and on contents whose fields are
not empty and start with other letters. -/
theorem readerID_totalAtomic_iff (response old : Str) :
    TotalAtomic (parseReaderID response old) old (ReaderIdOf response) ↔
      (∃ id, ReaderIdOf response id) ∨
        ∀ field ∈ (contentOf response).splitOn '-', field ≠ [] ∧ field.head? ≠ some 'S' := by
  by_cases hnil : contentOf response = []
  · rw [parseReaderID_of_nil hnil]
    refine iff_of_false not_totalAtomic_none ?_
    rintro (⟨id, -, ⟨head, hcontent⟩ | hcontent⟩ | hfields)
    · exact absurd (hnil.symm.trans hcontent) (List.cons_ne_nil _ _).symm
    · exact absurd (hnil.symm.trans hcontent) (List.cons_ne_nil _ _).symm
    · rw [hnil] at hfields
      exact absurd rfl (hfields [] (by simp)).1
  rw [parseReaderID_of_content hnil]
  by_cases hS : (contentOf response).head? = some 'S'
  · rw [if_pos hS, totalAtomic_ok_iff]
    constructor
    · exact fun h => Or.inl ⟨_, h⟩
    · rintro (⟨id, hid⟩ | hfields)
      · exact hid.eq_tail hS ▸ hid
      · obtain ⟨rest, hcontent⟩ : ∃ rest, contentOf response = 'S' :: rest :=
          ⟨_, List.eq_cons_of_mem_head? hS⟩
        rw [hcontent] at hfields
        obtain ⟨field, hmem, hhead⟩ := exists_field_head (by decide : 'S' ≠ '-') rest
        exact absurd hhead (hfields field hmem).2
  · rw [if_neg hS, ← fieldOfLetter_eq_none_iff, ← token_eq_splitOn]
    constructor
    · intro h
      cases hfound : fieldOfLetter 'S' (token (contentOf response) '-') with
      | none =>
          rw [hfound] at h
          exact absurd h not_totalAtomic_none
      | some found =>
          cases found with
          | none => exact Or.inr rfl
          | some text =>
              rw [hfound] at h
              exact Or.inl ⟨text, totalAtomic_ok_iff.mp h⟩
    · rintro (⟨id, hid⟩ | hfound)
      · have hextracts := hid
        obtain ⟨htext, ⟨head, hcontent⟩ | hcontent⟩ := hid
        · have hfound := head.fieldOfLetter_content 'S' id rfl (by decide)
            (by decide) fun hmem => (htext _ hmem).1 rfl
          rw [hcontent, hfound]
          exact totalAtomic_ok_iff.mpr hextracts
        · rw [hcontent] at hS
          exact absurd rfl hS
      · rw [hfound]
        exact ⟨rfidErrParse, old, rfl, Or.inr ⟨rfl, rfl⟩⟩

theorem not_totalAtomic_one {ω : Type*} {old : ω} {Extracts : ω → Prop} :
    ¬ TotalAtomic (some (1, old)) old Extracts := by
  rintro ⟨ret, new, heq, hret⟩
  obtain ⟨rfl, -⟩ := Prod.mk.inj (Option.some.inj heq)
  obtain ⟨hret, -⟩ | ⟨hret, -⟩ := hret
  · exact absurd hret (by decide)
  · exact absurd hret (by decide)

/-- The parser of the module's version is sound exactly on its replies: a refusal has a code of
its own. -/
theorem moduleVersion_totalAtomic_iff (response old : Str) :
    TotalAtomic (parseModuleVersion response old) old (ModuleVersionOf response) ↔
      ∃ version, ModuleVersionOf response version := by
  by_cases hnil : contentOf response = []
  · have hnone : parseModuleVersion response old = none := getContent_bind_of_nil hnil rfl
    rw [hnone]
    refine iff_of_false not_totalAtomic_none ?_
    rintro ⟨version, hcontent, -⟩
    exact absurd (hnil.symm.trans hcontent) (List.cons_ne_nil _ _).symm
  · obtain ⟨ch, rest, hcontent⟩ := List.exists_cons_of_ne_nil hnil
    rw [parseModuleVersion, getContent_of_content hnil, hcontent]
    simp only [Option.bind_eq_bind, Option.bind_some, List.getElem?_cons_zero]
    by_cases hch : ch = 'V'
    · rw [if_pos hch, token_eq_splitOn]
      constructor
      · intro h
        split at h
        · exact ⟨_, totalAtomic_ok_iff.mp h⟩
        · exact absurd h not_totalAtomic_one
      · rintro ⟨version, hversion⟩
        have hplain : ':' ∉ version := fun hmem => (hversion.2 _ hmem).1 rfl
        have hsplit : (ch :: rest).splitOn ':' = ["Version".toList, version] :=
          Fields.splitOn_eq_pair_iff.mpr
            ⟨hcontent.symm.trans hversion.1, by decide, hplain⟩
        rw [hsplit]
        exact totalAtomic_ok_iff.mpr hversion
    · rw [if_neg hch]
      refine iff_of_false not_totalAtomic_one ?_
      rintro ⟨version, hversion, -⟩
      exact hch (List.cons.inj (hcontent.symm.trans hversion)).1

/-- A parser of the version that returns has stored the first four fields. -/
theorem parseVersion_eq_some {response : Str} {old new : RfidReaderVersion} {ret : Int}
    (h : parseVersion response old = some (ret, new)) :
    ret = rfidOk ∧ ∃ strContent first second fields version,
      getContent response = some strContent ∧
      strContent.splitOn ',' = first :: second :: fields ∧
      parseFirmware first old = some version ∧ new.strFirmware = version.strFirmware := by
  obtain ⟨strContent, hget, h⟩ := Option.bind_eq_some_iff.mp h
  simp only [token_eq_splitOn] at h
  cases hsplit : strContent.splitOn ',' with
  | nil => exact absurd hsplit (List.splitOn_ne_nil _ _)
  | cons first fields =>
      rw [hsplit] at h
      obtain ⟨version, hversion, h⟩ := Option.bind_eq_some_iff.mp h
      obtain ⟨strReaderId, hid, h⟩ := Option.bind_eq_some_iff.mp h
      obtain ⟨strHardware, -, h⟩ := Option.bind_eq_some_iff.mp h
      obtain ⟨strRfBandRegualation, -, h⟩ := Option.bind_eq_some_iff.mp h
      obtain ⟨rfl, rfl⟩ := Prod.mk.inj (Option.some.inj h)
      cases fields with
      | nil => exact absurd hid.symm (Option.some_ne_none _)
      | cons second fields =>
          exact ⟨rfl, strContent, first, second, fields, version, hget, hsplit, hversion, rfl⟩

namespace VersionFields

variable (v : VersionFields)

theorem not_mem_comma (w : FieldText) : ',' ∉ (w : Str) := fun h => (w.2 _ h).1 rfl

theorem not_mem_dash (w : FieldText) : '-' ∉ (w : Str) := fun h => (w.2 _ h).2.1 rfl

/-- What a version is with the fields behind the first one stored. -/
def stored (stVersion : RfidReaderVersion) : RfidReaderVersion :=
  { stVersion with
    strReaderId := v.readerId
    strHardware := v.hardware
    strRfBandRegualation := v.band }

/-- Four fields are stored in turn, the first by way of the firmware. -/
theorem parseVersion_of_content {response first : Str} (hfirst : ',' ∉ first)
    (hcontent : contentOf response =
      first ++ ',' :: (v.readerId ++ ',' :: (v.hardware ++ ',' :: v.band)))
    (old : RfidReaderVersion) :
    parseVersion response old =
      (parseFirmware first old).map fun version => (rfidOk, v.stored version) := by
  have hne : contentOf response ≠ [] := by
    rw [hcontent]
    simp
  have hsplit : (contentOf response).splitOn ',' = [first, v.readerId, v.hardware, v.band] := by
    refine Fields.splitOn_eq_iff.mpr ⟨List.cons_ne_nil _ _, ?_, ?_⟩
    · simp only [List.forall_mem_cons, List.not_mem_nil, false_implies, implies_true, and_true]
      exact ⟨hfirst, not_mem_comma _, not_mem_comma _, not_mem_comma _⟩
    · rw [hcontent]
      simp
  rw [parseVersion, getContent_of_content hne]
  simp only [Option.bind_eq_bind, Option.bind_some, token_eq_splitOn, hsplit]
  cases parseFirmware first old <;> rfl

/-- Behind a timestamp the firmware is stored without its letter. -/
theorem parseFirmware_stamped (h : StampedHead) (old : RfidReaderVersion) :
    parseFirmware (h.content ('V' :: v.firmware)) old = some { old with
      strFirmware := v.firmware
      strMessage := h.content ('V' :: v.firmware) } := by
  have hfound := h.fieldOfLetter_content 'V' v.firmware rfl (by decide)
    (by decide) (not_mem_dash _)
  have hdigit : (h.content ('V' :: (v.firmware : Str)))[0]? = some h.digit := rfl
  have hV : h.digit ≠ 'V' := h.digit_ne rfl
  rw [parseFirmware, hdigit]
  simp only [Option.bind_eq_bind, Option.bind_some, if_pos hV, hfound, Option.getD_some]

/-- Without a timestamp it is stored with it. -/
theorem parseFirmware_plain (old : RfidReaderVersion) :
    parseFirmware ('V' :: v.firmware) old =
      some { old with strFirmware := 'V' :: v.firmware } := by
  rw [parseFirmware]
  simp only [List.getElem?_cons_zero, Option.bind_eq_bind, Option.bind_some, ne_eq,
    not_true_eq_false, if_false]

theorem content_text (h : StampedHead) : h.content v.text = h.content ('V' :: v.firmware) ++
    ',' :: (v.readerId ++ ',' :: (v.hardware ++ ',' :: v.band)) := by
  simp [StampedHead.content, VersionFields.text]

theorem stamped_not_mem_comma (h : StampedHead) : ',' ∉ h.content ('V' :: v.firmware) := by
  simp only [StampedHead.content, List.mem_append, List.mem_cons, not_or]
  exact ⟨⟨(h.digit_ne rfl).symm, fun hmem => (h.time_plain _ hmem).2 rfl⟩, by decide,
    ⟨by decide, h.antenna.not_mem rfl⟩, by decide, by decide, not_mem_comma _⟩

end VersionFields

/-- The parser of the version is sound exactly on replies with a timestamp. -/
theorem version_totalAtomic_iff (response : Str) (old : RfidReaderVersion) :
    TotalAtomic (parseVersion response old) old (VersionOf response) ↔
      ∃ (h : StampedHead) (v : VersionFields), contentOf response = h.content v.text := by
  constructor
  · rintro ⟨ret, new, hparse, ⟨-, v, hstored, ⟨h, hcontent⟩ | hcontent⟩ | ⟨hret, -⟩⟩
    · exact ⟨h, v, hcontent⟩
    · have hfirst : ',' ∉ 'V' :: (v.firmware : Str) := by
        rw [List.mem_cons, not_or]
        exact ⟨by decide, VersionFields.not_mem_comma _⟩
      rw [v.parseVersion_of_content hfirst hcontent, v.parseFirmware_plain] at hparse
      obtain ⟨-, rfl⟩ := Prod.mk.inj (Option.some.inj hparse)
      exact absurd hstored.firmware (List.cons_ne_self _ _)
    · exact absurd ((parseVersion_eq_some hparse).1.symm.trans hret) rfidOk_ne_rfidErrParse
  · rintro ⟨h, v, hcontent⟩
    have hparse := v.parseVersion_of_content (v.stamped_not_mem_comma h)
      (hcontent.trans (v.content_text h)) old
    rw [hparse, v.parseFirmware_stamped h]
    exact totalAtomic_ok_iff.mpr ⟨v, ⟨rfl, rfl, rfl, rfl⟩, Or.inl ⟨h, hcontent⟩⟩

/-- The three parsers are total and atomic exactly on these responses. -/
theorem identification_totalAtomic_iff (response : Str) (version : RfidReaderVersion)
    (text : Str) :
    (TotalAtomic (parseVersion response version) version (VersionOf response) ↔
      ∃ (h : StampedHead) (v : VersionFields), contentOf response = h.content v.text) ∧
    (TotalAtomic (parseModuleVersion response text) text (ModuleVersionOf response) ↔
      ∃ new, ModuleVersionOf response new) ∧
    (TotalAtomic (parseReaderID response text) text (ReaderIdOf response) ↔
      (∃ id, ReaderIdOf response id) ∨
        ∀ field ∈ (contentOf response).splitOn '-', field ≠ [] ∧ field.head? ≠ some 'S') :=
  ⟨version_totalAtomic_iff response version, moduleVersion_totalAtomic_iff response text,
    readerID_totalAtomic_iff response text⟩

/-- The end of a loop read throws in the parser of the version, and the parsers of the module's
version and the identifier return a code of their own, or throw at a field without a text. -/
theorem end_packet_unsound :
    (∀ old, parseVersion "@END".toList old = none) ∧
      (∀ old, parseModuleVersion "@END".toList old = some (1, old)) ∧
      (∀ old, parseReaderID "@--".toList old = none) ∧
      ¬ ∀ (response : Str), response ≠ [] → ∀ (version : RfidReaderVersion) (text : Str),
        TotalAtomic (parseVersion response version) version (VersionOf response) ∧
          TotalAtomic (parseModuleVersion response text) text (ModuleVersionOf response) ∧
          TotalAtomic (parseReaderID response text) text (ReaderIdOf response) := by
  have hversion : ∀ old, parseVersion "@END".toList old = none := fun _ => rfl
  refine ⟨hversion, fun _ => rfl, fun _ => rfl, fun hall => ?_⟩
  have hsound := (hall "@END".toList (by decide) ⟨[], [], [], [], []⟩ []).1
  rw [hversion] at hsound
  exact not_totalAtomic_none hsound

/-- Both layouts of a version are read, with the same fields, of which the firmware is that of the
reply, so that the power is regulated alike. -/
def LayoutsAgree (h : StampedHead) (v : VersionFields) (old₁ old₂ : RfidReaderVersion) : Prop :=
  ∃ new₁ new₂, parseVersion ('@' :: h.content v.text) old₁ = some (rfidOk, new₁) ∧
    parseVersion v.text old₂ = some (rfidOk, new₂) ∧
    v.StoredIn new₁ ∧ v.StoredIn new₂ ∧
    ∀ nPower, regulatePower new₁.strFirmware nPower = regulatePower new₂.strFirmware nPower

theorem VersionFields.text_isDot (v : VersionFields) : ∀ ch ∈ v.text, isDot ch = true := by
  have hfield : ∀ (w : FieldText), ∀ ch ∈ (w : Str), isDot ch = true :=
    fun w ch hch => (w.2 ch hch).2.2
  simp only [VersionFields.text, List.forall_mem_append, List.forall_mem_cons]
  exact ⟨⟨rfl, hfield _⟩, rfl, hfield _, rfl, hfield _, rfl, hfield _⟩

/-- The first field of a text is the first field of whatever goes on behind its delimiter. -/
theorem first_field_unique {first w rest' : Str} (hfirst : ',' ∉ first) (hw : ',' ∉ w)
    (rest : Str) (h : first ++ ',' :: rest = w ++ ',' :: rest') : first = w := by
  have hsplit := congrArg (List.splitOn ',') h
  rw [List.splitOn_append_cons_self_of_not_mem hfirst,
    List.splitOn_append_cons_self_of_not_mem hw] at hsplit
  exact (List.cons.inj hsplit).1

/-- Whatever is stored of a reply without a timestamp has the firmware with its letter. -/
theorem plain_strFirmware (v : VersionFields) {old new : RfidReaderVersion} {ret : Int}
    (h : parseVersion v.text old = some (ret, new)) : new.strFirmware = 'V' :: v.firmware := by
  obtain ⟨-, strContent, first, second, fields, version, hget, hsplit, hversion, hnew⟩ :=
    parseVersion_eq_some h
  obtain ⟨-, hfree, hjoin⟩ := Fields.splitOn_eq_iff.mp hsplit
  have hpart : cStr v.text <+: v.text := List.takeWhile_prefix _
  have hcontent : strContent = cStr v.text := by
    have hdot : ∀ ch ∈ cStr v.text, isDot ch = true :=
      fun ch hch => v.text_isDot ch (hpart.subset hch)
    have hcons : ∃ rest, cStr v.text = 'V' :: rest := ⟨_, rfl⟩
    rw [getContent_eq, line_eq_self hdot] at hget
    obtain ⟨rest, hrest⟩ := hcons
    rw [hrest] at hget ⊢
    exact (Option.some.inj hget).symm
  -- The text may go on behind what is left of it in front of a zero.
  obtain ⟨behind, hbehind⟩ := hpart
  have hV : ',' ∉ 'V' :: (v.firmware : Str) := by
    rw [List.mem_cons, not_or]
    exact ⟨by decide, VersionFields.not_mem_comma _⟩
  have hfirst : first = 'V' :: v.firmware := by
    apply first_field_unique (hfree first List.mem_cons_self) hV
      ([','].intercalate (second :: fields) ++ behind)
    calc
      first ++ ',' :: ([','].intercalate (second :: fields) ++ behind)
          = [','].intercalate (first :: second :: fields) ++ behind := by
        rw [List.intercalate_cons_cons]
        simp
      _ = v.text := by rw [hjoin, hcontent, hbehind]
  rw [hfirst, v.parseFirmware_plain] at hversion
  rw [hnew, ← Option.some.inj hversion]

/-- The layouts never agree: without a timestamp the firmware is stored with its letter. -/
theorem version_layouts_differ (h : StampedHead) (v : VersionFields)
    (old₁ old₂ : RfidReaderVersion) : ¬ LayoutsAgree h v old₁ old₂ := by
  rintro ⟨new₁, new₂, -, hparse, -, hstored, -⟩
  have hletter := plain_strFirmware v hparse
  rw [hstored.firmware] at hletter
  exact absurd hletter.symm (List.cons_ne_self _ _)

/-- The firmware of a reply without a timestamp is in no row of the table. -/
theorem regulatePower_of_letter (firmware : Str) (nPower : Int) :
    regulatePower ('V' :: firmware) nPower = defaultSetPowerValue := by
  have hlookup : powerRangeTable.lookup (('V' :: firmware).take 2) = none := by
    cases firmware <;> rfl
  rw [regulatePower, hlookup]

theorem plain_of_not_mem {w : Str} (hdash : '-' ∉ w) (hcomma : ',' ∉ w) :
    ∀ ch ∈ w, ch ≠ '-' ∧ ch ≠ ',' :=
  fun _ hch => ⟨ne_of_mem_of_not_mem hch hdash, ne_of_mem_of_not_mem hch hcomma⟩

/-- A text with its delimiters ruled out. -/
def FieldText.mk (w : Str) (hcomma : ',' ∉ w) (hdash : '-' ∉ w) (hdot : w.all isDot = true) :
    FieldText :=
  ⟨w, fun ch hch => ⟨ne_of_mem_of_not_mem hch hcomma, ne_of_mem_of_not_mem hch hdash,
    List.all_eq_true.mp hdot ch hch⟩⟩

def sampleStampedHead : StampedHead where
  digit := '2'
  digit_digit := rfl
  time := "017/11/16 14:13:59.123".toList
  time_plain := plain_of_not_mem (by decide) (by decide)
  antenna := antennaOne

/-- `VD407,000015E1,CA,2` -/
def sampleVersion : VersionFields where
  firmware := FieldText.mk "D407".toList (by decide) (by decide) rfl
  firmware_ne_nil := List.cons_ne_nil _ _
  readerId := FieldText.mk "000015E1".toList (by decide) (by decide) rfl
  hardware := FieldText.mk "CA".toList (by decide) (by decide) rfl
  band := FieldText.mk "2".toList (by decide) (by decide) rfl

/-- The power 20 is set as it is where the reply has a timestamp, and as 10 where it has none. -/
theorem plain_version_keeps_letter :
    (parseVersion ('@' :: sampleStampedHead.content sampleVersion.text) ⟨[], [], [], [], []⟩).map
        (fun result => regulatePower result.2.strFirmware 20) = some 20 ∧
      (parseVersion sampleVersion.text ⟨[], [], [], [], []⟩).map
        (fun result => regulatePower result.2.strFirmware 20) = some 10 ∧
      ¬ ∀ (h : StampedHead) (v : VersionFields) (old₁ old₂ : RfidReaderVersion),
        LayoutsAgree h v old₁ old₂ := by
  have hplain : parseVersion sampleVersion.text ⟨[], [], [], [], []⟩ = some (rfidOk,
      ⟨"VD407".toList, "CA".toList, "000015E1".toList, "2".toList, []⟩) := rfl
  refine ⟨rfl, ?_, fun hall => ?_⟩
  · rw [hplain, Option.map_some]
    exact congrArg some (regulatePower_of_letter "D407".toList 20)
  · obtain ⟨new₁, new₂, -, hparse, -, hstored, -⟩ :=
      hall sampleStampedHead sampleVersion ⟨[], [], [], [], []⟩ ⟨[], [], [], [], []⟩
    obtain ⟨-, rfl⟩ := Prod.mk.inj (Option.some.inj (hplain.symm.trans hparse))
    exact absurd hstored.firmware (by decide)

end RfidEngine.RfidInterface
