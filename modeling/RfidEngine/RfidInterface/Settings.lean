import RfidEngine.Lib.Simulation
import RfidEngine.RfidInterface.Power

/-!
# RfidInterface: the settings of a reader

The getters of the loop settings, of the power, of the antenna and of the
regulation beside their setters. With a reader that echoes what it is told and
answers a query with what it holds, the calls of the interface are those of a
store: a getter hands out what the last setter of the same setting was given. A
power above the range of the model is brought down to it, one below is kept.
-/

namespace RfidEngine.RfidInterface

open Numerals

def rfPtReqGetPowerLevel : Nat := 0x0C
def rfPtReqGetRegulation : Nat := 0x0E
def rfPtReqGetSingleAntenna : Nat := 0x12
def rfPtReqGetLoopAntenna : Nat := 0x14
def rfPtReqGetLoopTime : Nat := 0x16

def regulationUnknown : Int := 0

def strGetError : Str := "GetError".toList

/-- What stands behind the keyword in a content, unless it starts with `GetError`. -/
def queriedValue (strKeyword strContent : Str) : Option Str :=
  if strContent.take strKeyword.length = strKeyword then
    let strValue := strContent.drop strKeyword.length
    if strValue.take strGetError.length ≠ strGetError then some strValue else none
  else none

/-- The parser of a loop setting's query; it stores in the caller's variable. -/
def parseGetLoop (strKeyword : Str) (base : Nat) (lpBuffer : Str) (uiValue : BitVec 32) :
    Option (Bool × BitVec 32) := do
  let strContent ← getContent lpBuffer
  match queriedValue strKeyword strContent with
  | some strValue => some (true, BitVec.ofNat 32 (strtoul strValue base))
  | none => some (false, uiValue)

def parseGetLoopAntenna : Str → BitVec 32 → Option (Bool × BitVec 32) :=
  parseGetLoop "LoopAntenna".toList 16

def parseGetLoopTime : Str → BitVec 32 → Option (Bool × BitVec 32) :=
  parseGetLoop "LoopTime".toList 10

def parseGetPower (lpBuffer : Str) (nValue : Int) : Option (Bool × Int) := do
  let strContent ← getContent lpBuffer
  match ← commandValue strContent with
  | some strValue => some (true, powerValue strValue)
  | none => some (false, nValue)

def parseGetSingleAntenna (lpBuffer : Str) (out : BitVec 32 × Bool) :
    Option (Bool × BitVec 32 × Bool) := do
  let strContent ← getContent lpBuffer
  match parseAntennaHub (cStr strContent) out.2 with
  | some stored => some (true, stored)
  | none => some (false, out)

/-- The result code of a getter with the caller's variable as the parser leaves it. -/
def getterReply {ω : Type} (parse : Str → ω → Option (Bool × ω)) (out : ω) (response : Str) :
    Option (Int × ω) :=
  if response.length > 0 then do
    let (fParsed, out) ← parse response out
    some (if fParsed then rfidOk else rfidErrParse, out)
  else some (rfidErrNoResponse, out)

/-- A getter sends one fixed text. -/
def getter {ω : Type} (uiCommandType : Nat) (szSend : Str)
    (parse : Str → ω → Option (Bool × ω)) (out : ω) : Exchange (Option (Int × ω)) :=
  .send uiCommandType (snprintf szSend) fun _ response => getterReply parse out response

def getLoopAntenna : BitVec 32 → Exchange (Option (Int × BitVec 32)) :=
  getter rfPtReqGetLoopAntenna "\n@LoopAntenna\r".toList parseGetLoopAntenna

def getLoopTime : BitVec 32 → Exchange (Option (Int × BitVec 32)) :=
  getter rfPtReqGetLoopTime "\n@LoopTime\r".toList parseGetLoopTime

/-- The caller's variable is set to zero before it is printed into the command. -/
def getPower (_ : Int) : Exchange (Option (Int × Int)) :=
  getter rfPtReqGetPowerLevel ("\nN0,".toList ++ powerText 0 ++ ['\r']) parseGetPower 0

def getSingleAntenna : BitVec 32 × Bool → Exchange (Option (Int × BitVec 32 × Bool)) :=
  getter rfPtReqGetSingleAntenna "\n@Antenna\r".toList parseGetSingleAntenna

def getRegulation (_ : Int) : Exchange (Option (Int × Int)) :=
  getter rfPtReqGetRegulation ("\nN4,".toList ++ twoDigits regulationUnknown ++ ['\r'])
    parseGetRegulation regulationUnknown

def LoopSetting.get : LoopSetting → BitVec 32 → Exchange (Option (Int × BitVec 32))
  | antenna => getLoopAntenna
  | time => getLoopTime

theorem getterReply_of_parsed {ω : Type} {parse : Str → ω → Option (Bool × ω)} {out x : ω}
    {response : Str} (hne : response ≠ []) (h : parse response out = some (true, x)) :
    getterReply parse out response = some (rfidOk, x) := by
  rw [getterReply, if_pos (List.length_pos_iff.mpr hne), h]
  rfl

/-- The parser stores only what it accepts. -/
def Stores {ω : Type} (parse : Str → ω → Option (Bool × ω)) : Prop :=
  ∀ response out x, parse response out = some (false, x) → x = out

theorem stores_parseGetLoop (strKeyword : Str) (base : Nat) :
    Stores (parseGetLoop strKeyword base) := by
  intro response out x h
  obtain ⟨content, -, hfound⟩ := Option.bind_eq_some_iff.mp h
  cases hvalue : queriedValue strKeyword content with
  | some value => simp [hvalue] at hfound
  | none => simpa [hvalue] using hfound.symm

theorem stores_parseGetPower : Stores parseGetPower := by
  intro response out x h
  obtain ⟨content, -, hfound⟩ := Option.bind_eq_some_iff.mp h
  obtain ⟨value, -, hstored⟩ := Option.bind_eq_some_iff.mp hfound
  cases value with
  | some value => simp at hstored
  | none => simpa using hstored.symm

theorem stores_parseGetRegulation : Stores parseGetRegulation := by
  intro response out x h
  obtain ⟨content, -, hfound⟩ := Option.bind_eq_some_iff.mp h
  obtain ⟨value, -, hstored⟩ := Option.bind_eq_some_iff.mp hfound
  cases value with
  | some value => simp at hstored
  | none => simpa using hstored.symm

theorem stores_parseGetSingleAntenna : Stores parseGetSingleAntenna := by
  intro response out x h
  obtain ⟨content, -, hfound⟩ := Option.bind_eq_some_iff.mp h
  cases hvalue : parseAntennaHub (cStr content) out.2 with
  | some value => simp [hvalue] at hfound
  | none => simpa [hvalue] using hfound.symm

/-- A getter that does not return `RFID_OK` hands out what the variable held. -/
theorem getterReply_of_refused {ω : Type} {parse : Str → ω → Option (Bool × ω)} {out x : ω}
    {response : Str} {code : Int} (hstores : Stores parse)
    (h : getterReply parse out response = some (code, x)) (hcode : code ≠ rfidOk) : x = out := by
  unfold getterReply at h
  split at h
  · obtain ⟨⟨fParsed, stored⟩, hparsed, heq⟩ := Option.bind_eq_some_iff.mp h
    obtain ⟨hret, rfl⟩ := Prod.mk.inj (Option.some.inj heq)
    cases fParsed with
    | true => exact absurd hret.symm hcode
    | false => exact hstores response out stored hparsed
  · exact (Prod.mk.inj (Option.some.inj h)).2.symm

/-- Without `RFID_OK` the caller's variable is as it was; `GetPower` and `GetRegulation` leave the
zero that they begin with. -/
theorem getters_refused (nSend : Int) (response : Str) (code : Int) (hcode : code ≠ rfidOk) :
    (∀ (s : LoopSetting) (out x : BitVec 32),
      (s.get out).after nSend response = some (code, x) → x = out) ∧
    (∀ out x : BitVec 32 × Bool,
      (getSingleAntenna out).after nSend response = some (code, x) → x = out) ∧
    (∀ out x : Int, (getPower out).after nSend response = some (code, x) → x = 0) ∧
    ∀ out x : Int, (getRegulation out).after nSend response = some (code, x) → x = 0 := by
  refine ⟨fun s out x h => ?_, fun out x h => ?_, fun out x h => ?_, fun out x h => ?_⟩
  · cases s with
    | antenna => exact getterReply_of_refused (stores_parseGetLoop _ 16) h hcode
    | time => exact getterReply_of_refused (stores_parseGetLoop _ 10) h hcode
  · exact getterReply_of_refused stores_parseGetSingleAntenna h hcode
  · exact getterReply_of_refused stores_parseGetPower h hcode
  · exact getterReply_of_refused stores_parseGetRegulation h hcode

/-- A text that denotes a number starts with no word. -/
theorem LoopSetting.Denotes.not_getError {s : LoopSetting} {v : BitVec 32} {value : Str}
    (h : s.Denotes v value) : ¬ strGetError <+: value := by
  intro herror
  have hmem : 'G' ∈ value := herror.subset (by decide)
  obtain hdigit | heq := h.mem hmem
  · exact absurd hdigit (by decide)
  · exact absurd heq (by decide)

theorem queriedValue_append {strKeyword value : Str} (h : ¬ strGetError <+: value) :
    queriedValue strKeyword (strKeyword ++ value) = some value := by
  have hne : value.take strGetError.length ≠ strGetError :=
    fun heq => h (List.prefix_iff_eq_take.mpr heq.symm)
  simp only [queriedValue, List.take_left, List.drop_left, if_true, if_pos hne]

/-- The answer to a query that names a number is read as the number. -/
theorem LoopSetting.get_of_confirmed {s : LoopSetting} {v : BitVec 32} {response : Str}
    (h : s.Confirmed v response) (out : BitVec 32) (nSend : Int) :
    (s.get out).after nSend response = some (rfidOk, v) := by
  obtain ⟨value, hresponse, hdenotes⟩ := h
  obtain ⟨hcontent, -⟩ := Confirmed.content hresponse hdenotes
  have hne : response ≠ [] := by
    rintro rfl
    obtain ⟨ch, rest, hcons, -⟩ := s.keyword_at value
    obtain heq | heq := hresponse
    · exact absurd heq.symm (List.cons_ne_nil _ _)
    · exact absurd (heq.trans hcons).symm (List.cons_ne_nil _ _)
  have hparsed : parseGetLoop s.keyword s.base response out = some (true, v) := by
    rw [parseGetLoop, hcontent]
    simp only [Option.bind_eq_bind, Option.bind_some,
      queriedValue_append hdenotes.not_getError, hdenotes.read_eq]
  have hafter : (s.get out).after nSend response =
      getterReply (parseGetLoop s.keyword s.base) out response := by
    cases s with
    | antenna => rfl
    | time => rfl
  rw [hafter]
  exact getterReply_of_parsed hne hparsed

/-- The number of a power's reply. -/
def NamesPower (p : Int) (response : Str) : Prop :=
  ∃ (h : StampedHead) (text : Str), contentOf response = h.content ('N' :: text) ∧
    '-' ∉ text ∧ powerValue text = p

theorem NamesPower.commandValue {p : Int} {response : Str} (h : NamesPower p response) :
    ∃ content text, getContent response = some content ∧
      RfidInterface.commandValue content = some (some text) ∧ powerValue text = p := by
  obtain ⟨head, text, hcontent, hdash, hp⟩ := h
  have hne : contentOf response ≠ [] := by
    rw [hcontent]
    exact List.cons_ne_nil _ _
  refine ⟨head.content ('N' :: text), text, hcontent ▸ getContent_of_content hne, ?_, hp⟩
  have hdigit : (head.content ('N' :: text))[0]? = some head.digit := rfl
  have hN : head.digit ≠ 'N' := head.digit_ne rfl
  rw [RfidInterface.commandValue, hdigit]
  simp only [Option.bind_eq_bind, Option.bind_some, if_pos hN,
    head.fieldOfLetter_content 'N' text rfl (by decide) (by decide) hdash]

theorem NamesPower.ne_nil {p : Int} {response : Str} (h : NamesPower p response) :
    response ≠ [] := by
  rintro rfl
  obtain ⟨head, text, hcontent, -⟩ := h
  exact absurd hcontent.symm (List.cons_ne_nil _ _)

/-- The power of a reply is handed out. -/
theorem getPower_of_names {p : Int} {response : Str} (h : NamesPower p response) (out nSend : Int) :
    (getPower out).after nSend response = some (rfidOk, p) := by
  obtain ⟨content, text, hcontent, hvalue, rfl⟩ := h.commandValue
  refine getterReply_of_parsed h.ne_nil ?_
  rw [parseGetPower, hcontent]
  simp only [Option.bind_eq_bind, Option.bind_some, hvalue]

/-- A power that the reply confirms is accepted. -/
theorem sendPower_of_names {p : Int} {response : Str} (h : NamesPower p response)
    (pnResult nSend : Int) : (sendPower p pnResult).after nSend response = some rfidOk := by
  obtain ⟨content, text, hcontent, hvalue, hp⟩ := h.commandValue
  have hafter : (sendPower p pnResult).after nSend response =
      setterReply (parseSetPower · pnResult) (fun nResult => p = nResult) rfidErrNoResponse
        response := rfl
  rw [hafter]
  refine (setterReply_ok_iff (by decide) rfl).mpr ⟨p, ?_, decide_eq_true rfl⟩
  rw [parseSetPower, hcontent]
  simp only [Option.bind_eq_bind, Option.bind_some, hvalue, hp]

/-- An `int`. -/
abbrev IntValue := {n : Int // -2147483648 ≤ n ∧ n ≤ intMax}

/-- What a reader holds. -/
structure Settings where
  antenna : BitVec 32
  time : BitVec 32
  power : IntValue

namespace Settings

def loop (t : Settings) : LoopSetting → BitVec 32
  | .antenna => t.antenna
  | .time => t.time

def setLoop (t : Settings) (v : BitVec 32) : LoopSetting → Settings
  | .antenna => { t with antenna := v }
  | .time => { t with time := v }

end Settings

/-- The models in the remarks on `SetPower`. -/
inductive ReaderModel where
  | c2
  | d2
  | d3
  | d4
  deriving DecidableEq

/-- The highest power of a model. -/
def ReaderModel.highest : ReaderModel → IntValue
  | c2 => ⟨18, by decide⟩
  | d2 => ⟨25, by decide⟩
  | d3 => ⟨27, by decide⟩
  | d4 => ⟨29, by decide⟩

/-- A firmware begins with its model. -/
def readerModel : Str → Option ReaderModel
  | 'C' :: '2' :: _ => some .c2
  | 'D' :: '2' :: _ => some .d2
  | 'D' :: '3' :: _ => some .d3
  | 'D' :: '4' :: _ => some .d4
  | _ => none

/-- The power a reader holds behind a request: no more than its model can, but also less than it
can; a reader of no such model is held at 10. -/
def heldPower (model : Option ReaderModel) (request : IntValue) : IntValue :=
  match model with
  | some model => if model.highest.val < request.val then model.highest else request
  | none => ⟨10, by decide⟩

/-- The request of a caller. -/
def requested (nPower : BitVec 32) : IntValue :=
  ⟨nPower.toInt, BitVec.le_toInt nPower, Int.le_of_lt_add_one BitVec.toInt_lt⟩

/-- The calls of a user; variables that a call stores in come with whatever they hold. -/
inductive SettingCall where
  | setLoop (s : LoopSetting) (v : BitVec 32)
  | getLoop (s : LoopSetting) (out : BitVec 32)
  | setPower (nPower : BitVec 32) (versionInfo : RfidReaderVersion) (pnResult : Int)
  | getPower (out : Int)

/-- What a call gives back. -/
inductive SettingResult where
  | code (ret : Int)
  | number (ret : Int) (v : BitVec 32)
  | power (ret : Int) (p : Int)

/-- The store: a setter keeps the value, no power above the highest of the model, and a getter hands
it out. -/
def settingsStep (model : Option ReaderModel) (t : Settings) :
    SettingCall → SettingResult × Settings
  | .setLoop s v => (.code rfidOk, t.setLoop v s)
  | .getLoop s _ => (.number rfidOk (t.loop s), t)
  | .setPower nPower _ _ =>
      (.code rfidOk, { t with power := heldPower model (requested nPower) })
  | .getPower _ => (.power rfidOk t.power, t)

/-- The table of ranges knows the models by the first two characters of their firmware. -/
theorem lookup_powerRangeTable (firmware : Str) :
    (powerRangeTable.lookup (firmware.take 2)).map Prod.snd =
      (readerModel firmware).map fun model => model.highest.val := by
  unfold readerModel
  split
  · rfl
  · rfl
  · rfl
  · rfl
  · rename_i hC2 hD2 hD3 hD4
    have hnot : ∀ a b, (a, b) ∈ [('C', '2'), ('D', '2'), ('D', '3'), ('D', '4')] →
        firmware.take 2 ≠ [a, b] := by
      rintro a b hmem htake
      have hsplit : firmware = a :: b :: firmware.drop 2 := by
        rw [← List.take_append_drop 2 firmware, htake]
        rfl
      simp only [List.mem_cons, Prod.mk.injEq, List.not_mem_nil, or_false] at hmem
      obtain ⟨rfl, rfl⟩ | ⟨rfl, rfl⟩ | ⟨rfl, rfl⟩ | ⟨rfl, rfl⟩ := hmem
      · exact hC2 _ hsplit
      · exact hD2 _ hsplit
      · exact hD3 _ hsplit
      · exact hD4 _ hsplit
    have hnone : powerRangeTable.lookup (firmware.take 2) = none := by
      simp only [powerRangeTable, List.lookup_cons, List.lookup_nil,
        beq_false_of_ne (hnot 'C' '2' (by simp)), beq_false_of_ne (hnot 'D' '2' (by simp)),
        beq_false_of_ne (hnot 'D' '3' (by simp)), beq_false_of_ne (hnot 'D' '4' (by simp))]
    rw [hnone]
    rfl

/-- What `RegulatePower` computes is the power that the store holds. -/
theorem regulatePower_eq_heldPower (firmware : Str) (request : IntValue) :
    regulatePower firmware request = heldPower (readerModel firmware) request := by
  have htable := lookup_powerRangeTable firmware
  unfold regulatePower
  cases hlookup : powerRangeTable.lookup (firmware.take 2) with
  | none =>
      rw [hlookup, Option.map_none, eq_comm, Option.map_eq_none_iff] at htable
      rw [htable]
      rfl
  | some range =>
      rw [hlookup, Option.map_some, eq_comm] at htable
      obtain ⟨model, hmodel, hhighest⟩ := Option.map_eq_some_iff.mp htable
      rw [hmodel, heldPower]
      dsimp only
      rw [← hhighest]
      split
      · rename_i habove
        exact min_eq_right habove.le
      · rename_i hwithin
        exact min_eq_left (Int.not_lt.mp hwithin)

section Reader

variable {δ : Type*}

/-- A reader answers each text with one response. -/
def Exchange.on {α : Type*} (answer : δ → Str → Str × δ) (d : δ) : Exchange α → α × δ
  | .done result => (result, d)
  | .send _ szSend reply =>
      let answered := answer d szSend
      (reply szSend.length answered.1, answered.2)

/-- The calls of the interface on a reader. -/
def callStep (answer : δ → Str → Str × δ) (d : δ) : SettingCall → Option (SettingResult × δ)
  | .setLoop s v =>
      let called := (s.set v).on answer d
      called.1.map fun ret => (.code ret, called.2)
  | .getLoop s out =>
      let called := (s.get out).on answer d
      called.1.map fun result => (.number result.1 result.2, called.2)
  | .setPower nPower versionInfo pnResult =>
      let asked := (RfidInterface.setPower versionInfo nPower.toInt pnResult).on answer d
      asked.1.bind fun command =>
        let called := command.on answer asked.2
        called.1.map fun ret => (.code ret, called.2)
  | .getPower out =>
      let called := (RfidInterface.getPower out).on answer d
      called.1.map fun result => (.power result.1 result.2, called.2)

/-- A reader of a model as the comments on the commands describe it: it takes over and echoes what
it is told, and answers a query with what it holds. -/
structure Documented (answer : δ → Str → Str × δ) (firmware : Str) (settings : δ → Settings) :
    Prop where
  setLoop : ∀ d (s : LoopSetting) v, ∃ response d',
    answer d ("\n@".toList ++ (s.keyword ++ s.argument v) ++ ['\r']) = (response, d') ∧
      s.Confirmed v response ∧ settings d' = (settings d).setLoop v s
  getLoop : ∀ d (s : LoopSetting), ∃ response d',
    answer d ("\n@".toList ++ s.keyword ++ ['\r']) = (response, d') ∧
      s.Confirmed ((settings d).loop s) response ∧ settings d' = settings d
  version : ∀ d, ∃ response d', answer d "\nV\r".toList = (response, d') ∧
    (∃ (h : StampedHead) (v : VersionFields), contentOf response = h.content v.text ∧
      (v.firmware : Str) = firmware) ∧ settings d' = settings d
  setPower : ∀ d (p : IntValue), ∃ response d',
    answer d ("\nN1,".toList ++ powerText p ++ ['\r']) = (response, d') ∧
      NamesPower p response ∧ settings d' = { settings d with power := p }
  getPower : ∀ d, ∃ response d', answer d "\nN0,00\r".toList = (response, d') ∧
    NamesPower (settings d).power response ∧ settings d' = settings d

variable {answer : δ → Str → Str × δ} {firmware : Str} {settings : δ → Settings}

theorem Exchange.on_of_sent {α : Type*} {e : Exchange α} {szSend response : Str} {d d' : δ}
    (hsent : e.sent = some szSend) (hanswer : answer d szSend = (response, d')) :
    e.on answer d = (e.after szSend.length response, d') := by
  cases e with
  | done result => exact absurd hsent.symm (Option.some_ne_none szSend)
  | send uiCommandType text reply =>
      obtain rfl := Option.some.inj hsent
      rw [Exchange.on, hanswer]
      rfl

theorem LoopSetting.sent_get (s : LoopSetting) (out : BitVec 32) :
    (s.get out).sent = some ("\n@".toList ++ s.keyword ++ ['\r']) := by
  cases s with
  | antenna => rfl
  | time => rfl

theorem Documented.setLoop_step (h : Documented answer firmware settings) (d : δ)
    (s : LoopSetting) (v : BitVec 32) :
    ∃ d', callStep answer d (.setLoop s v) = some (.code rfidOk, d') ∧
      settings d' = (settings d).setLoop v s := by
  obtain ⟨response, d', hanswer, hconfirmed, hsettings⟩ := h.setLoop d s v
  refine ⟨d', ?_, hsettings⟩
  rw [callStep, Exchange.on_of_sent (s.sent_set v) hanswer, LoopSetting.ok_of_confirmed hconfirmed]
  rfl

theorem Documented.getLoop_step (h : Documented answer firmware settings) (d : δ)
    (s : LoopSetting) (out : BitVec 32) :
    ∃ d', callStep answer d (.getLoop s out) = some (.number rfidOk ((settings d).loop s), d') ∧
      settings d' = settings d := by
  obtain ⟨response, d', hanswer, hconfirmed, hsettings⟩ := h.getLoop d s
  refine ⟨d', ?_, hsettings⟩
  rw [callStep, Exchange.on_of_sent (s.sent_get out) hanswer,
    LoopSetting.get_of_confirmed hconfirmed]
  rfl

theorem Documented.getPower_step (h : Documented answer firmware settings) (d : δ) (out : Int) :
    ∃ d', callStep answer d (.getPower out) = some (.power rfidOk (settings d).power, d') ∧
      settings d' = settings d := by
  obtain ⟨response, d', hanswer, hnames, hsettings⟩ := h.getPower d
  refine ⟨d', ?_, hsettings⟩
  have hsent : (RfidInterface.getPower out).sent = some "\nN0,00\r".toList := rfl
  rw [callStep, Exchange.on_of_sent hsent hanswer, getPower_of_names hnames]
  rfl

/-- The version of a documented reader is that of its model. -/
theorem getVersion_of_stamped {response : Str} {head : StampedHead} {v : VersionFields}
    (hcontent : contentOf response = head.content v.text) (versionInfo : RfidReaderVersion)
    (nSend : Int) : ∃ version, (getVersion versionInfo).after nSend response =
      some (rfidOk, version) ∧ version.strFirmware = v.firmware := by
  have hne : response ≠ [] := by
    rintro rfl
    exact absurd hcontent.symm (List.cons_ne_nil _ _)
  have hparsed := v.parseVersion_of_content (v.stamped_not_mem_comma head)
    (hcontent.trans (v.content_text head)) versionInfo
  rw [v.parseFirmware_stamped head] at hparsed
  refine ⟨_, (if_pos (List.length_pos_iff.mpr hne)).trans hparsed, rfl⟩

/-- Behind the version comes the command with the regulated power. -/
theorem setPower_after {versionInfo version : RfidReaderVersion} {nSend : Int} {response : Str}
    (hversion : (getVersion versionInfo).after nSend response = some (rfidOk, version))
    (nPower pnResult : Int) : (setPower versionInfo nPower pnResult).after nSend response =
      some (sendPower (regulatePower version.strFirmware nPower) pnResult) := by
  have hafter : (setPower versionInfo nPower pnResult).after nSend response =
      ((getVersion versionInfo).after nSend response).bind fun answer =>
        some (if answer.1 = rfidOk then
          sendPower (regulatePower answer.2.strFirmware nPower) pnResult
        else .done (some answer.1)) := rfl
  rw [hafter, hversion]
  exact congrArg some (if_pos rfl)

theorem sent_sendPower (p pnResult : Int) :
    (sendPower p pnResult).sent = some ("\nN1,".toList ++ powerText p ++ ['\r']) := by
  apply congrArg some
  apply snprintf_eq_self
  have hlen := length_leftpad_upperHex (k := 2) (by omega) (toUnsigned_lt p)
  have hlead : "\nN1,".toList.length = 4 := rfl
  rw [List.length_append, List.length_append, powerText, List.length_singleton]
  omega

theorem Documented.setPower_step (h : Documented answer firmware settings) (d : δ)
    (nPower : BitVec 32) (versionInfo : RfidReaderVersion) (pnResult : Int) :
    ∃ d', callStep answer d (.setPower nPower versionInfo pnResult) = some (.code rfidOk, d') ∧
      settings d' = { settings d with
        power := heldPower (readerModel firmware) (requested nPower) } := by
  obtain ⟨reply, d₁, hversion, ⟨head, v, hcontent, rfl⟩, hsame⟩ := h.version d
  obtain ⟨version, hgot, hfirmware⟩ :=
    getVersion_of_stamped hcontent versionInfo "\nV\r".toList.length
  have hheld := regulatePower_eq_heldPower version.strFirmware (requested nPower)
  obtain ⟨response, d', hanswer, hnames, hsettings⟩ :=
    h.setPower d₁ (heldPower (readerModel version.strFirmware) (requested nPower))
  rw [← hheld] at hanswer hnames
  have hfirst : (RfidInterface.setPower versionInfo nPower.toInt pnResult).on answer d =
      (some (sendPower (regulatePower version.strFirmware nPower.toInt) pnResult), d₁) := by
    rw [Exchange.on_of_sent rfl hversion, ← setPower_after hgot nPower.toInt pnResult]
  refine ⟨d', ?_, ?_⟩
  · have hsecond : (sendPower (regulatePower version.strFirmware nPower.toInt) pnResult).on answer
        d₁ = (some rfidOk, d') := by
      have hon := Exchange.on_of_sent (sent_sendPower _ pnResult) hanswer
      rwa [sendPower_of_names hnames] at hon
    simp only [callStep, hfirst, Option.bind_some, hsecond, Option.map_some]
  · rw [hsettings, hsame, hfirmware]

/-- One call is answered as by the store, and the reader holds what the store does. -/
theorem Documented.call_step (h : Documented answer firmware settings) (d : δ)
    (call : SettingCall) :
    ∃ d', callStep answer d call =
        some ((settingsStep (readerModel firmware) (settings d) call).1, d') ∧
      settings d' = (settingsStep (readerModel firmware) (settings d) call).2 := by
  cases call with
  | setLoop s v => exact h.setLoop_step d s v
  | getLoop s out => exact h.getLoop_step d s out
  | setPower nPower versionInfo pnResult => exact h.setPower_step d nPower versionInfo pnResult
  | getPower out => exact h.getPower_step d out

end Reader

/-- With a documented reader every sequence of the calls, whatever the callers' variables hold, is
answered as by the store: no call fails, a setter confirms, and a getter hands out what the last
setter of the same setting gave, or the highest power of the model if more was asked for. -/
theorem settings_store {δ : Type*} (answer : δ → Str → Str × δ) (firmware : Str)
    (settings : δ → Settings) (h : Documented answer firmware settings) (d : δ)
    (calls : List SettingCall) :
    StepSystem.Lockstep (fun d t => settings d = t) (callStep answer)
      (settingsStep (readerModel firmware)) d (settings d) calls := by
  have hstep : ∀ d t call, settings d = t →
      ((∃ d', callStep answer d call =
          some ((settingsStep (readerModel firmware) t call).1, d') ∧
        settings d' = (settingsStep (readerModel firmware) t call).2) ↔ True) := by
    rintro d t call rfl
    exact iff_true_intro (h.call_step d call)
  refine (StepSystem.lockstep_iff_along (P := fun _ _ => True) hstep rfl).mpr ?_
  exact StepSystem.along_iff_split.mpr fun _ _ _ _ _ _ => trivial

/-- What stands between the lead of a command and its end. -/
def argumentOf (lead command : Str) : Option Str :=
  if command.take lead.length = lead then some (command.drop lead.length).dropLast else none

def loopReply (s : LoopSetting) (value : Str) : Str := '@' :: (s.keyword ++ value)

def powerReply (text : Str) : Str := '@' :: sampleStampedHead.content ('N' :: text)

/-- The answer to a command of a loop setting. -/
def answerLoop (t : Settings) (s : LoopSetting) (arg : Str) : Str × Settings :=
  if arg = [] then (loopReply s (s.argument (t.loop s)), t)
  else (loopReply s arg, t.setLoop (BitVec.ofNat 32 (strtoul arg s.base)) s)

theorem longToInt_int (n : Int) : -2147483648 ≤ longToInt n ∧ longToInt n ≤ intMax := by
  unfold longToInt intMax
  rw [Int.bmod_def]
  split <;> omega

/-- A reader of the model `D4` that holds its settings as numbers. -/
def modelReader (t : Settings) (command : Str) : Str × Settings :=
  if command = "\nV\r".toList then ('@' :: sampleStampedHead.content sampleVersion.text, t)
  else if command = "\nN0,00\r".toList then (powerReply (powerText t.power), t)
  else
    match argumentOf "\nN1,".toList command, argumentOf "\n@LoopAntenna".toList command,
        argumentOf "\n@LoopTime".toList command with
    | some arg, _, _ => (powerReply arg, { t with power := ⟨powerValue arg, longToInt_int _⟩ })
    | none, some arg, _ => answerLoop t .antenna arg
    | none, none, some arg => answerLoop t .time arg
    | none, none, none => ([], t)

theorem argumentOf_append (lead arg : Str) :
    argumentOf lead (lead ++ arg ++ ['\r']) = some arg := by
  rw [argumentOf, List.append_assoc, List.take_left, if_pos rfl, List.drop_left,
    List.dropLast_concat]

/-- A command of another lead has no such argument. -/
theorem argumentOf_eq_none {lead : Str} (other : Str) (n : Nat) (hlong : n ≤ lead.length)
    (hother : n ≤ other.length) (hne : other.take n ≠ lead.take n) (rest : Str) :
    argumentOf lead (other ++ rest) = none := by
  refine if_neg fun heq => hne ?_
  have htake := congrArg (List.take n) heq
  rwa [List.take_take, Nat.min_eq_left hlong, List.take_append_of_le_length hother] at htake

theorem contentOf_at {content : Str} (hplain : ∀ ch ∈ content, ch ≠ '\x00' ∧ isDot ch = true) :
    contentOf ('@' :: content) = content := by
  have hzero : '\x00' ∉ '@' :: content := by
    rw [List.mem_cons, not_or]
    exact ⟨by decide, fun hmem => (hplain _ hmem).1 rfl⟩
  have hdot : ∀ ch ∈ '@' :: content, isDot ch = true :=
    List.forall_mem_cons.mpr ⟨rfl, fun ch hch => (hplain ch hch).2⟩
  rw [contentOf, cStr_eq_self hzero, line_eq_self hdot]
  rfl

/-- A power's reply is read as its text. -/
theorem namesPower_reply (p : IntValue) : NamesPower p (powerReply (powerText p)) := by
  have hdigits := (leftpad_upperHex 2 (toUnsigned p)).1
  have hne : ∀ c, digitValue c = 36 → c ∉ powerText p := by
    intro c hc hmem
    exact ne_of_digitValue (by decide) (hdigits c hmem) hc rfl
  refine ⟨sampleStampedHead, powerText p, ?_, hne '-' rfl, powerValue_powerText p.2.1 p.2.2⟩
  have hplain : ∀ ch ∈ powerText p, ch ≠ '\x00' ∧ isDot ch = true := by
    refine fun ch hch => ⟨?_, isDot_iff.mpr ⟨?_, ?_⟩⟩
    · exact ne_of_mem_of_not_mem hch (hne '\x00' rfl)
    · exact ne_of_mem_of_not_mem hch (hne '\n' rfl)
    · exact ne_of_mem_of_not_mem hch (hne '\r' rfl)
  have hall : ((sampleStampedHead.content ['N']).all fun ch =>
      decide (ch ≠ '\x00' ∧ isDot ch = true)) = true := rfl
  have hlead : ∀ ch ∈ sampleStampedHead.content ['N'], ch ≠ '\x00' ∧ isDot ch = true :=
    fun ch hch => of_decide_eq_true (List.all_eq_true.mp hall ch hch)
  have hsplit : sampleStampedHead.content ('N' :: powerText p) =
      sampleStampedHead.content ['N'] ++ powerText p := by
    simp [StampedHead.content]
  rw [powerReply, hsplit]
  exact contentOf_at (List.forall_mem_append.mpr ⟨hlead, hplain⟩)

theorem argument_ne_nil (s : LoopSetting) (v : BitVec 32) : s.argument v ≠ [] := by
  cases s with
  | antenna =>
      intro heq
      have hlen := congrArg List.length heq
      rw [LoopSetting.argument, List.leftpad, List.length_append, List.length_replicate,
        List.length_nil] at hlen
      omega
  | time =>
      obtain ⟨m, -, hprinted⟩ | ⟨m, -, -, hprinted⟩ := decimal_cases v.toInt
      · rw [LoopSetting.argument, hprinted]
        exact Nat.toDigits_ne_nil
      · rw [LoopSetting.argument, hprinted]
        exact List.cons_ne_nil _ _

/-- Commands with another second character are not taken for one another. -/
theorem ne_of_second {command command' : Str} (h : command[1]? ≠ command'[1]?) :
    command ≠ command' := fun heq => h (congrArg (·[1]?) heq)

theorem modelReader_loop (t : Settings) (s : LoopSetting) (arg : Str) :
    modelReader t ("\n@".toList ++ (s.keyword ++ arg) ++ ['\r']) = answerLoop t s arg := by
  have hversion : "\n@".toList ++ (s.keyword ++ arg) ++ ['\r'] ≠ "\nV\r".toList :=
    ne_of_second (by simp)
  have hpower : "\n@".toList ++ (s.keyword ++ arg) ++ ['\r'] ≠ "\nN0,00\r".toList :=
    ne_of_second (by simp)
  have hset : argumentOf "\nN1,".toList ("\n@".toList ++ (s.keyword ++ arg) ++ ['\r']) = none := by
    rw [List.append_assoc]
    exact argumentOf_eq_none "\n@".toList 2 (by decide) (by decide) (by decide) _
  rw [modelReader, if_neg hversion, if_neg hpower, hset]
  cases s with
  | antenna =>
      have hantenna : argumentOf "\n@LoopAntenna".toList
          ("\n@".toList ++ (LoopSetting.antenna.keyword ++ arg) ++ ['\r']) = some arg :=
        argumentOf_append "\n@LoopAntenna".toList arg
      rw [hantenna]
  | time =>
      have htime : argumentOf "\n@LoopTime".toList
          ("\n@".toList ++ (LoopSetting.time.keyword ++ arg) ++ ['\r']) = some arg :=
        argumentOf_append "\n@LoopTime".toList arg
      have hantenna : argumentOf "\n@LoopAntenna".toList
          ("\n@".toList ++ (LoopSetting.time.keyword ++ arg) ++ ['\r']) = none :=
        argumentOf_eq_none "\n@LoopTime".toList 7 (by decide) (by decide) (by decide)
          (arg ++ ['\r'])
      rw [hantenna, htime]

theorem modelReader_power (t : Settings) (arg : Str) :
    modelReader t ("\nN1,".toList ++ arg ++ ['\r']) =
      (powerReply arg, { t with power := ⟨powerValue arg, longToInt_int _⟩ }) := by
  have hversion : "\nN1,".toList ++ arg ++ ['\r'] ≠ "\nV\r".toList := ne_of_second (by simp)
  have hquery : "\nN1,".toList ++ arg ++ ['\r'] ≠ "\nN0,00\r".toList := by
    intro heq
    exact absurd (congrArg (·[2]?) heq) (by simp)
  rw [modelReader, if_neg hversion, if_neg hquery, argumentOf_append]

theorem documented_modelReader : Documented modelReader "D407".toList id where
  setLoop := by
    intro t s v
    have hanswer := modelReader_loop t s (s.argument v)
    have hread := LoopSetting.Denotes.read_eq (s := s) (v := v) (.inr rfl)
    rw [answerLoop, if_neg (argument_ne_nil s v), hread] at hanswer
    exact ⟨_, _, hanswer, ⟨_, .inl rfl, .inr rfl⟩, rfl⟩
  getLoop := by
    intro t s
    have hanswer := modelReader_loop t s []
    rw [List.append_nil, answerLoop, if_pos rfl] at hanswer
    exact ⟨_, _, hanswer, ⟨_, .inl rfl, .inr rfl⟩, rfl⟩
  version := fun t => ⟨_, _, rfl, ⟨sampleStampedHead, sampleVersion, rfl, rfl⟩, rfl⟩
  setPower := by
    intro t p
    refine ⟨_, _, modelReader_power t (powerText p), namesPower_reply p, ?_⟩
    have hvalue : (⟨powerValue (powerText p), longToInt_int _⟩ : IntValue) = p :=
      Subtype.ext (powerValue_powerText p.2.1 p.2.2)
    rw [hvalue]
    rfl
  getPower := fun t => ⟨_, _, rfl, namesPower_reply t.power, rfl⟩

/-- The loop antennas and the power, set twice and asked for in between; the second power is below
what the model is made for, and is held. -/
theorem settings_store_modelReader :
    StepSystem.Lockstep (fun d t => id d = t) (callStep modelReader) (settingsStep (some .d4))
      ⟨0, 0, ⟨10, by decide⟩⟩ ⟨0, 0, ⟨10, by decide⟩⟩
      [.setLoop .antenna 0x44, .getLoop .antenna 7, .setPower 30 ⟨[], [], [], [], []⟩ 0,
        .getPower 5, .setLoop .antenna 0xC1318C03, .setPower 1 ⟨[], [], [], [], []⟩ 0,
        .getPower 5, .getLoop .antenna 0] :=
  settings_store modelReader "D407".toList id documented_modelReader ⟨0, 0, ⟨10, by decide⟩⟩ _

end RfidEngine.RfidInterface
