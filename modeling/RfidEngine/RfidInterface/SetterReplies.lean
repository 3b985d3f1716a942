import RfidEngine.RfidInterface.DateTime
import RfidEngine.RfidInterface.Identification
import RfidEngine.RfidInterface.LoopSettings

/-!
# RfidInterface: the antenna and the regulation

`SetSingleAntenna` and `SetRegulation` parse the reader's reply and then compare
the number they sent with a variable that the parser does not store in: the
caller's output, which nothing assigns, and a zero.

## Main results

The replies and prior contents for which the comparison comes out as one with
the number in the reply would.
-/

namespace RfidEngine.RfidInterface

def rfPtReqSetSingleAntenna : Nat := 0x13
def rfPtReqSetRegulation : Nat := 0x0F

def rfidErrRegulation : Int := rfidLibScope + 0x09

/-- The `ParseAntenna` that tells the ports of a hub: those above 4 and those with a zero in
front. -/
def parseAntennaHub (lpszAntenna : Str) (fHub : Bool) : Option (BitVec 32 × Bool) :=
  let strAntenna := cStr lpszAntenna
  if strAntenna.take textRfidAntenna.length = textRfidAntenna ∧
      textRfidAntenna.length < strAntenna.length then
    let strValue := strAntenna.drop textRfidAntenna.length
    let uiAntenna := BitVec.ofInt 32 (strtol strValue 10)
    some (uiAntenna, fHub || 4 < uiAntenna.toNat || strValue.head? == some '0')
  else none

def parseSetSingleAntenna (lpBuffer : Str) (puiAntenna : BitVec 32) (pfHub : Bool) :
    Option (Bool × BitVec 32 × Bool) := do
  let strContent ← getContent lpBuffer
  match settingValue "Antenna".toList strContent with
  | some _ =>
      match parseAntennaHub (cStr strContent) false with
      | some (uiAntenna, fHub) => some (true, uiAntenna, fHub)
      | none => some (false, puiAntenna, pfHub)
  | none => some (false, puiAntenna, pfHub)

/-- The number that was sent is compared with what the caller's variable holds. -/
def setSingleAntenna (uiAntenna : BitVec 32) (fHub : Bool) (pnResult : BitVec 32) :
    Exchange (Option Int) :=
  .send rfPtReqSetSingleAntenna
    (snprintf ("\n@Antenna".toList ++
      (if fHub then twoDigits uiAntenna.toInt else decimal uiAntenna.toInt) ++ ['\r']))
    fun _ response => setterReply (parseSetSingleAntenna · 0 false)
      (fun _ => uiAntenna = pnResult) rfidErrEchoResult response

/-- The text behind the letter of the commands `N1` and `N5`, in the content or in one of its
fields. -/
def commandValue (strContent : Str) : Option (Option Str) := do
  if (← strContent[0]?) ≠ 'N' then fieldOfLetter 'N' (token strContent '-')
  else
    let strValue ← substr strContent 1 (sizeSub strContent.length 1)
    some (some strValue)

/-- The conversion of the number is commented out, and nothing is stored. -/
def parseSetRegulation (lpBuffer : Str) (pnResult : Int) : Option (Bool × Int) := do
  let strContent ← getContent lpBuffer
  match ← commandValue strContent with
  | some _ => some (true, pnResult)
  | none => some (false, pnResult)

def parseGetRegulation (lpBuffer : Str) (emRegulation : Int) : Option (Bool × Int) := do
  let strContent ← getContent lpBuffer
  match ← commandValue strContent with
  | some strValue => some (true, longToInt (strtol strValue 10))
  | none => some (false, emRegulation)

def setRegulation (emRegulation : Int) : Exchange (Option Int) :=
  .send rfPtReqSetRegulation
    (snprintf ("\nN5,".toList ++ twoDigits emRegulation ++ ['\r']))
    fun _ response => setterReply (parseSetRegulation · 0)
      (fun nResult => emRegulation = nResult) rfidErrRegulation response

/-- The reply names the antenna: `Antenna` and a text that is no error and is read as the
number. -/
def NamesAntenna (n : BitVec 32) (response : Str) : Prop :=
  ∃ value, getContent response = some ("Antenna".toList ++ value) ∧ value ≠ [] ∧
    ¬ strSetError <+: value ∧ BitVec.ofInt 32 (strtol value 10) = n

/-- The reply names the regulation: the text behind the command's letter is read as the number. -/
def NamesRegulation (n : Int) (response : Str) : Prop :=
  ∃ content value, getContent response = some content ∧
    commandValue content = some (some value) ∧ longToInt (strtol value 10) = n

theorem mem_of_mem_line {s : Str} {ch : Char} (h : ch ∈ line s) : ch ∈ s := by
  have hfeed : ∀ c ∈ afterFeed s, c ∈ s := by
    obtain ⟨lead, -, -, hs⟩ := exists_lead s
    intro c hc
    rw [← hs]
    exact List.mem_append_right lead hc
  unfold line at h
  split at h
  · exact hfeed ch ((List.takeWhile_prefix isDot).subset h)
  · exact h

/-- A content has no zero. -/
theorem cStr_content {response content : Str} (h : getContent response = some content) :
    cStr content = content := by
  have hzero : '\x00' ∉ line (cStr response) := by
    intro hmem
    exact absurd (List.mem_takeWhile_imp (mem_of_mem_line hmem)) (by decide)
  rw [getContent_eq] at h
  cases hline : line (cStr response) with
  | nil =>
      rw [hline] at h
      exact absurd h.symm (Option.some_ne_none content)
  | cons ch rest =>
      rw [hline] at h hzero
      apply cStr_eq_self
      obtain rfl := Option.some.inj h
      split
      · exact fun hmem => hzero (List.mem_cons_of_mem ch hmem)
      · exact hzero

/-- A text behind the keyword is read as the number of an antenna, if there is one. -/
theorem parseAntennaHub_text {value : Str}
    (hzero : cStr (textRfidAntenna ++ value) = textRfidAntenna ++ value) (fHub : Bool) :
    ∃ hub, parseAntennaHub (textRfidAntenna ++ value) fHub =
      if value = [] then none else some (BitVec.ofInt 32 (strtol value 10), hub) := by
  unfold parseAntennaHub
  rw [hzero]
  cases value with
  | nil => exact ⟨fHub, rfl⟩
  | cons ch rest =>
      have hlen : textRfidAntenna.length < (textRfidAntenna ++ ch :: rest).length := by
        rw [List.length_append, List.length_cons]
        omega
      simp only [List.take_left, hlen, and_self, if_true, List.drop_left]
      exact ⟨_, rfl⟩

/-- The parser accepts the replies that name an antenna, and takes the number from them. -/
theorem parseSetSingleAntenna_iff {response : Str} {n old : BitVec 32} {oldHub : Bool} :
    (∃ fHub, parseSetSingleAntenna response old oldHub = some (true, n, fHub)) ↔
      NamesAntenna n response := by
  have hkeyword : textRfidAntenna = "Antenna".toList := rfl
  unfold parseSetSingleAntenna NamesAntenna
  constructor
  · rintro ⟨fHub, h⟩
    obtain ⟨content, hcontent, hparsed⟩ := Option.bind_eq_some_iff.mp h
    cases hvalue : settingValue "Antenna".toList content with
    | none => exact absurd (congrArg Prod.fst (Option.some.inj (hvalue ▸ hparsed))) (by simp)
    | some value =>
        obtain ⟨rfl, herror⟩ := settingValue_eq_some_iff.mp hvalue
        have hzero := cStr_content hcontent
        obtain ⟨hub, hnumber⟩ := parseAntennaHub_text (hkeyword ▸ hzero) false
        rw [← hkeyword] at hzero hvalue
        rw [← hkeyword, hvalue] at hparsed
        simp only [hzero, hnumber] at hparsed
        by_cases hne : value = []
        · rw [if_pos hne] at hparsed
          exact absurd (congrArg Prod.fst (Option.some.inj hparsed)) (by simp)
        · rw [if_neg hne] at hparsed
          exact ⟨value, hcontent, hne, herror,
            congrArg (fun p => p.2.1) (Option.some.inj hparsed)⟩
  · rintro ⟨value, hcontent, hne, herror, rfl⟩
    have hzero := cStr_content hcontent
    rw [← hkeyword] at hcontent hzero ⊢
    have hvalue : settingValue textRfidAntenna (textRfidAntenna ++ value) = some value :=
      settingValue_eq_some_iff.mpr ⟨rfl, herror⟩
    obtain ⟨hub, hnumber⟩ := parseAntennaHub_text hzero false
    rw [if_neg hne] at hnumber
    exact ⟨hub, by
      simp only [hcontent, Option.bind_eq_bind, Option.bind_some, hvalue, hzero, hnumber]⟩

/-- What is stored when a value stands behind the command's letter. -/
theorem commandReply_iff {α : Type} (stores : Str → α) (old x : α) (response : Str) :
    ((getContent response).bind fun strContent => (commandValue strContent).bind fun found =>
      match found with
      | some strValue => some (true, stores strValue)
      | none => some (false, old)) = some (true, x) ↔
        ∃ content value, getContent response = some content ∧
          commandValue content = some (some value) ∧ stores value = x := by
  constructor
  · intro h
    obtain ⟨content, hcontent, hfound⟩ := Option.bind_eq_some_iff.mp h
    obtain ⟨found, hvalue, hparsed⟩ := Option.bind_eq_some_iff.mp hfound
    cases found with
    | none => exact absurd (congrArg Prod.fst (Option.some.inj hparsed)) (by simp)
    | some value =>
        exact ⟨content, value, hcontent, hvalue, congrArg Prod.snd (Option.some.inj hparsed)⟩
  · rintro ⟨content, value, hcontent, hvalue, rfl⟩
    simp only [hcontent, hvalue, Option.bind_some]

/-- The parser accepts the replies that name a regulation, and stores nothing. -/
theorem parseSetRegulation_iff {response : Str} {old stored : Int} :
    parseSetRegulation response old = some (true, stored) ↔
      (∃ n, NamesRegulation n response) ∧ stored = old := by
  refine (commandReply_iff (fun _ => old) old stored response).trans ?_
  constructor
  · rintro ⟨content, value, hcontent, hvalue, hstored⟩
    exact ⟨⟨_, content, value, hcontent, hvalue, rfl⟩, hstored.symm⟩
  · rintro ⟨⟨n, content, value, hcontent, hvalue, -⟩, hstored⟩
    exact ⟨content, value, hcontent, hvalue, hstored.symm⟩

theorem parseGetRegulation_iff {response : Str} {n old : Int} :
    parseGetRegulation response old = some (true, n) ↔ NamesRegulation n response :=
  commandReply_iff (fun strValue => longToInt (strtol strValue 10)) old n response

theorem after_setSingleAntenna (uiAntenna : BitVec 32) (fHub : Bool) (pnResult : BitVec 32)
    (nSend : Int) (response : Str) :
    (setSingleAntenna uiAntenna fHub pnResult).after nSend response =
      setterReply (parseSetSingleAntenna · 0 false) (fun _ => uiAntenna = pnResult)
        rfidErrEchoResult response := rfl

theorem setSingleAntenna_ok_iff (uiAntenna : BitVec 32) (fHub : Bool) (pnResult : BitVec 32)
    (nSend : Int) (response : Str) :
    (setSingleAntenna uiAntenna fHub pnResult).after nSend response = some rfidOk ↔
      (∃ n, NamesAntenna n response) ∧ uiAntenna = pnResult := by
  rw [after_setSingleAntenna, setterReply_ok_iff (by decide) rfl]
  constructor
  · rintro ⟨⟨n, hub⟩, hparsed, hsame⟩
    exact ⟨⟨n, parseSetSingleAntenna_iff.mp ⟨hub, hparsed⟩⟩, of_decide_eq_true hsame⟩
  · rintro ⟨⟨n, hn⟩, hsame⟩
    obtain ⟨hub, hparsed⟩ := parseSetSingleAntenna_iff.mpr hn
    exact ⟨(n, hub), hparsed, decide_eq_true hsame⟩

theorem setRegulation_ok_iff (emRegulation nSend : Int) (response : Str) :
    (setRegulation emRegulation).after nSend response = some rfidOk ↔
      (∃ n, NamesRegulation n response) ∧ emRegulation = 0 := by
  have hafter : (setRegulation emRegulation).after nSend response =
      setterReply (parseSetRegulation · 0) (fun nResult => emRegulation = nResult)
        rfidErrRegulation response := rfl
  rw [hafter, setterReply_ok_iff (by decide) rfl]
  simp only [parseSetRegulation_iff, decide_eq_true_eq, and_assoc, exists_and_left, exists_eq_left]

/-- The setter of an antenna is judged by the number in the reply. -/
def JudgesAntenna (uiAntenna : BitVec 32) (fHub : Bool) (pnResult : BitVec 32) (nSend : Int)
    (response : Str) : Prop :=
  (setSingleAntenna uiAntenna fHub pnResult).after nSend response = some rfidOk ↔
    ∃ fReturnHub, parseSetSingleAntenna response 0 false = some (true, uiAntenna, fReturnHub)

/-- The setter of a regulation is judged by the number in the reply, as the getter reads it. -/
def JudgesRegulation (emRegulation nSend : Int) (response : Str) : Prop :=
  (setRegulation emRegulation).after nSend response = some rfidOk ↔
    (∃ nResult, parseSetRegulation response 0 = some (true, nResult)) ∧
      parseGetRegulation response 0 = some (true, emRegulation)

/-- What the caller's variable holds does not change the result. -/
def IndependentOfPrior (uiAntenna : BitVec 32) (fHub : Bool) (nSend : Int) (response : Str) :
    Prop :=
  ∀ pnResult pnResult' : BitVec 32,
    (setSingleAntenna uiAntenna fHub pnResult).after nSend response =
      (setSingleAntenna uiAntenna fHub pnResult').after nSend response

theorem judgesAntenna_iff (uiAntenna : BitVec 32) (fHub : Bool) (pnResult : BitVec 32)
    (nSend : Int) (response : Str) :
    JudgesAntenna uiAntenna fHub pnResult nSend response ↔
      ((∃ n, NamesAntenna n response) →
        (uiAntenna = pnResult ↔ NamesAntenna uiAntenna response)) := by
  rw [JudgesAntenna, setSingleAntenna_ok_iff, parseSetSingleAntenna_iff]
  constructor
  · intro h hnames
    exact ⟨fun heq => h.mp ⟨hnames, heq⟩, fun hname => (h.mpr hname).2⟩
  · intro h
    exact ⟨fun hok => (h hok.1).mp hok.2, fun hname => ⟨⟨_, hname⟩, (h ⟨_, hname⟩).mpr hname⟩⟩

theorem independentOfPrior_iff (uiAntenna : BitVec 32) (fHub : Bool) (nSend : Int)
    (response : Str) :
    IndependentOfPrior uiAntenna fHub nSend response ↔ ¬ ∃ n, NamesAntenna n response := by
  constructor
  · intro hsame hnames
    have hok := (setSingleAntenna_ok_iff uiAntenna fHub uiAntenna nSend response).mpr
      ⟨hnames, rfl⟩
    rw [hsame uiAntenna (uiAntenna + 1), setSingleAntenna_ok_iff] at hok
    exact absurd hok.2 (by bv_omega)
  · intro hnames pnResult pnResult'
    have hrefused : ∀ result : BitVec 32 × Bool,
        parseSetSingleAntenna response 0 false ≠ some (true, result) := by
      rintro ⟨n, hub⟩ hparsed
      exact hnames ⟨n, parseSetSingleAntenna_iff.mp ⟨hub, hparsed⟩⟩
    rw [after_setSingleAntenna, after_setSingleAntenna]
    exact setterReply_of_refused (parseSetSingleAntenna · 0 false) hrefused _ _ _

theorem judgesRegulation_iff (emRegulation nSend : Int) (response : Str) :
    JudgesRegulation emRegulation nSend response ↔
      ((∃ n, NamesRegulation n response) →
        (emRegulation = 0 ↔ NamesRegulation emRegulation response)) := by
  rw [JudgesRegulation, setRegulation_ok_iff, parseGetRegulation_iff]
  simp only [parseSetRegulation_iff, exists_and_left, exists_eq, and_true]
  constructor
  · intro h hnames
    exact ⟨fun hzero => (h.mp ⟨hnames, hzero⟩).2, fun hname => (h.mpr ⟨hnames, hname⟩).2⟩
  · intro h
    exact ⟨fun hok => ⟨hok.1, (h hok.1).mp hok.2⟩, fun hname => ⟨hname.1, (h hname.1).mpr hname.2⟩⟩

/-- The antenna's setter judges the reply for every prior content and does not depend on it
exactly if the reply names no antenna, and for one prior content if that is the antenna sent
exactly where the reply names it; the regulation's setter judges a reply that names a regulation
exactly if that is the one sent and nought, or neither. -/
theorem setters_judge_reply_iff (nSend : Int) (response : Str) :
    (∀ (uiAntenna : BitVec 32) (fHub : Bool),
      ((∀ pnResult, JudgesAntenna uiAntenna fHub pnResult nSend response) ∧
          IndependentOfPrior uiAntenna fHub nSend response ↔ ¬ ∃ n, NamesAntenna n response) ∧
        ∀ pnResult, JudgesAntenna uiAntenna fHub pnResult nSend response ↔
          ((∃ n, NamesAntenna n response) →
            (uiAntenna = pnResult ↔ NamesAntenna uiAntenna response))) ∧
      ∀ emRegulation, JudgesRegulation emRegulation nSend response ↔
        ((∃ n, NamesRegulation n response) →
          (emRegulation = 0 ↔ NamesRegulation emRegulation response)) := by
  refine ⟨fun uiAntenna fHub => ⟨?_, fun pnResult => judgesAntenna_iff _ _ _ _ _⟩,
    fun emRegulation => judgesRegulation_iff _ _ _⟩
  rw [independentOfPrior_iff]
  constructor
  · exact fun h => h.2
  · intro hnames
    exact ⟨fun pnResult => (judgesAntenna_iff _ _ _ _ _).mpr fun h => absurd h hnames, hnames⟩

/-- Antenna 2 is confirmed by a reply of antenna 3 where the caller's variable holds 2, and not by
its own reply where that holds nothing; regulation 1 is not confirmed by its own reply. -/
theorem leftover_judged :
    (setSingleAntenna 2 false 2).after 1 "@Antenna3".toList = some rfidOk ∧
      (setSingleAntenna 2 false 0).after 1 "@Antenna2".toList = some rfidErrEchoResult ∧
      (setRegulation 1).after 1 "@N01".toList = some rfidErrRegulation ∧
      ¬ JudgesAntenna 2 false 2 1 "@Antenna3".toList ∧
      ¬ IndependentOfPrior 2 false 1 "@Antenna2".toList ∧
      ¬ JudgesRegulation 1 1 "@N01".toList := by
  have hthree : (setSingleAntenna 2 false 2).after 1 "@Antenna3".toList = some rfidOk := by decide
  have htwo : (setSingleAntenna 2 false 0).after 1 "@Antenna2".toList = some rfidErrEchoResult := by
    decide
  have hone : (setRegulation 1).after 1 "@N01".toList = some rfidErrRegulation := by decide
  refine ⟨hthree, htwo, hone, fun hjudged => ?_, fun hsame => ?_, fun hjudged => ?_⟩
  · obtain ⟨hub, hparsed⟩ := hjudged.mp hthree
    exact absurd hparsed (by decide +revert)
  · exact absurd (htwo.symm.trans (hsame 0 2)) (by decide)
  · have hok := hjudged.mpr ⟨⟨0, by decide⟩, by decide⟩
    exact absurd (hone.symm.trans hok) (by decide)

end RfidEngine.RfidInterface
