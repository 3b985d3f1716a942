import RfidEngine.RfidInterface.Conversions
import RfidEngine.RfidInterface.Heartbeat

/-!
# RfidInterface: the loop settings

`SetLoopAntenna` and `SetLoopTime` send a 32-bit number and compare it with the
number in the response. What stands behind the keyword is read with `strtoul`,
which stops at the first character that is no digit; nothing looks at the rest.

## Main results

The responses that confirm exactly the number they name, and the number that
every other response confirms as well.
-/

namespace RfidEngine.RfidInterface

open Numerals

def rfPtReqSetLoopAntenna : Nat := 0x15
def rfPtReqSetLoopTime : Nat := 0x17

def strSetError : Str := "SetError".toList

/-- What stands behind the keyword in a content, unless it starts with `SetError`. -/
def settingValue (strKeyword strContent : Str) : Option Str :=
  if strContent.take strKeyword.length = strKeyword then
    let strValue := strContent.drop strKeyword.length
    if strValue.take strSetError.length ≠ strSetError then some strValue else none
  else none

/-- The parser of a loop setting. -/
def parseSetLoop (strKeyword : Str) (base : Nat) (lpBuffer : Str) (pnResult : BitVec 32) :
    Option (Bool × BitVec 32) := do
  let strContent ← getContent lpBuffer
  match settingValue strKeyword strContent with
  | some strValue => some (true, BitVec.ofNat 32 (strtoul strValue base))
  | none => some (false, pnResult)

def parseSetLoopAntenna : Str → BitVec 32 → Option (Bool × BitVec 32) :=
  parseSetLoop "LoopAntenna".toList 16

def parseSetLoopTime : Str → BitVec 32 → Option (Bool × BitVec 32) :=
  parseSetLoop "LoopTime".toList 10

/-- The result code of a setter: what its parser takes from the response is compared, and a
difference has a code of its own. -/
def setterReply {ω : Type} (parse : Str → Option (Bool × ω)) (same : ω → Bool) (differs : Int)
    (response : Str) : Option Int :=
  if response.length > 0 then do
    let (fParsed, result) ← parse response
    some (if fParsed then if same result then rfidOk else differs else rfidErrParse)
  else some rfidErrNoResponse

/-- A setter that compares the number it sends with that in the response. -/
def setLoop (uiCommandType : Nat) (szSend : Str)
    (parse : Str → BitVec 32 → Option (Bool × BitVec 32)) (v : BitVec 32) :
    Exchange (Option Int) :=
  .send uiCommandType (snprintf szSend) fun _ response =>
    setterReply (parse · 0) (fun uiResult => v = uiResult) rfidErrEchoResult response

/-- `\n@LoopAntenna%08X\r` -/
def setLoopAntenna (uiAntennas : BitVec 32) : Exchange (Option Int) :=
  setLoop rfPtReqSetLoopAntenna
    ("\n@LoopAntenna".toList ++ (upperHex uiAntennas.toNat).leftpad 8 '0' ++ ['\r'])
    parseSetLoopAntenna uiAntennas

/-- `\n@LoopTime%d\r`: the number is printed as an `int`. -/
def setLoopTime (uiMilliseconds : BitVec 32) : Exchange (Option Int) :=
  setLoop rfPtReqSetLoopTime ("\n@LoopTime".toList ++ decimal uiMilliseconds.toInt ++ ['\r'])
    parseSetLoopTime uiMilliseconds

theorem settingValue_eq_some_iff {strKeyword content value : Str} :
    settingValue strKeyword content = some value ↔
      content = strKeyword ++ value ∧ ¬ strSetError <+: value := by
  have hprefix : ∀ u v : Str, v.take u.length = u ↔ u <+: v :=
    fun u v => eq_comm.trans List.prefix_iff_eq_take.symm
  simp only [settingValue, ne_eq, hprefix]
  constructor
  · intro h
    split at h
    · rename_i hkeyword
      obtain ⟨rest, rfl⟩ := hkeyword
      rw [List.drop_left] at h
      by_cases herror : strSetError <+: rest
      · rw [if_neg (not_not.mpr herror)] at h
        exact absurd h.symm (Option.some_ne_none value)
      · rw [if_pos herror, Option.some.injEq] at h
        exact ⟨h ▸ rfl, h ▸ herror⟩
    · exact absurd h.symm (Option.some_ne_none value)
  · rintro ⟨rfl, herror⟩
    rw [if_pos (List.prefix_append _ _), List.drop_left, if_pos herror]

/-- The result is `RFID_OK` exactly if the parser accepts the response and nothing differs. -/
theorem setterReply_ok_iff {ω : Type} {parse : Str → Option (Bool × ω)} {same : ω → Bool}
    {differs : Int} {response : Str} (hdiffers : differs ≠ rfidOk) (hnil : parse [] = none) :
    setterReply parse same differs response = some rfidOk ↔
      ∃ result, parse response = some (true, result) ∧ same result = true := by
  have hparse : rfidErrParse ≠ rfidOk := by decide
  unfold setterReply
  constructor
  · intro h
    split at h
    · obtain ⟨⟨fParsed, result⟩, hparsed, hcode⟩ := Option.bind_eq_some_iff.mp h
      cases fParsed with
      | false => exact absurd (Option.some.inj hcode) hparse
      | true =>
          cases hsame : same result with
          | true => exact ⟨result, hparsed, hsame⟩
          | false =>
              simp only [if_true, hsame, Bool.false_eq_true, if_false] at hcode
              exact absurd (Option.some.inj hcode) hdiffers
    · exact absurd (Option.some.inj h) (by decide)
  · rintro ⟨result, hparsed, hsame⟩
    have hne : response ≠ [] := by
      rintro rfl
      exact absurd (hnil.symm.trans hparsed) (Option.some_ne_none _).symm
    rw [if_pos (List.length_pos_iff.mpr hne), hparsed]
    simp only [Option.bind_eq_bind, Option.bind_some, if_true, hsame]

/-- Nothing is compared with a response that the parser refuses. -/
theorem setterReply_of_refused {ω : Type} (parse : Str → Option (Bool × ω)) {response : Str}
    (hrefused : ∀ result, parse response ≠ some (true, result)) (same same' : ω → Bool)
    (differs : Int) :
    setterReply parse same differs response = setterReply parse same' differs response := by
  unfold setterReply
  cases hparsed : parse response with
  | none => rfl
  | some parsed =>
      obtain ⟨fParsed, result⟩ := parsed
      cases fParsed with
      | false => rfl
      | true => exact absurd hparsed (hrefused result)

/-- The two settings. -/
inductive LoopSetting where
  | antenna
  | time

namespace LoopSetting

def set : LoopSetting → BitVec 32 → Exchange (Option Int)
  | antenna => setLoopAntenna
  | time => setLoopTime

def keyword : LoopSetting → Str
  | antenna => "LoopAntenna".toList
  | time => "LoopTime".toList

def base : LoopSetting → Nat
  | antenna => 16
  | time => 10

/-- The text of the number that is sent. -/
def argument (v : BitVec 32) : LoopSetting → Str
  | antenna => (upperHex v.toNat).leftpad 8 '0'
  | time => decimal v.toInt

/-- A numeral that denotes the number, or the text that is sent for it. -/
def Denotes (s : LoopSetting) (v : BitVec 32) (value : Str) : Prop :=
  value ≠ [] ∧ (∀ ch ∈ value, digitValue ch < s.base) ∧ read s.base digitValue value = v.toNat ∨
    value = s.argument v

/-- The response, without a leading `@`, is the keyword with a text that denotes the number. -/
def Confirmed (s : LoopSetting) (v : BitVec 32) (response : Str) : Prop :=
  ∃ value, (response = '@' :: (s.keyword ++ value) ∨ response = s.keyword ++ value) ∧
    s.Denotes v value

/-- If the content of the response starts with the keyword and goes on otherwise than with
`SetError`, then it is all of the response and denotes a number. -/
def BareEcho (s : LoopSetting) (response : Str) : Prop :=
  ∀ value, getContent response = some (s.keyword ++ value) → ¬ strSetError <+: value →
    (response = '@' :: (s.keyword ++ value) ∨ response = s.keyword ++ value) ∧
      ∃ v, s.Denotes v value

/-- What the parser of a setting accepts. -/
theorem parseSetLoop_eq_true_iff {strKeyword lpBuffer : Str} {base : Nat} {old x : BitVec 32} :
    parseSetLoop strKeyword base lpBuffer old = some (true, x) ↔
      ∃ value, getContent lpBuffer = some (strKeyword ++ value) ∧ ¬ strSetError <+: value ∧
        BitVec.ofNat 32 (strtoul value base) = x := by
  unfold parseSetLoop
  constructor
  · intro h
    obtain ⟨content, hcontent, hparsed⟩ := Option.bind_eq_some_iff.mp h
    cases hvalue : settingValue strKeyword content with
    | none => exact absurd (congrArg Prod.fst (Option.some.inj (hvalue ▸ hparsed))) (by simp)
    | some value =>
        obtain ⟨rfl, herror⟩ := settingValue_eq_some_iff.mp hvalue
        rw [hvalue] at hparsed
        exact ⟨value, hcontent, herror, congrArg Prod.snd (Option.some.inj hparsed)⟩
  · rintro ⟨value, hcontent, herror, rfl⟩
    have hvalue : settingValue strKeyword (strKeyword ++ value) = some value :=
      settingValue_eq_some_iff.mpr ⟨rfl, herror⟩
    simp only [hcontent, Option.bind_eq_bind, Option.bind_some, hvalue]

/-- The result is `RFID_OK` exactly for the number that is read behind the keyword. -/
theorem set_ok_iff (s : LoopSetting) (v : BitVec 32) (nSend : Int) (response : Str) :
    (s.set v).after nSend response = some rfidOk ↔
      ∃ value, getContent response = some (s.keyword ++ value) ∧ ¬ strSetError <+: value ∧
        BitVec.ofNat 32 (strtoul value s.base) = v := by
  have hafter : (s.set v).after nSend response =
      setterReply (parseSetLoop s.keyword s.base · 0) (fun uiResult => v = uiResult)
        rfidErrEchoResult response := by
    cases s with
    | antenna => rfl
    | time => rfl
  rw [hafter, setterReply_ok_iff (by decide) rfl]
  simp only [decide_eq_true_eq, exists_eq_right', parseSetLoop_eq_true_iff]

/-- A number that is printed as an `int` and read back keeps its 32 bits. -/
theorem strtoul_decimal_toInt (v : BitVec 32) :
    BitVec.ofNat 32 (strtoul (decimal v.toInt) 10) = v := by
  have hlow := BitVec.le_toInt v
  have hhigh := BitVec.toInt_lt (x := v)
  have hlong : ∀ {m : Nat}, (m : Int) ≤ 2147483648 → m ≤ ulongMax := by
    intro m hm
    unfold ulongMax
    omega
  obtain ⟨m, hm, hprinted⟩ | ⟨m, hpos, hm, hprinted⟩ := decimal_cases v.toInt
  · rw [hprinted, strtoul_of_digits (by decide) fun _ => digitValue_toDigits, read_decimal,
      Nat.min_eq_right (hlong (by omega)), ← BitVec.ofInt_natCast, ← hm, BitVec.ofInt_toInt]
  · have hread := read_decimal m
    rw [hprinted, strtoul_minus (by decide) (fun _ => digitValue_toDigits) (hread.symm ▸ hpos)
      (hread.symm ▸ hlong (by omega)), hread]
    apply BitVec.eq_of_toInt_eq
    have hwrapped : ((ulongMax + 1 - m : Nat) : Int) = 18446744073709551616 - m := by
      unfold ulongMax
      omega
    rw [BitVec.toInt_ofNat', hwrapped, hm, Int.bmod_def]
    split <;> omega

theorem argument_digits (v : BitVec 32) :
    (∀ ch ∈ antenna.argument v, digitValue ch < 16) ∧
      read 16 digitValue (antenna.argument v) = v.toNat :=
  leftpad_upperHex 8 v.toNat

/-- A text that denotes a number is read as that number. -/
theorem Denotes.read_eq {s : LoopSetting} {v : BitVec 32} {value : Str} (h : s.Denotes v value) :
    BitVec.ofNat 32 (strtoul value s.base) = v := by
  have hv := v.isLt
  have hnumeral : ∀ {base : Nat}, base ≤ 36 → (∀ ch ∈ value, digitValue ch < base) →
      read base digitValue value = v.toNat → BitVec.ofNat 32 (strtoul value base) = v := by
    intro base hbase hdigits hread
    rw [strtoul_of_digits hbase hdigits, hread, Nat.min_eq_right (by unfold ulongMax; omega),
      BitVec.ofNat_toNat, BitVec.setWidth_eq]
  obtain ⟨-, hdigits, hread⟩ | rfl := h
  · cases s with
    | antenna => exact hnumeral (by decide) hdigits hread
    | time => exact hnumeral (by decide) hdigits hread
  · cases s with
    | antenna => exact hnumeral (by decide) (argument_digits v).1 (argument_digits v).2
    | time => exact strtoul_decimal_toInt v

theorem keyword_at (s : LoopSetting) (value : Str) :
    ∃ ch rest, s.keyword ++ value = ch :: rest ∧ ch ≠ '@' := by
  cases s with
  | antenna => exact ⟨'L', _, rfl, by decide⟩
  | time => exact ⟨'L', _, rfl, by decide⟩

theorem base_le (s : LoopSetting) : s.base ≤ 16 := by
  cases s <;> decide

theorem length_argument (s : LoopSetting) (v : BitVec 32) : (s.argument v).length ≤ 11 := by
  have hv := v.isLt
  cases s with
  | antenna =>
      have hlen := length_leftpad_upperHex (k := 8) (by omega) hv
      rw [argument]
      omega
  | time =>
      have hdigits : ∀ {m : Nat}, m < 10 ^ 10 → (Nat.toDigits 10 m).length ≤ 10 :=
        fun hm => (Nat.length_toDigits_le_iff (by omega) (by omega)).mpr hm
      have hlow := BitVec.le_toInt v
      have hhigh := BitVec.toInt_lt (x := v)
      obtain ⟨m, hm, hprinted⟩ | ⟨m, -, hm, hprinted⟩ := decimal_cases v.toInt
      · have hlen := hdigits (m := m) (by omega)
        rw [argument, hprinted]
        omega
      · have hlen := hdigits (m := m) (by omega)
        rw [argument, hprinted, List.length_cons]
        omega

/-- The number is sent behind the keyword, whole. -/
theorem sent_set (s : LoopSetting) (v : BitVec 32) :
    (s.set v).sent = some ("\n@".toList ++ (s.keyword ++ s.argument v) ++ ['\r']) := by
  have hlen := s.length_argument v
  have hkeyword : s.keyword.length ≤ 11 := by cases s <;> decide
  have hsent : (s.set v).sent =
      some (snprintf ("\n@".toList ++ (s.keyword ++ s.argument v) ++ ['\r'])) := by
    cases s <;> rfl
  rw [hsent, snprintf_eq_self]
  simp only [List.length_append, List.length_singleton]
  have hlead : "\n@".toList.length = 2 := rfl
  omega

/-- What stands in a text that denotes a number. -/
theorem Denotes.mem {s : LoopSetting} {v : BitVec 32} {value : Str} (h : s.Denotes v value)
    {ch : Char} (hch : ch ∈ value) : digitValue ch < 16 ∨ ch = '-' := by
  obtain ⟨-, hdigits, -⟩ | rfl := h
  · exact .inl (Nat.lt_of_lt_of_le (hdigits ch hch) s.base_le)
  · cases s with
    | antenna => exact .inl ((argument_digits v).1 ch hch)
    | time =>
        obtain ⟨m, -, hprinted⟩ | ⟨m, -, -, hprinted⟩ := decimal_cases v.toInt
        · rw [argument, hprinted] at hch
          exact .inl (Nat.lt_trans (digitValue_toDigits hch) (by decide))
        · rw [argument, hprinted, List.mem_cons] at hch
          obtain rfl | hch := hch
          · exact .inr rfl
          · exact .inl (Nat.lt_trans (digitValue_toDigits hch) (by decide))

/-- A confirmation is a response of one line, and no error. -/
theorem Confirmed.content {s : LoopSetting} {v : BitVec 32} {response value : Str}
    (hresponse : response = '@' :: (s.keyword ++ value) ∨ response = s.keyword ++ value)
    (h : s.Denotes v value) :
    getContent response = some (s.keyword ++ value) ∧ ¬ strSetError <+: value := by
  have hne : ∀ c, digitValue c = 36 → c ≠ '-' → c ∉ value := by
    intro c hc hminus hmem
    obtain hdigit | heq := h.mem hmem
    · rw [hc] at hdigit
      exact absurd hdigit (by decide)
    · exact hminus heq
  have hkeyword : '\x00' ∉ s.keyword ∧ ∀ ch ∈ s.keyword, isDot ch = true := by
    cases s with
    | antenna => exact ⟨by decide, List.all_eq_true.mp rfl⟩
    | time => exact ⟨by decide, List.all_eq_true.mp rfl⟩
  have hzero : '\x00' ∉ s.keyword ++ value := by
    rw [List.mem_append, not_or]
    exact ⟨hkeyword.1, hne _ rfl (by decide)⟩
  have hdot : ∀ ch ∈ s.keyword ++ value, isDot ch = true := by
    refine List.forall_mem_append.mpr ⟨hkeyword.2, fun ch hch => isDot_iff.mpr ⟨?_, ?_⟩⟩
    · exact ne_of_mem_of_not_mem hch (hne '\n' rfl (by decide))
    · exact ne_of_mem_of_not_mem hch (hne '\r' rfl (by decide))
  refine ⟨?_, fun herror => ?_⟩
  · obtain rfl | rfl := hresponse
    · exact getContent_at hzero hdot
    · obtain ⟨ch, rest, heq, hch⟩ := s.keyword_at value
      rw [heq] at hzero hdot ⊢
      rw [getContent_cons hzero hdot, if_neg hch]
  · have hmem : 'S' ∈ value := herror.subset (by decide)
    obtain hdigit | heq := h.mem hmem
    · exact absurd hdigit (by decide)
    · exact absurd heq (by decide)

/-- A confirmed number is accepted. -/
theorem ok_of_confirmed {s : LoopSetting} {v : BitVec 32} {response : Str}
    (h : s.Confirmed v response) (nSend : Int) :
    (s.set v).after nSend response = some rfidOk := by
  obtain ⟨value, hresponse, hdenotes⟩ := h
  obtain ⟨hcontent, herror⟩ := Confirmed.content hresponse hdenotes
  exact (set_ok_iff s v nSend response).mpr ⟨value, hcontent, herror, hdenotes.read_eq⟩

/-- The response is judged as its confirmation. -/
def Judged (s : LoopSetting) (v : BitVec 32) (nSend : Int) (response : Str) : Prop :=
  (s.set v).after nSend response = some rfidOk ↔ s.Confirmed v response

/-- The number that the response is read as, if it is read. -/
def ReadAs (s : LoopSetting) (v : BitVec 32) (response : Str) : Prop :=
  ∃ value, getContent response = some (s.keyword ++ value) ∧
    BitVec.ofNat 32 (strtoul value s.base) = v

theorem judged_iff (s : LoopSetting) (v : BitVec 32) (nSend : Int) (response : Str) :
    s.Judged v nSend response ↔ s.BareEcho response ∨ ¬ s.ReadAs v response := by
  constructor
  · intro hjudged
    by_cases hread : s.ReadAs v response
    · refine .inl fun value hcontent herror => ?_
      obtain ⟨value', hcontent', hv⟩ := hread
      obtain rfl : value' = value := by
        have heq := Option.some.inj (hcontent'.symm.trans hcontent)
        exact List.append_cancel_left heq
      obtain ⟨text, hresponse, hdenotes⟩ := hjudged.mp
        ((set_ok_iff s v nSend response).mpr ⟨value', hcontent, herror, hv⟩)
      obtain rfl : text = value' := by
        have heq := (Confirmed.content hresponse hdenotes).1.symm.trans hcontent
        exact List.append_cancel_left (Option.some.inj heq)
      exact ⟨hresponse, v, hdenotes⟩
    · exact .inr hread
  · intro h
    refine ⟨fun hok => ?_, fun hconfirmed => ok_of_confirmed hconfirmed nSend⟩
    obtain ⟨value, hcontent, herror, hv⟩ := (set_ok_iff s v nSend response).mp hok
    obtain hbare | hread := h
    · obtain ⟨hresponse, v', hdenotes⟩ := hbare value hcontent herror
      obtain rfl : v' = v := hdenotes.read_eq.symm.trans hv
      exact ⟨value, hresponse, hdenotes⟩
    · exact absurd ⟨value, hcontent, hv⟩ hread

/-- A response that is judged for every number is a bare echo. -/
theorem forall_judged_iff (s : LoopSetting) (nSend : Int) (response : Str) :
    (∀ v, s.Judged v nSend response) ↔ s.BareEcho response := by
  constructor
  · intro hall value hcontent herror
    have hjudged := hall (BitVec.ofNat 32 (strtoul value s.base))
    obtain hbare | hread := (judged_iff _ _ _ _).mp hjudged
    · exact hbare value hcontent herror
    · exact absurd ⟨value, hcontent, rfl⟩ hread
  · exact fun hbare v => (judged_iff s v nSend response).mpr (.inl hbare)

end LoopSetting

/-- A response is judged as its confirmation for every number exactly if it is a bare echo; any
other response fails for the one number that it is read as. The echo of the text that was sent is
always accepted. -/
theorem loop_settings_judged_iff (s : LoopSetting) (nSend : Int) (response : Str) :
    ((∀ v, s.Judged v nSend response) ↔ s.BareEcho response) ∧
      (∀ v, s.Judged v nSend response ↔ s.BareEcho response ∨ ¬ s.ReadAs v response) ∧
      ∀ v, (s.set v).sent = some ("\n@".toList ++ (s.keyword ++ s.argument v) ++ ['\r']) ∧
        (s.set v).after nSend ('@' :: (s.keyword ++ s.argument v)) = some rfidOk := by
  exact ⟨s.forall_judged_iff nSend response, fun v => s.judged_iff v nSend response,
    fun v => ⟨s.sent_set v, LoopSetting.ok_of_confirmed ⟨_, .inl rfl, .inr rfl⟩ nSend⟩⟩

/-- An error of another command is taken for the antenna set of no antenna, and a keyword alone
for the time of no milliseconds. -/
theorem error_confirms_no_antenna :
    (setLoopAntenna 0).after 1 "@LoopAntennaGetError".toList = some rfidOk ∧
      (setLoopTime 0).after 1 "@LoopTime".toList = some rfidOk ∧
      ¬ LoopSetting.antenna.Judged 0 1 "@LoopAntennaGetError".toList ∧
      ¬ LoopSetting.time.Judged 0 1 "@LoopTime".toList := by
  have hantenna : (setLoopAntenna 0).after 1 "@LoopAntennaGetError".toList = some rfidOk := rfl
  have htime : (setLoopTime 0).after 1 "@LoopTime".toList = some rfidOk := rfl
  refine ⟨hantenna, htime, fun hjudged => ?_, fun hjudged => ?_⟩
  · obtain ⟨value, hresponse, hdenotes⟩ := hjudged.mp hantenna
    have hcontent := (LoopSetting.Confirmed.content hresponse hdenotes).1
    obtain rfl : "GetError".toList = value :=
      @List.append_cancel_left _ LoopSetting.antenna.keyword _ _ (Option.some.inj hcontent)
    have hmem : 'G' ∈ "GetError".toList := by decide
    obtain hdigit | heq := hdenotes.mem hmem
    · exact absurd hdigit (by decide)
    · exact absurd heq (by decide)
  · obtain ⟨value, hresponse, hdenotes⟩ := hjudged.mp htime
    have hcontent := (LoopSetting.Confirmed.content hresponse hdenotes).1
    obtain rfl : [] = value :=
      @List.append_cancel_left _ LoopSetting.time.keyword _ _ (Option.some.inj hcontent)
    obtain ⟨hne, -⟩ | heq := hdenotes
    · exact hne rfl
    · exact absurd heq (by decide)

end RfidEngine.RfidInterface
