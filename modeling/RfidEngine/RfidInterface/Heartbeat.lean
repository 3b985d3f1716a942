import RfidEngine.Framing.Stream
import RfidEngine.RfidInterface.Requests

/-!
# RfidInterface: heartbeats

`OpenHeartbeat` sends its command and looks for an acknowledgement in the
response. On one it would set a function object as the heartbeat callback of
the handler, which hands what it finds in a heartbeat to the user's callback.
The function object refers to the arguments of `OpenHeartbeat`, which end with
the call; here they are taken to last.

## Main result

No response is ever taken for an acknowledgement, the result code is never
`RFID_OK`, and the user's callback is never given a reader's id.
-/

namespace RfidEngine.RfidInterface

open BacktrackRegex AsyncSend

def rfPtReqOpenHeartbeat : Nat := 0x29

/-- `RFID_ERR_NO_RESPONSE` -/
def rfidErrNoResponse : Int := rfidLibScope + 0x07

variable {φ υ : Type*}

/-- The function object with what it captures: the user's callback, which may be empty, and the
user's data. -/
structure HeartbeatProxy (φ υ : Type*) where
  f : Option φ
  userData : υ

/-- A call of the user's callback. -/
structure UserCall (φ υ : Type*) where
  f : φ
  readerId : Str
  userData : υ
  deriving DecidableEq

/-- `..-..-..` -/
def rgxStamp : Regex Char :=
  .seqs [.rep isDot 2, .lit ['-'], .rep isDot 2, .lit ['-'], .rep isDot 2]

/-- `([0-9a-fA-F]+)heartbeat(..-..-..)` -/
def rgxReaderId : Regex Char :=
  .seqs [.group 1 (.plus isHexDigit), .lit "heartbeat".toList, .group 2 rgxStamp]

/-- The body of the function object: it hands out the second group. -/
def HeartbeatProxy.call (cb : HeartbeatProxy φ υ) (response : Str) : List (UserCall φ υ) :=
  match fullMatch rgxReaderId response, cb.f with
  | some indexMatch, some f => [⟨f, Captures.str indexMatch 2, cb.userData⟩]
  | _, _ => []

/-- What the heartbeats that a handler has extracted make of the user's callback. -/
def userCalls (outputs : List (Output (HeartbeatProxy φ υ))) : List (UserCall φ υ) :=
  outputs.flatMap fun
    | .heartbeat cb echo => cb.call echo
    | .pushBack _ => []

/-- `\n@HeardbeatTime=(\d*)\r\n` -/
def rgxHeardbeatTime : Regex Char :=
  .seqs [.lit "\n@HeardbeatTime=".toList, .group 1 (.many isDigit), .lit "\r\n".toList]

/-- The interval is printed as an `int`. -/
def openHeartbeatCommand (uiMilliseconds : Nat) : Command Str :=
  sendCommand rfPtReqOpenHeartbeat
    ("\n@HeardbeatTime".toList ++ decimal (toInt uiMilliseconds) ++ ['\r']) []

/-- `OpenHeartbeat` with the packets that its observer gets; `joinable` is the state of a thread
that nothing starts. -/
def openHeartbeat (joinable : Bool) (cmdHandler : CmdHandler (HeartbeatProxy φ υ))
    (uiMilliseconds : Nat) (f : Option φ) (userData : υ) (packets : List PacketContent) :
    Int × CmdHandler (HeartbeatProxy φ υ) :=
  if joinable then (0, cmdHandler)
  else
    let cmd := openHeartbeatCommand uiMilliseconds
    let response := Judge.final cmd.judge cmd.captured packets
    if response.length > 0 then
      match fullMatch rgxHeardbeatTime response with
      | some _ =>
          (rfidErrOther, { cmdHandler with heartbeatCallbackFunction := some ⟨f, userData⟩ })
      | none => (rfidErrOther, cmdHandler)
    else (rfidErrNoResponse, cmdHandler)

/-- The frame that acknowledges an interval. -/
def acknowledgement (digits : {w : Str // ∀ ch ∈ w, isDigit ch = true}) : Str :=
  "\n@HeardbeatTime=".toList ++ digits ++ "\r\n".toList

/-- The call has succeeded and set its callback, and every heartbeat that the handler extracts
from then on reaches the user's callback once, with the reader's id. -/
structure HeartbeatsReach (opened : Int × CmdHandler (HeartbeatProxy φ υ)) (f : φ) (userData : υ) :
    Prop where
  ok : opened.1 = rfidOk
  installed : opened.2.heartbeatCallbackFunction = some ⟨some f, userData⟩
  called : ∀ b : HeartbeatText,
    userCalls (CmdHandler.emit .heartBeat opened.2.heartbeatCallbackFunction
      ⟨b.text, .heartBeat⟩) = [⟨f, b.id, userData⟩]

/-- The expression matches an acknowledgement as it is received. -/
theorem acknowledgement_matches (digits : {w : Str // ∀ ch ∈ w, isDigit ch = true}) :
    (fullMatch rgxHeardbeatTime (acknowledgement digits)).isSome = true := by
  rw [fullMatch_isSome_iff]
  refine ⟨[(1, digits.1)], ?_⟩
  have hsplit : acknowledgement digits =
      "\n@HeardbeatTime=".toList ++ (digits.1 ++ "\r\n".toList) := List.append_assoc _ _ _
  rw [hsplit]
  simp only [rgxHeardbeatTime, Regex.seqs, derives_seq_lit_iff]
  refine ⟨digits.1 ++ "\r\n".toList, rfl, ?_⟩
  rw [derives_seq_group_iff (P := fun w => ∀ ch ∈ w, isDigit ch = true) fun _ _ _ _ => Iff.rfl]
  refine ⟨digits.1, "\r\n".toList, [], rfl, digits.2, ?_, rfl⟩
  rw [derives_seq_lit_iff]
  exact ⟨[], rfl, rfl, rfl⟩

/-- A trimmed text does not begin with white space. -/
theorem isspace_head_trim {s rest : Str} {ch : Char} (h : trim s = ch :: rest) :
    isspace ch = false := by
  have hprefix : ch :: rest <+: ltrim s := h ▸ List.rdropWhile_prefix isspace (ltrim s)
  obtain ⟨tail, htail⟩ := hprefix
  have hhead := List.head?_dropWhile_not isspace s
  rw [← ltrim, ← htail] at hhead
  exact hhead

/-- No trimmed text is taken for an acknowledgement. -/
theorem fullMatch_rgxHeardbeatTime_trim (s : Str) : fullMatch rgxHeardbeatTime (trim s) = none := by
  cases hmatch : fullMatch rgxHeardbeatTime (trim s) with
  | none => rfl
  | some m =>
      have hderives := fullMatch_sound hmatch
      simp only [rgxHeardbeatTime, Regex.seqs, derives_seq_lit_iff] at hderives
      obtain ⟨v, hv, -⟩ := hderives
      exact absurd (isspace_head_trim hv) (by decide)

/-- What `Send` stores is a trimmed text, also when no packet arrives. -/
theorem exists_response_eq_trim (uiMilliseconds : Nat) (packets : List PacketContent) :
    ∃ s, Judge.final (openHeartbeatCommand uiMilliseconds).judge
      (openHeartbeatCommand uiMilliseconds).captured packets = trim s := by
  induction packets using List.reverseRecOn with
  | nil => exact ⟨[], rfl⟩
  | append_singleton packets pkt =>
      rw [Judge.final_snoc]
      exact ⟨pkt.vtBuffer, rfl⟩

/-- Whatever the response, the handler keeps its callback and the result is not `RFID_OK`. -/
theorem openHeartbeat_spec (joinable : Bool) (h : CmdHandler (HeartbeatProxy φ υ))
    (uiMilliseconds : Nat) (f : Option φ) (userData : υ) (packets : List PacketContent) :
    (openHeartbeat joinable h uiMilliseconds f userData packets).1 ≠ rfidOk ∧
      (openHeartbeat joinable h uiMilliseconds f userData packets).2 = h := by
  obtain ⟨s, hs⟩ := exists_response_eq_trim uiMilliseconds packets
  unfold openHeartbeat
  cases joinable with
  | true => exact ⟨(by decide : (0 : Int) ≠ rfidOk), rfl⟩
  | false =>
      simp only [hs, fullMatch_rgxHeardbeatTime_trim, Bool.false_eq_true, if_false]
      split
      · exact ⟨(by decide : rfidErrOther ≠ rfidOk), rfl⟩
      · exact ⟨(by decide : rfidErrNoResponse ≠ rfidOk), rfl⟩

theorem derives_rgxStamp_iff (b : Bool) (w t : Str) (c : Captures Char) :
    Derives rgxStamp b w t c ↔ (∃ s₁ s₂ s₃ : Str,
      (s₁.length = 2 ∧ ∀ ch ∈ s₁, isDot ch = true) ∧ (s₂.length = 2 ∧ ∀ ch ∈ s₂, isDot ch = true) ∧
      (s₃.length = 2 ∧ ∀ ch ∈ s₃, isDot ch = true) ∧ w = s₁ ++ ['-'] ++ s₂ ++ ['-'] ++ s₃) ∧
        c = [] := by
  simp only [rgxStamp, Regex.seqs, derives_seq_lit_iff, derives_seq_rep_iff, derives_empty_iff]
  constructor
  · rintro ⟨s₁, v, rfl, h₁, v, rfl, s₂, v, rfl, h₂, v, rfl, s₃, v, rfl, h₃, rfl, rfl⟩
    exact ⟨⟨s₁, s₂, s₃, h₁, h₂, h₃, by simp⟩, rfl⟩
  · rintro ⟨⟨s₁, s₂, s₃, h₁, h₂, h₃, rfl⟩, rfl⟩
    exact ⟨s₁, ['-'] ++ (s₂ ++ (['-'] ++ (s₃ ++ []))), by simp, h₁, _, rfl, s₂, _, rfl, h₂, _, rfl,
      s₃, _, rfl, h₃, rfl, rfl⟩

theorem takesFirst_rgxStamp (b : HeartbeatText) : TakesFirst rgxStamp b.stamp := by
  have hpair : ∀ x : HexPair, TakesFirst (.rep isDot 2) x.text := by
    intro x
    refine takesFirst_rep (w := x.text) fun ch hch => isDot_of_isHexDigit ?_
    obtain rfl | rfl : ch = x.hi ∨ ch = x.lo := by simpa [HexPair.text] using hch
    · exact x.hi_hex
    · exact x.lo_hex
  have hdash : TakesFirst (.lit ['-']) ['-'] := takesFirst_lit ['-']
  have hempty : TakesFirst (.empty : Regex Char) [] := fun _ _ => rfl
  have hall := takesFirst_seq (hpair b.first) (takesFirst_seq hdash (takesFirst_seq (hpair b.second)
    (takesFirst_seq hdash (takesFirst_seq (hpair b.third) hempty))))
  simpa [rgxStamp, Regex.seqs, HeartbeatText.stamp] using hall

/-- The function object hands out the stamp of a heartbeat for the reader's id. -/
theorem HeartbeatProxy.call_text (f : φ) (userData : υ) (b : HeartbeatText) :
    HeartbeatProxy.call ⟨some f, userData⟩ b.text = [⟨f, b.stamp, userData⟩] := by
  have hbeat : ∀ ch, ("heartbeat".toList ++ b.stamp).head? = some ch → isHexDigit ch = false := by
    intro ch hch
    obtain rfl : 'h' = ch := Option.some.inj hch
    rfl
  have hid := first_group (i := 1) (first_plus (b := true) b.id_ne b.id_hex hbeat)
  have hstamp : ∀ c, (attempts (.group 2 rgxStamp) c b.stamp).head? =
      some ⟨b.stamp, [], [(2, b.stamp)]⟩ := by
    intro c
    have hfirst := first_group (i := 2) (takesFirst_rgxStamp b c [])
    rwa [List.append_nil] at hfirst
  have hend : ∀ c, (attempts (.empty : Regex Char) c []).head? = some ⟨[], [], []⟩ := fun _ => rfl
  have hall := first_seq hid (first_seq (takesFirst_lit "heartbeat".toList _ _)
    (first_seq (hstamp _) (hend _)))
  rw [← List.append_assoc, ← HeartbeatText.text] at hall
  have hmatch : fullMatch rgxReaderId b.text = some [(2, b.stamp), (1, b.id)] :=
    fullMatch_of_first hall
  rw [HeartbeatProxy.call, hmatch]
  rfl

/-- Whatever the function object hands out has a dash in it. -/
theorem HeartbeatProxy.dash_mem_readerId {cb : HeartbeatProxy φ υ} {response : Str}
    {c : UserCall φ υ} (hc : c ∈ cb.call response) : '-' ∈ c.readerId := by
  unfold HeartbeatProxy.call at hc
  split at hc
  · rename_i m f hmatch hf
    obtain rfl := List.mem_singleton.mp hc
    have hderives := fullMatch_sound hmatch
    have hplus : ∀ b w t c, Derives (.plus isHexDigit) b w t c ↔
        (w ≠ [] ∧ ∀ ch ∈ w, isHexDigit ch = true) ∧ c = [] := by
      intro b w t c
      rw [derives_plus_iff, and_assoc]
    simp only [rgxReaderId, Regex.seqs, derives_seq_group_iff hplus, derives_seq_lit_iff,
      derives_seq_group_iff derives_rgxStamp_iff, derives_empty_iff] at hderives
    obtain ⟨id, -, -, -, -, ⟨-, -, stamp, -, -, -, ⟨s₁, s₂, s₃, -, -, -, hstamp⟩, ⟨-, rfl⟩, rfl⟩,
      rfl⟩ := hderives
    change '-' ∈ stamp
    simp [hstamp]
  · exact absurd hc List.not_mem_nil

theorem dash_mem_of_userCalls {outputs : List (Output (HeartbeatProxy φ υ))} {c : UserCall φ υ}
    (hc : c ∈ userCalls outputs) : '-' ∈ c.readerId := by
  obtain ⟨output, -, hmem⟩ := List.mem_flatMap.mp hc
  cases output with
  | pushBack pkt => exact absurd hmem List.not_mem_nil
  | heartbeat cb echo => exact HeartbeatProxy.dash_mem_readerId hmem

/-- What the user's callback is given is no reader's id. -/
theorem readerId_ne_id {outputs : List (Output (HeartbeatProxy φ υ))} {c : UserCall φ υ}
    (hc : c ∈ userCalls outputs) (b : HeartbeatText) : c.readerId ≠ b.id := by
  intro heq
  have hdash := dash_mem_of_userCalls hc
  rw [heq] at hdash
  exact absurd (b.id_hex '-' hdash) (by decide)

/-- For every interval and every acknowledgement the call does not return `RFID_OK` and sets no
callback, and whatever is received afterwards, the user's callback is not given a reader's
id. -/
theorem heartbeats_never_reach (joinable : Bool) (h : CmdHandler (HeartbeatProxy φ υ))
    (uiMilliseconds : Nat) (f : φ) (userData : υ)
    (digits : {w : Str // ∀ ch ∈ w, isDigit ch = true}) :
    let opened := openHeartbeat joinable h uiMilliseconds (some f) userData
      [⟨acknowledgement digits, .normal⟩]
    ¬ HeartbeatsReach opened f userData ∧ opened.1 ≠ rfidOk ∧ opened.2 = h ∧
      ∀ chunks, ∀ c ∈ userCalls (opened.2.receive chunks).2, ∀ b : HeartbeatText,
        c.readerId ≠ b.id := by
  obtain ⟨hresult, hhandler⟩ := openHeartbeat_spec joinable h uiMilliseconds (some f) userData
    [⟨acknowledgement digits, .normal⟩]
  exact ⟨fun hreach => hresult hreach.ok, hresult, hhandler,
    fun _ _ hc b => readerId_ne_id hc b⟩

/-- An acknowledgement of 1000 milliseconds, and a handler as it is constructed. -/
theorem acknowledged_heartbeats_unheard :
    ¬ HeartbeatsReach (openHeartbeat false (CmdHandler.init none) 1000 (some 'f') ()
      [⟨"\n@HeardbeatTime=1000\r\n".toList, .normal⟩]) 'f' () :=
  fun hreach => (openHeartbeat_spec false (CmdHandler.init none) 1000 (some 'f') ()
    [⟨"\n@HeardbeatTime=1000\r\n".toList, .normal⟩]).1 hreach.ok

end RfidEngine.RfidInterface
