import RfidEngine.CmdHandler
import RfidEngine.Lib.TaggedQueue

/-!
# The reader's stream

A stream is a sequence of units: normal frames, heartbeats and reboot markers.
Each unit carries the proof that it is well formed. `Incomplete` describes what
a chunk boundary can leave of the unit it falls into.
-/

namespace RfidEngine

/-- The body of a normal frame. -/
structure FrameBody where
  text : Str
  no_lf : '\n' ∉ text
  no_cr : '\r' ∉ text
  no_stx : '\x02' ∉ text
  no_heartbeat : ¬ "heartbeat".toList <:+: text

/-- The bytes of a frame on the wire. -/
def FrameBody.frame (body : FrameBody) : Str := '\n' :: body.text ++ ['\r', '\n']

/-- Two hex digits. -/
structure HexPair where
  hi : Char
  lo : Char
  hi_hex : isHexDigit hi = true
  lo_hex : isHexDigit lo = true

def HexPair.text (x : HexPair) : Str := [x.hi, x.lo]

/-- The reader's id and the stamp `xx-xx-xx` of a heartbeat. -/
structure HeartbeatText where
  id : Str
  id_ne : id ≠ []
  id_hex : ∀ ch ∈ id, isHexDigit ch = true
  first : HexPair
  second : HexPair
  third : HexPair

def HeartbeatText.stamp (b : HeartbeatText) : Str :=
  b.first.text ++ ['-'] ++ b.second.text ++ ['-'] ++ b.third.text

def HeartbeatText.text (b : HeartbeatText) : Str :=
  b.id ++ "heartbeat".toList ++ b.stamp

inductive StreamUnit where
  | frame (body : FrameBody)
  | heartbeat (b : HeartbeatText)
  | reboot

namespace StreamUnit

/-- The bytes of a unit on the wire. -/
def bytes : StreamUnit → Str
  | frame body => body.frame
  | heartbeat b => b.text
  | reboot => ['\x02', 'A', '\r']

def kind : StreamUnit → PacketType
  | frame _ => .normal
  | heartbeat _ => .heartBeat
  | reboot => .reboot

end StreamUnit

/-- The bytes of a sequence of units. -/
def stream (units : List StreamUnit) : Str := units.flatMap StreamUnit.bytes

@[simp] theorem stream_nil : stream [] = [] := rfl

@[simp] theorem stream_cons (u : StreamUnit) (units : List StreamUnit) :
    stream (u :: units) = u.bytes ++ stream units := rfl

@[simp] theorem stream_append (units more : List StreamUnit) :
    stream (units ++ more) = stream units ++ stream more := by
  simp [stream]

/-- What has been received of a unit that has not been received in full. -/
def Incomplete (part : Str) : Prop :=
  ∃ u : StreamUnit, part <+: u.bytes ∧ part ≠ u.bytes

theorem incomplete_nil : Incomplete [] :=
  ⟨.reboot, List.nil_prefix, by simp [StreamUnit.bytes]⟩

theorem StreamUnit.bytes_ne_nil (u : StreamUnit) : u.bytes ≠ [] := by
  cases u with
  | frame body => simp [bytes, FrameBody.frame]
  | heartbeat b => simp [bytes, HeartbeatText.text, b.id_ne]
  | reboot => simp [bytes]

/-- Every prefix of a stream is some units received in full and a part of the next. -/
theorem stream_prefix {units : List StreamUnit} {received : Str}
    (h : received <+: stream units) :
    ∃ full part, full <+: units ∧ received = stream full ++ part ∧ Incomplete part ∧
      (part ≠ [] → ∃ u, full ++ [u] <+: units ∧ part <+: u.bytes ∧ part ≠ u.bytes) := by
  induction units generalizing received with
  | nil =>
      have hnil : received = [] := by simpa using h
      exact ⟨[], [], List.prefix_rfl, by simp [hnil], incomplete_nil, fun hne => absurd rfl hne⟩
  | cons u units ih =>
      rw [stream_cons] at h
      by_cases hle : u.bytes.length ≤ received.length
      · obtain ⟨more, rfl⟩ : u.bytes <+: received :=
          List.prefix_of_prefix_length_le (List.prefix_append _ _) h hle
        obtain ⟨full, part, hfull, rfl, hpart, hnext⟩ :=
          ih ((List.prefix_append_right_inj _).mp h)
        refine ⟨u :: full, part, (List.prefix_cons_inj u).mpr hfull, by simp, hpart, ?_⟩
        intro hne
        obtain ⟨v, hv, hpv⟩ := hnext hne
        exact ⟨v, (List.prefix_cons_inj u).mpr hv, hpv⟩
      · have hpre : received <+: u.bytes :=
          List.prefix_of_prefix_length_le h (List.prefix_append _ _) (by omega)
        have hne : received ≠ u.bytes := by
          intro heq
          rw [heq] at hle
          exact hle le_rfl
        refine ⟨[], received, List.nil_prefix, rfl, ⟨u, hpre, hne⟩, fun _ => ?_⟩
        exact ⟨u, by simp, hpre, hne⟩

/-- A hex digit is none of the characters that set the units apart. -/
theorem not_mem_of_hex {s : Str} (h : ∀ ch ∈ s, isHexDigit ch = true) {c : Char}
    (hc : isHexDigit c = false) : c ∉ s := by
  intro hmem
  exact ne_of_class (h c hmem) hc rfl

theorem HexPair.not_mem (x : HexPair) {c : Char} (hc : isHexDigit c = false) :
    c ∉ x.text := by
  have hhi := ne_of_class x.hi_hex hc
  have hlo := ne_of_class x.lo_hex hc
  simp [text, hhi.symm, hlo.symm]

theorem HeartbeatText.not_mem_stamp (b : HeartbeatText) {c : Char}
    (hc : isHexDigit c = false) (hdash : c ≠ '-') : c ∉ b.stamp := by
  simp [stamp, b.first.not_mem hc, b.second.not_mem hc, b.third.not_mem hc, hdash]

theorem HeartbeatText.not_mem_text (b : HeartbeatText) {c : Char}
    (hc : isHexDigit c = false) (hdash : c ≠ '-') (hbeat : c ∉ "heartbeat".toList) :
    c ∉ b.text := by
  simp only [text, List.mem_append, not_or]
  exact ⟨⟨not_mem_of_hex b.id_hex hc, hbeat⟩, b.not_mem_stamp hc hdash⟩

/-- Trimming leaves a heartbeat as it is. -/
theorem HeartbeatText.trim_text (b : HeartbeatText) : trim b.text = b.text := by
  apply trim_eq_self
  intro ch hch
  have hne : ∀ c, isHexDigit c = false → c ≠ '-' → c ∉ "heartbeat".toList → ch ≠ c := by
    intro c hc hdash hbeat heq
    exact b.not_mem_text hc hdash hbeat (heq ▸ hch)
  simp [isspace, hne ' ' (by decide) (by decide) (by decide),
    hne '\t' (by decide) (by decide) (by decide), hne '\n' (by decide) (by decide) (by decide),
    hne '\x0b' (by decide) (by decide) (by decide),
    hne '\x0c' (by decide) (by decide) (by decide), hne '\r' (by decide) (by decide) (by decide)]

end RfidEngine
