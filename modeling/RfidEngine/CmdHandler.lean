import RfidEngine.Common
import RfidEngine.Lib.Regex

/-!
# CmdHandler: packets out of the received bytes

`taskFunc` appends the received bytes to the buffer and runs one extraction
loop for each of the three packet patterns. A loop erases one leftmost match
at a time and ends after `maxPacketExtractCount` of them. What leaves the
handler is recorded as a list of outputs: pushes into the packet queue and
calls of the heartbeat callback.
-/

namespace RfidEngine

open BacktrackRegex

/-- The received bytes and the heartbeat callback, a function object of type `κ`. -/
structure CmdHandler (κ : Type*) where
  buffer : Str
  heartbeatCallbackFunction : Option κ

inductive Output (κ : Type*) where
  | pushBack (pkt : PacketContent)
  | heartbeat (callback : κ) (echo : Str)

namespace CmdHandler

variable {κ : Type*}

/-- `(\x0a.*\x0d\x0a)` -/
def rgx : Regex Char :=
  .group 1 (.seqs [.lit ['\n'], .many isDot, .lit ['\r', '\n']])

/-- `([0-9a-fA-F]+heartbeat..-..-..)` -/
def rgxHb : Regex Char :=
  .group 1 (.seqs [.plus isHexDigit, .lit "heartbeat".toList, .rep isDot 2, .lit ['-'],
    .rep isDot 2, .lit ['-'], .rep isDot 2])

/-- `(\x02\x41\x0d)` -/
def rgxBoot : Regex Char := .group 1 (.lit ['\x02', 'A', '\r'])

/-- `buffer.erase(pos, len)` -/
def erase (buffer : Str) (pos len : Nat) : Str :=
  buffer.take pos ++ buffer.drop (pos + len)

/-- What `extract` does with a matched packet. -/
def emit (ptype : PacketType) (callback : Option κ) (pkt : PacketContent) : List (Output κ) :=
  match ptype with
  | .reboot | .normal => [.pushBack pkt]
  | .heartBeat =>
      match callback with
      | some cb => [.heartbeat cb pkt.toString]
      | none => []

/-- One extraction; `none` when the pattern is nowhere in the buffer. -/
def extract (rgx : Regex Char) (ptype : PacketType) (h : CmdHandler κ) :
    Option (CmdHandler κ × List (Output κ)) :=
  (search rgx h.buffer).map fun m =>
    ({ h with buffer := erase h.buffer m.before.length m.text.length },
      emit ptype h.heartbeatCallbackFunction ⟨m.text, ptype⟩)

/-- `while (extract(rgx, ptype) && ++count < MAX_PACKET_EXTRACT_COUNT)`, with the
number of extractions that the count still allows. -/
def extractLoop (rgx : Regex Char) (ptype : PacketType) :
    Nat → CmdHandler κ → CmdHandler κ × List (Output κ)
  | 0, h => (h, [])
  | n + 1, h =>
      match extract rgx ptype h with
      | none => (h, [])
      | some (h', out) =>
          let rest := extractLoop rgx ptype n h'
          (rest.1, out ++ rest.2)

def taskFunc (h : CmdHandler κ) (inData : Str) : CmdHandler κ × List (Output κ) :=
  let appended := { h with buffer := h.buffer ++ inData }
  let normal := extractLoop rgx .normal maxPacketExtractCount appended
  let heartbeats := extractLoop rgxHb .heartBeat maxPacketExtractCount normal.1
  let reboots := extractLoop rgxBoot .reboot maxPacketExtractCount heartbeats.1
  (reboots.1, normal.2 ++ heartbeats.2 ++ reboots.2)

/-- The calls of `taskFunc` for the chunks received one after another. -/
def receive (h : CmdHandler κ) : List Str → CmdHandler κ × List (Output κ)
  | [] => (h, [])
  | inData :: rest =>
      let first := taskFunc h inData
      let later := receive first.1 rest
      (later.1, first.2 ++ later.2)

/-- A handler as it is constructed, with a callback set or not. -/
def init (callback : Option κ) : CmdHandler κ := ⟨[], callback⟩

theorem receive_snoc (h : CmdHandler κ) (chunks : List Str) (inData : Str) :
    receive h (chunks ++ [inData]) =
      ((taskFunc (receive h chunks).1 inData).1,
        (receive h chunks).2 ++ (taskFunc (receive h chunks).1 inData).2) := by
  induction chunks generalizing h with
  | nil => simp [receive]
  | cons c chunks ih => simp [receive, ih]

end CmdHandler

end RfidEngine
