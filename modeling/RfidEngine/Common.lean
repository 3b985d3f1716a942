import Mathlib.Data.List.DropRight

/-!
# Texts, packets and result codes

A `std::string` is a list of characters: the code treats its bytes one at a
time and never looks at an encoding, so a `Char` stands for a byte.
-/

namespace RfidEngine

abbrev Str := List Char

/-- `std::isspace` in the C locale. -/
def isspace (ch : Char) : Bool :=
  ch == ' ' || ch == '\t' || ch == '\n' || ch == '\x0b' || ch == '\x0c' || ch == '\r'

def ltrim (s : Str) : Str := s.dropWhile isspace

def rtrim (s : Str) : Str := s.rdropWhile isspace

/-- Trim from both ends. -/
def trim (s : Str) : Str := rtrim (ltrim s)

/-- A text without white space is its own trimming. -/
theorem trim_eq_self {s : Str} (h : ∀ ch ∈ s, isspace ch = false) : trim s = s := by
  have hl : ltrim s = s := by
    cases s with
    | nil => rfl
    | cons a s => simp [ltrim, h a (by simp)]
  rw [trim, hl, rtrim]
  apply List.rdropWhile_eq_self_iff.mpr
  intro hne
  simp [h _ (List.getLast_mem hne)]

/-- The class `.` of the ECMAScript grammar: anything but a line terminator. -/
def isDot (ch : Char) : Bool := ch != '\n' && ch != '\r'

/-- The class `[0-9a-fA-F]`. -/
def isHexDigit (ch : Char) : Bool :=
  ('0' ≤ ch && ch ≤ '9') || ('a' ≤ ch && ch ≤ 'f') || ('A' ≤ ch && ch ≤ 'F')

/-- The class `\d`. -/
def isDigit (ch : Char) : Bool := '0' ≤ ch && ch ≤ '9'

theorem isDot_iff {ch : Char} : isDot ch = true ↔ ch ≠ '\n' ∧ ch ≠ '\r' := by
  simp [isDot]

/-- A character outside a class differs from every character of the class. -/
theorem ne_of_class {p : Char → Bool} {ch c : Char} (h : p ch = true) (hc : p c = false) :
    ch ≠ c := by
  rintro rfl
  simp [h] at hc

inductive PacketType where
  | normal
  | heartBeat
  | reboot
  deriving DecidableEq, Repr

structure PacketContent where
  vtBuffer : Str
  packetType : PacketType
  deriving DecidableEq, Repr

/-- The default constructor; it leaves the type unset and nothing reads it. -/
instance : Inhabited PacketContent := ⟨⟨[], .normal⟩⟩

/-- `to_string` hands out the trimmed content. -/
def PacketContent.toString (pkt : PacketContent) : Str := trim pkt.vtBuffer

/-- The largest `int`. -/
def intMax : Int := 2147483647

/-- The conversion of a size to `int`, which keeps the lowest 32 bits. -/
def toInt (size : Nat) : Int := Int.bmod size 4294967296

/-- A size converts to itself exactly when it is an `int`. -/
theorem toInt_eq_iff {size : Nat} : toInt size = size ↔ size ≤ intMax := by
  unfold toInt intMax
  rw [Int.bmod_def]
  split <;> omega

theorem toInt_le (size : Nat) : toInt size ≤ intMax := by
  have hlt := Int.bmod_lt (x := size) (m := 4294967296) (by omega)
  unfold toInt intMax
  omega

def rfidLibScope : Int := 0x00001000
def rfidOk : Int := rfidLibScope + 0x01
def rfidErrOther : Int := rfidLibScope + 0x02
def rfidErrParse : Int := rfidLibScope + 0x08
def rfidErrEchoResult : Int := rfidLibScope + 0x0a
def rfidErrInput : Int := rfidLibScope + 0x0b
def rfidErrSend : Int := rfidLibScope + 0x0c
def rfidErrInvalidHandle : Int := rfidLibScope + 0x0e
def rfidErrBufferOverflow : Int := rfidLibScope + 0x0f
def rfidErrInvalidBuffer : Int := rfidLibScope + 0x10
def rfidErrWordsWriteErrZ : Int := rfidLibScope + 0x100
def rfidErrWordsWriteErr3Z : Int := rfidLibScope + 0x200

def maxPacketExtractCount : Nat := 20
def epcLen : Nat := 64
def tidLen : Nat := 64
def readerIdLen : Nat := 16

end RfidEngine
