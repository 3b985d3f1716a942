import RfidEngine.Common
import RfidEngine.Lib.Regex

/-!
# Parsing the reads of tags

`RfidParseUR` takes a read apart: its time, its antenna and its data, and from
the data of a bank read the EPC and the bank's text. The default constructors
set the strings and leave numbers and flags as they are; what these happen to
be is an argument of the parser.
-/

namespace RfidEngine

open BacktrackRegex

/-- `std::stoi`: white space, a sign, then digits; without a digit or out of the range of an
`int` it throws. -/
def stoi (s : Str) : Option Int :=
  let unsigned (negative : Bool) (s : Str) : Option Int :=
    let digits := s.takeWhile isDigit
    let value : Int := digits.foldl (fun n ch => 10 * n + (ch.toNat - '0'.toNat : Nat)) 0
    let value := if negative then -value else value
    if digits = [] ∨ value < -2147483648 ∨ 2147483647 < value then none else some value
  match ltrim s with
  | '-' :: rest => unsigned true rest
  | '+' :: rest => unsigned false rest
  | s => unsigned false s

/-- `\d{4}/\d{2}/\d{2} \d{2}:\d{2}:\d{2}\.\d{3}`, each number treated by `part`. -/
def timeParts (part : Nat → Regex Char → Regex Char) : Regex Char :=
  .seqs [part 1 (.rep isDigit 4), .lit ['/'], part 2 (.rep isDigit 2), .lit ['/'],
    part 3 (.rep isDigit 2), .lit [' '], part 4 (.rep isDigit 2), .lit [':'],
    part 5 (.rep isDigit 2), .lit [':'], part 6 (.rep isDigit 2), .lit ['.'],
    part 7 (.rep isDigit 3)]

/-- `(\d{4})/(\d{2})/(\d{2}) (\d{2}):(\d{2}):(\d{2})\.(\d{3})` -/
def rgxTime : Regex Char := timeParts .group

/-- `(@?)(\d{4}/\d{2}/\d{2} \d{2}:\d{2}:\d{2}\.\d{3})-Antenna(\d+)-` -/
def readHead : List (Regex Char) :=
  [.group 1 (.opt (.lit ['@'])), .group 2 (timeParts fun _ r => r),
    .lit "-Antenna".toList, .group 3 (.plus isDigit), .lit ['-']]

/-- `^(@?)(…)-Antenna(\d+)-U(.*)$` -/
def rgxUR : Regex Char :=
  .seqs (.lineStart :: readHead ++ [.lit ['U'], .group 4 (.many isDot), .lineEnd])

/-- `([0-9a-fA-F]{4})([0-9a-fA-F]*)([0-9a-fA-F]{4})` -/
def rgxEPC : Regex Char :=
  .seqs [.group 1 (.rep isHexDigit 4), .group 2 (.many isHexDigit), .group 3 (.rep isHexDigit 4)]

/-- `([0-9a-fA-F]*),R?(.*)` -/
def dataRgx : Regex Char :=
  .seqs [.group 1 (.many isHexDigit), .lit [','], .opt (.lit ['R']), .group 2 (.many isDot)]

structure RfidParseEPC where
  isMatch : Bool
  proto : Str
  epc : Str
  crc : Str
  deriving DecidableEq

structure RfidTime where
  isMatch : Bool
  year : Int
  month : Int
  day : Int
  hour : Int
  min : Int
  sec : Int
  ms : Int
  deriving DecidableEq

structure RfidParseUR where
  isMatch : Bool
  hasData : Bool
  time : RfidTime
  antenna : Str
  data : Str
  epc : RfidParseEPC
  tid : Str
  user : Str
  err : Str
  deriving DecidableEq

/-- What the default constructors leave unset. -/
structure Unset where
  hasData : Bool
  epcIsMatch : Bool
  time : RfidTime

def RfidParseEPC.parse (response : Str) : RfidParseEPC :=
  match fullMatch rgxEPC response with
  | some m => ⟨true, Captures.str m 1, Captures.str m 2, Captures.str m 3⟩
  | none => ⟨false, [], [], []⟩

def RfidTime.parse (unset : RfidTime) (time : Str) : Option RfidTime :=
  match fullMatch rgxTime time with
  | some m => do
      let year ← stoi (Captures.str m 1)
      let month ← stoi (Captures.str m 2)
      let day ← stoi (Captures.str m 3)
      let hour ← stoi (Captures.str m 4)
      let min ← stoi (Captures.str m 5)
      let sec ← stoi (Captures.str m 6)
      let ms ← stoi (Captures.str m 7)
      some ⟨true, year, month, day, hour, min, sec, ms⟩
  | none => some { unset with isMatch := false }

def rfidMbEpc : Int := 1
def rfidMbTid : Int := 2
def rfidMbUser : Int := 3

/-- A read before anything is stored in it. -/
def RfidParseUR.unset (u : Unset) : RfidParseUR where
  isMatch := false
  hasData := u.hasData
  time := u.time
  antenna := []
  data := []
  epc := ⟨u.epcIsMatch, [], [], []⟩
  tid := []
  user := []
  err := []

/-- The data of a bank read: the EPC, then an error of one letter or the text of the bank. -/
def RfidParseUR.parseData (parse : RfidParseUR) (bank : Int) : RfidParseUR :=
  if bank = rfidMbEpc ∨ bank = rfidMbTid then
    match fullMatch dataRgx parse.data with
    | some m =>
        let part2 := Captures.str m 2
        let parse := { parse with epc := RfidParseEPC.parse (Captures.str m 1) }
        if part2.length = 1 then { parse with err := part2 } else { parse with tid := part2 }
    | none => parse
  else if bank = rfidMbUser then
    match fullMatch dataRgx parse.data with
    | some m =>
        let part2 := Captures.str m 2
        let parse := { parse with epc := RfidParseEPC.parse (Captures.str m 1) }
        if part2.length = 1 then { parse with err := part2 } else { parse with user := part2 }
    | none => parse
  else parse

/-- The constructor; it does not return when a number is out of range. -/
def RfidParseUR.parse (u : Unset) (response : Str) (bank : Int) : Option RfidParseUR :=
  match fullMatch rgxUR response with
  | some m => do
      let time ← RfidTime.parse u.time (Captures.str m 2)
      let data := Captures.str m 4
      let parse := { RfidParseUR.unset u with
        isMatch := true, hasData := !data.isEmpty, time := time,
        antenna := Captures.str m 3, data := data }
      some (if parse.hasData then parse.parseData bank else parse)
  | none => some (RfidParseUR.unset u)

structure RfidParseU where
  isMatch : Bool
  hasData : Bool
  time : RfidTime
  antenna : Str
  data : Str
  epc : RfidParseEPC
  deriving DecidableEq

/-- The constructor for a read of the inventory, whose data are the EPC alone. -/
def RfidParseU.parse (u : Unset) (response : Str) : Option RfidParseU :=
  let unsetEpc : RfidParseEPC := ⟨u.epcIsMatch, [], [], []⟩
  match fullMatch rgxUR response with
  | some m => do
      let time ← RfidTime.parse u.time (Captures.str m 2)
      let data := Captures.str m 4
      some ⟨true, !data.isEmpty, time, Captures.str m 3, data,
        if data.isEmpty then unsetEpc else RfidParseEPC.parse data⟩
  | none => some ⟨false, u.hasData, u.time, [], [], unsetEpc⟩

/-- `^(@?)(…)-Antenna(\d+)-R?(.*)$` -/
def rgxReadR : Regex Char :=
  .seqs (.lineStart :: readHead ++ [.opt (.lit ['R']), .group 4 (.many isDot), .lineEnd])

structure RfidParseR where
  isMatch : Bool
  hasData : Bool
  time : RfidTime
  antenna : Str
  data : Str
  deriving DecidableEq

/-- The constructor for a read of a bank alone. -/
def RfidParseR.parse (u : Unset) (response : Str) : Option RfidParseR :=
  match fullMatch rgxReadR response with
  | some m => do
      let time ← RfidTime.parse u.time (Captures.str m 2)
      let data := Captures.str m 4
      some ⟨true, !data.isEmpty, time, Captures.str m 3, data⟩
  | none => some ⟨false, false, u.time, [], []⟩

/-- A result of the parser, for some response, some bank and whatever was left unset. -/
def Parsed (x : RfidParseUR) : Prop := ∃ u response bank, RfidParseUR.parse u response bank = some x

theorem derives_rgxEPC_iff (b : Bool) (w t : Str) (c : Captures Char) :
    Derives rgxEPC b w t c ↔ ∃ proto epc crc : Str, w = proto ++ (epc ++ crc) ∧
      (proto.length = 4 ∧ ∀ ch ∈ proto, isHexDigit ch = true) ∧
      (∀ ch ∈ epc, isHexDigit ch = true) ∧
      (crc.length = 4 ∧ ∀ ch ∈ crc, isHexDigit ch = true) ∧
      c = [(3, crc), (2, epc), (1, proto)] := by
  have hrep : ∀ b (w t : Str) c, Derives (.rep isHexDigit 4) b w t c ↔
      (w.length = 4 ∧ ∀ ch ∈ w, isHexDigit ch = true) ∧ c = [] := by
    intro b w t c
    rw [derives_rep_iff, and_assoc]
  have hmany : ∀ b (w t : Str) c, Derives (.many isHexDigit) b w t c ↔
      (∀ ch ∈ w, isHexDigit ch = true) ∧ c = [] := fun _ _ _ _ => Iff.rfl
  simp only [rgxEPC, Regex.seqs, derives_seq_group_iff hrep, derives_seq_group_iff hmany,
    derives_empty_iff]
  constructor
  · intro h
    obtain ⟨u, v, c₁, hw, hu, ⟨x, y, c₂, rfl, hx, ⟨z, e, c₃, rfl, hz, ⟨rfl, rfl⟩, rfl⟩, rfl⟩,
      rfl⟩ := h
    exact ⟨u, x, z, by simpa using hw, hu, hx, hz, rfl⟩
  · intro h
    obtain ⟨u, x, z, hw, hu, hx, hz, rfl⟩ := h
    exact ⟨u, x ++ z, _, hw, hu, ⟨x, z, _, rfl, hx,
      ⟨z, [], [], (List.append_nil z).symm, hz, ⟨rfl, rfl⟩, rfl⟩, rfl⟩, rfl⟩

/-- An EPC text is a run of hex digits of any length. -/
theorem parse_epc_hex (response : Str) :
    ∀ ch ∈ (RfidParseEPC.parse response).epc, isHexDigit ch = true := by
  unfold RfidParseEPC.parse
  split
  · rename_i m hm
    obtain ⟨proto, epc, crc, -, -, hepc, -, rfl⟩ :=
      (derives_rgxEPC_iff _ _ _ _).mp (fullMatch_sound hm)
    exact hepc
  · simp

/-- What the parser yields satisfies what an unset read does and the data keep. -/
theorem Parsed.induction {I : RfidParseUR → Prop} {x : RfidParseUR} (hx : Parsed x)
    (hunset : ∀ y : RfidParseUR, y.epc.epc = [] → y.tid = [] → I y)
    (hdata : ∀ y bank, I y → I (y.parseData bank)) : I x := by
  obtain ⟨u, response, bank, h⟩ := hx
  unfold RfidParseUR.parse at h
  split at h
  · obtain ⟨time, -, hx⟩ := Option.bind_eq_some_iff.mp h
    obtain rfl := Option.some.inj hx
    simp only
    split
    · exact hdata _ bank (hunset _ rfl rfl)
    · exact hunset _ rfl rfl
  · obtain rfl := Option.some.inj h
    exact hunset _ rfl rfl

theorem parseData_epc_hex (x : RfidParseUR) (bank : Int)
    (hx : ∀ ch ∈ x.epc.epc, isHexDigit ch = true) :
    ∀ ch ∈ (x.parseData bank).epc.epc, isHexDigit ch = true := by
  unfold RfidParseUR.parseData
  split
  · split
    · simp only
      split <;> exact parse_epc_hex _
    · exact hx
  · split
    · split
      · simp only
        split <;> exact parse_epc_hex _
      · exact hx
    · exact hx

/-- The EPC of a parsed read is a run of hex digits. -/
theorem Parsed.epc_hex {x : RfidParseUR} (hx : Parsed x) :
    ∀ ch ∈ x.epc.epc, isHexDigit ch = true :=
  hx.induction (fun y hepc _ => by simp [hepc]) parseData_epc_hex

/-- The data of a bank read: hex digits, a comma and a text. -/
theorem dataRgx_parts {data : Str} {m : Captures Char} (h : fullMatch dataRgx data = some m) :
    (∃ rest, data = Captures.str m 1 ++ (',' :: rest)) ∧
      (∀ ch ∈ Captures.str m 1, isHexDigit ch = true) ∧
      ∀ ch ∈ Captures.str m 2, isDot ch = true := by
  have hmany : ∀ (p : Char → Bool) b (w t : Str) c, Derives (.many p) b w t c ↔
      (∀ ch ∈ w, p ch = true) ∧ c = [] := fun _ _ _ _ _ => Iff.rfl
  have hderives := fullMatch_sound h
  simp only [dataRgx, Regex.seqs, derives_seq_group_iff (hmany _), derives_seq_lit_iff,
    derives_seq_of_plain (derives_opt_lit_iff ['R']), derives_empty_iff] at hderives
  obtain ⟨hex, rest, c, rfl, hhex, ⟨v, rfl, u, w, -, -, text, e, c', -, htext, ⟨-, rfl⟩, rfl⟩,
    rfl⟩ := hderives
  exact ⟨⟨v, rfl⟩, hhex, htext⟩

theorem parseData_tid_text (x : RfidParseUR) (bank : Int)
    (hx : (∀ ch ∈ x.tid, isDot ch = true) ∧ x.tid.length ≠ 1) :
    (∀ ch ∈ (x.parseData bank).tid, isDot ch = true) ∧ (x.parseData bank).tid.length ≠ 1 := by
  unfold RfidParseUR.parseData
  split
  · split
    · rename_i m hm
      simp only
      split
      · exact hx
      · exact ⟨(dataRgx_parts hm).2.2, ‹_›⟩
    · exact hx
  · split
    · split
      · simp only
        split <;> exact hx
      · exact hx
    · exact hx

/-- The TID of a parsed read is a text without a line end, and not of one letter. -/
theorem Parsed.tid_text {x : RfidParseUR} (hx : Parsed x) :
    (∀ ch ∈ x.tid, isDot ch = true) ∧ x.tid.length ≠ 1 :=
  hx.induction (fun y _ htid => by simp [htid]) parseData_tid_text

theorem isDot_of_isHexDigit {ch : Char} (h : isHexDigit ch = true) : isDot ch = true :=
  isDot_iff.mpr ⟨ne_of_class h (by decide), ne_of_class h (by decide)⟩

theorem parse_of_match {u : Unset} {response : Str} {m : Captures Char} {time : RfidTime}
    (bank : Int) (hm : fullMatch rgxUR response = some m)
    (htime : RfidTime.parse u.time (Captures.str m 2) = some time)
    (hdata : (Captures.str m 4).isEmpty = false) :
    RfidParseUR.parse u response bank = some (RfidParseUR.parseData
      { RfidParseUR.unset u with
        isMatch := true, hasData := true, time := time, antenna := Captures.str m 3,
        data := Captures.str m 4 } bank) := by
  simp [RfidParseUR.parse, hm, htime, hdata]

theorem parseData_isMatch (x : RfidParseUR) (bank : Int) :
    (x.parseData bank).isMatch = x.isMatch := by
  unfold RfidParseUR.parseData
  split
  · split
    · simp only
      split <;> rfl
    · rfl
  · split
    · split
      · simp only
        split <;> rfl
      · rfl
    · rfl

/-- A response that is no read leaves the texts empty. -/
theorem parse_unmatched {u : Unset} {response : Str} {bank : Int} {x : RfidParseUR}
    (h : RfidParseUR.parse u response bank = some x) (hmatch : x.isMatch = false) :
    x.tid = [] ∧ x.epc.epc = [] := by
  unfold RfidParseUR.parse at h
  split at h
  · obtain ⟨time, -, hx⟩ := Option.bind_eq_some_iff.mp h
    obtain rfl := Option.some.inj hx
    refine absurd hmatch ?_
    simp only
    split
    · rw [parseData_isMatch]
      exact Bool.noConfusion
    · exact Bool.noConfusion
  · obtain rfl := Option.some.inj h
    exact ⟨rfl, rfl⟩

end RfidEngine
