import RfidEngine.Parser
import Mathlib.Data.Nat.Digits.Defs

/-!
# Replies to a bank read

A reply is given by its fields, each with the form it must have. The greedy
groups of the parser's regular expressions could split a line in many places;
the first attempt splits it where its fields meet, whatever their lengths.
-/

namespace RfidEngine

open BacktrackRegex

/-- The number that a text of digits denotes. -/
def decimalValue (w : Str) : Nat :=
  Nat.ofDigits 10 (w.map fun ch => ch.toNat - '0'.toNat).reverse

/-- Reading a text digit by digit gives the number of its digits. -/
theorem foldl_ofDigits (base : Nat) (value : Char → Nat) (w : Str) :
    w.foldl (fun (n : Int) ch => base * n + (value ch : Nat)) 0 =
      (Nat.ofDigits base (w.map value).reverse : Nat) := by
  induction w using List.reverseRecOn with
  | nil => rfl
  | append_singleton w ch ih =>
      rw [List.foldl_append, ih, List.map_append, List.map_singleton, List.reverse_append,
        List.reverse_singleton, List.singleton_append, Nat.ofDigits_cons]
      push_cast
      exact Int.add_comm _ _

theorem foldl_digits (w : Str) :
    w.foldl (fun (n : Int) ch => 10 * n + (ch.toNat - '0'.toNat : Nat)) 0 = decimalValue w :=
  foldl_ofDigits 10 (fun ch => ch.toNat - '0'.toNat) w

theorem digit_lt {ch : Char} (h : isDigit ch = true) : ch.toNat - '0'.toNat < 10 := by
  simp only [isDigit, Bool.and_eq_true, decide_eq_true_eq, Char.le_def,
    UInt32.le_iff_toNat_le] at h
  have hle : ch.toNat ≤ 57 := h.2
  have hzero : '0'.toNat = 48 := rfl
  omega

theorem decimalValue_lt {w : Str} (hw : ∀ ch ∈ w, isDigit ch = true) :
    decimalValue w < 10 ^ w.length := by
  have hlt : ∀ d ∈ (w.map fun ch => ch.toNat - '0'.toNat).reverse, d < 10 := by
    intro d hd
    obtain ⟨ch, hch, rfl⟩ := List.mem_map.mp (List.mem_reverse.mp hd)
    exact digit_lt (hw ch hch)
  have hvalue := Nat.ofDigits_lt_base_pow_length (b := 10) (by omega) hlt
  rwa [List.length_reverse, List.length_map] at hvalue

theorem isspace_of_isDigit {ch : Char} (h : isDigit ch = true) : isspace ch = false := by
  have hne : ∀ c, isDigit c = false → (ch == c) = false :=
    fun c hc => beq_false_of_ne (ne_of_class h hc)
  simp [isspace, hne ' ' rfl, hne '\t' rfl, hne '\n' rfl, hne '\x0b' rfl, hne '\x0c' rfl,
    hne '\r' rfl]

/-- A text of digits short enough for an `int` is read as the number it denotes. -/
theorem stoi_digits {w : Str} (hne : w ≠ []) (hw : ∀ ch ∈ w, isDigit ch = true)
    (hlen : w.length ≤ 9) : stoi w = some (decimalValue w) := by
  have hbound : decimalValue w < 10 ^ 9 :=
    Nat.lt_of_lt_of_le (decimalValue_lt hw) (Nat.pow_le_pow_right (by omega) hlen)
  have hspace : ltrim w = w := by
    cases w with
    | nil => rfl
    | cons ch w => simp [ltrim, isspace_of_isDigit (hw ch List.mem_cons_self)]
  have hdigits : w.takeWhile isDigit = w := List.takeWhile_eq_self_iff.mpr hw
  have hsign : ∀ c rest, isDigit c = false → ltrim w ≠ c :: rest := by
    intro c rest hc heq
    rw [hspace] at heq
    rw [heq] at hw
    exact absurd (hw c List.mem_cons_self) (by simp [hc])
  unfold stoi
  simp only
  split
  · rename_i rest heq
    exact absurd heq (hsign '-' rest rfl)
  · rename_i rest heq
    exact absurd heq (hsign '+' rest rfl)
  · have hrange : ¬ (w = [] ∨ (decimalValue w : Int) < -2147483648 ∨
        (2147483647 : Int) < decimalValue w) := by
      intro h
      obtain h | h | h := h
      · exact hne h
      · omega
      · omega
    rw [hspace, hdigits, foldl_digits]
    simp only [Bool.false_eq_true, if_false]
    exact if_neg hrange

/-- A text of a given number of decimal digits. -/
abbrev DigitText (n : Nat) := {w : Str // w.length = n ∧ ∀ ch ∈ w, isDigit ch = true}

/-- A text of a given number of hex digits. -/
abbrev HexText (n : Nat) := {w : Str // w.length = n ∧ ∀ ch ∈ w, isHexDigit ch = true}

/-- `yyyy/MM/dd HH:mm:ss.fff` -/
structure Timestamp where
  year : DigitText 4
  month : DigitText 2
  day : DigitText 2
  hour : DigitText 2
  min : DigitText 2
  sec : DigitText 2
  ms : DigitText 3

namespace Timestamp

def text (t : Timestamp) : Str :=
  t.year ++ ['/'] ++ t.month ++ ['/'] ++ t.day ++ [' '] ++ t.hour ++ [':'] ++ t.min ++ [':'] ++
    t.sec ++ ['.'] ++ t.ms

/-- The numbers that the digits denote. -/
def time (t : Timestamp) : RfidTime where
  isMatch := true
  year := decimalValue t.year
  month := decimalValue t.month
  day := decimalValue t.day
  hour := decimalValue t.hour
  min := decimalValue t.min
  sec := decimalValue t.sec
  ms := decimalValue t.ms

/-- The expression takes a timestamp number by number, with what it captures of each. -/
theorem takesFirstAs (t : Timestamp) (caps : Nat → Str → Captures Char)
    {part : Nat → Regex Char → Regex Char}
    (hpart : ∀ i n (w : DigitText n), TakesFirstAs (part i (.rep isDigit n)) w (caps i w)) :
    TakesFirstAs (timeParts part) t.text
      (caps 7 t.ms ++ (caps 6 t.sec ++ (caps 5 t.min ++ (caps 4 t.hour ++ (caps 3 t.day ++
        (caps 2 t.month ++ caps 1 t.year)))))) := by
  have hlit : ∀ ch : Char, TakesFirstAs (.lit [ch]) [ch] [] := fun ch => takesFirst_lit [ch]
  have hall := takesFirstAs_seqs
    [(part 1 (.rep isDigit 4), (t.year : Str), caps 1 t.year), (.lit ['/'], ['/'], []),
      (part 2 (.rep isDigit 2), (t.month : Str), caps 2 t.month), (.lit ['/'], ['/'], []),
      (part 3 (.rep isDigit 2), (t.day : Str), caps 3 t.day), (.lit [' '], [' '], []),
      (part 4 (.rep isDigit 2), (t.hour : Str), caps 4 t.hour), (.lit [':'], [':'], []),
      (part 5 (.rep isDigit 2), (t.min : Str), caps 5 t.min), (.lit [':'], [':'], []),
      (part 6 (.rep isDigit 2), (t.sec : Str), caps 6 t.sec), (.lit ['.'], ['.'], []),
      (part 7 (.rep isDigit 3), (t.ms : Str), caps 7 t.ms)]
    (by simp only [List.forall_mem_cons, hlit, hpart, true_and, List.not_mem_nil, false_implies,
          implies_true])
  simpa [timeParts, text] using hall

theorem takesFirst (t : Timestamp) : TakesFirst (timeParts fun _ r => r) t.text :=
  t.takesFirstAs (fun _ _ => []) fun _ n w => by
    have hrep := takesFirst_rep w.2.2
    rwa [w.2.1] at hrep

/-- A timestamp is read as the numbers that its digits denote. -/
theorem parse_text (t : Timestamp) (unset : RfidTime) :
    RfidTime.parse unset t.text = some t.time := by
  have hmatch : fullMatch rgxTime t.text = some [(7, (t.ms : Str)), (6, (t.sec : Str)),
      (5, (t.min : Str)), (4, (t.hour : Str)), (3, (t.day : Str)), (2, (t.month : Str)),
      (1, (t.year : Str))] := by
    refine (t.takesFirstAs (fun i w => [(i, w)]) fun i n w => ?_).fullMatch_eq
    have hrep := takesFirst_rep w.2.2
    rw [w.2.1] at hrep
    exact TakesFirstAs.group hrep i
  have hnumber : ∀ {n} (w : DigitText (n + 1)), n < 9 → stoi w = some (decimalValue w) := by
    intro n w hn
    refine stoi_digits (fun hnil => ?_) w.2.2 (by rw [w.2.1]; exact hn)
    have hlen := w.2.1
    rw [hnil] at hlen
    exact absurd hlen (by simp)
  rw [RfidTime.parse, hmatch]
  simp [Captures.str, List.lookup_cons, hnumber, time]

/-- What the expression of a timestamp matches is one. -/
theorem exists_of_match {w : Str} {m : Captures Char} (h : fullMatch rgxTime w = some m) :
    ∃ t : Timestamp, t.text = w := by
  have hrep : ∀ n b (w t : Str) c, Derives (.rep isDigit n) b w t c ↔
      (w.length = n ∧ ∀ ch ∈ w, isDigit ch = true) ∧ c = [] := by
    intro n b w t c
    rw [derives_rep_iff, and_assoc]
  have hderives := fullMatch_sound h
  simp only [rgxTime, timeParts, Regex.seqs, derives_seq_group_iff (hrep _), derives_seq_lit_iff,
    derives_empty_iff] at hderives
  obtain ⟨year, -, -, rfl, hyear, ⟨-, rfl, month, -, -, rfl, hmonth, ⟨-, rfl, day, -, -, rfl, hday,
    ⟨-, rfl, hour, -, -, rfl, hhour, ⟨-, rfl, min, -, -, rfl, hmin, ⟨-, rfl, sec, -, -, rfl, hsec,
    ⟨-, rfl, ms, -, -, rfl, hms, ⟨rfl, -⟩, -⟩, -⟩, -⟩, -⟩, -⟩, -⟩, -⟩ := hderives
  refine ⟨⟨⟨year, hyear⟩, ⟨month, hmonth⟩, ⟨day, hday⟩, ⟨hour, hhour⟩, ⟨min, hmin⟩, ⟨sec, hsec⟩,
    ⟨ms, hms⟩⟩, ?_⟩
  simp [text]

/-- The time of a read is always read to its end: its numbers are small. -/
theorem parse_isSome (unset : RfidTime) (w : Str) : (RfidTime.parse unset w).isSome = true := by
  cases hmatch : fullMatch rgxTime w with
  | none => simp [RfidTime.parse, hmatch]
  | some m =>
      obtain ⟨t, rfl⟩ := exists_of_match hmatch
      rw [t.parse_text unset]
      rfl

end Timestamp

/-- The parser returns on every line. -/
theorem parse_isSome (u : Unset) (response : Str) (bank : Int) :
    (RfidParseUR.parse u response bank).isSome = true := by
  unfold RfidParseUR.parse
  split
  · rename_i m hm
    obtain ⟨time, htime⟩ := Option.isSome_iff_exists.mp
      (Timestamp.parse_isSome u.time (Captures.str m 2))
    simp [htime]
  · rfl

/-- What stands in front of the data of a read: `<@?><timestamp>-Antenna<antenna>-`. -/
structure ReadHead where
  atSign : Bool
  time : Timestamp
  antenna : Str
  antenna_ne_nil : antenna ≠ []
  antenna_digits : ∀ ch ∈ antenna, isDigit ch = true

/-- A character that is there or not. -/
def optional (present : Bool) (ch : Char) : Str := if present then [ch] else []

namespace ReadHead

def text (h : ReadHead) : Str :=
  optional h.atSign '@' ++ (h.time.text ++ ("-Antenna".toList ++ (h.antenna ++ ['-'])))

end ReadHead

/-- An optional character is taken where it stands and passed over where it does not. -/
theorem first_optional (present : Bool) (ch : Char) {b : Bool} {s : Str}
    (h : present = false → s.head? ≠ some ch) :
    (attempts (.opt (.lit [ch])) b (optional present ch ++ s)).head? =
      some ⟨optional present ch, s, []⟩ := by
  cases present with
  | true => exact first_opt (takesFirst_lit [ch] b s)
  | false => exact first_opt_skip (attempts_lit_eq_nil (h rfl))

theorem Timestamp.head_ne_at (t : Timestamp) (s : Str) : (t.text ++ s).head? ≠ some '@' := by
  intro h
  have hyear := t.year.2
  cases hw : (t.year : Str) with
  | nil =>
      rw [hw] at hyear
      exact absurd hyear.1 (by simp)
  | cons ch w =>
      rw [hw] at hyear
      obtain rfl : ch = '@' := by simpa [Timestamp.text, hw] using h
      exact absurd (hyear.2 '@' List.mem_cons_self) (by simp [isDigit])

/-- What a head captures. -/
def ReadHead.captures (h : ReadHead) : Captures Char :=
  [(3, h.antenna), (2, h.time.text), (1, optional h.atSign '@')]

/-- In front of what the rest of an expression takes first, its head takes a head first. -/
theorem first_readHead (h : ReadHead) {tail : List (Regex Char)} {v : Str} {m : Attempt Char}
    (hv : ∀ b, (attempts (.seqs tail) b v).head? = some m) (b : Bool) :
    (attempts (.seqs (readHead ++ tail)) b (h.text ++ v)).head? =
      some ⟨h.text ++ m.text, m.rest, m.caps ++ h.captures⟩ := by
  have hdash : ∀ ch, (['-'] ++ v).head? = some ch → isDigit ch = false := by
    intro ch hch
    obtain rfl : '-' = ch := Option.some.inj hch
    rfl
  have hplus := fun b => first_plus (b := b) h.antenna_ne_nil h.antenna_digits hdash
  have hantenna := fun b => first_seq (takesFirst_lit "-Antenna".toList b _)
    (first_seq (first_group (i := 3) (hplus _))
      (first_seq (takesFirst_lit ['-'] _ v) (hv _)))
  have htime := fun b => first_seq (first_group (i := 2) (h.time.takesFirst b _)) (hantenna _)
  have hat := first_group (i := 1) (first_optional h.atSign '@' (b := b)
    fun _ => h.time.head_ne_at ("-Antenna".toList ++ (h.antenna ++ (['-'] ++ v))))
  have hall := first_seq hat (htime _)
  simpa [readHead, Regex.seqs, ReadHead.text, ReadHead.captures] using hall

/-- What goes on to the end of the line is one group. -/
theorem first_text {v : Str} (hv : ∀ ch ∈ v, isDot ch = true) (b : Bool) :
    (attempts (.seqs [.group 4 (.many isDot), .lineEnd]) b v).head? = some ⟨v, [], [(4, v)]⟩ := by
  have hmany := first_group (i := 4) (first_many (b := b) (t := []) hv (by simp))
  rw [List.append_nil] at hmany
  have hend : (attempts (.seqs [.lineEnd] : Regex Char) (b && v.isEmpty) []).head? =
      some ⟨[], [], []⟩ := rfl
  have hall := first_seq hmany hend
  simpa [Regex.seqs] using hall

/-- A line of a read is split at the ends of its head. -/
theorem fullMatch_rgxUR_text (h : ReadHead) {data : Str} (hdata : ∀ ch ∈ data, isDot ch = true) :
    fullMatch rgxUR (h.text ++ ('U' :: data)) =
      some [(4, data), (3, h.antenna), (2, h.time.text), (1, optional h.atSign '@')] := by
  have htail : ∀ b, (attempts (.seqs [.lit ['U'], .group 4 (.many isDot), .lineEnd]) b
      ('U' :: data)).head? = some ⟨'U' :: data, [], [(4, data)]⟩ := by
    intro b
    have hall := first_seq (takesFirst_lit ['U'] b data) (first_text hdata _)
    simpa [Regex.seqs] using hall
  have hstart : (attempts (.lineStart : Regex Char) true (h.text ++ ('U' :: data))).head? =
      some ⟨[], h.text ++ ('U' :: data), []⟩ := rfl
  exact fullMatch_of_first (first_seq hstart (first_readHead h htail _))

/-- The parser takes time, antenna and data from a line, and goes on with the data. -/
theorem parse_text (u : Unset) (h : ReadHead) {data : Str} (bank : Int)
    (hdata : ∀ ch ∈ data, isDot ch = true) (hne : data ≠ []) :
    RfidParseUR.parse u (h.text ++ ('U' :: data)) bank = some (RfidParseUR.parseData
      { RfidParseUR.unset u with
        isMatch := true, hasData := true, time := h.time.time, antenna := h.antenna,
        data := data } bank) := by
  -- stated before it meets the goal, whose record would be unfolded
  have hread := parse_of_match (u := u) bank (fullMatch_rgxUR_text h hdata)
    (h.time.parse_text u.time) (List.isEmpty_eq_false_iff.mpr hne)
  exact hread

/-- The data of a read are split at their first comma, and the mark is left out. -/
theorem fullMatch_dataRgx_text (marked : Bool) {hex text : Str}
    (hhex : ∀ ch ∈ hex, isHexDigit ch = true) (htext : ∀ ch ∈ text, isDot ch = true)
    (hmark : marked = false → text.head? ≠ some 'R') :
    fullMatch dataRgx (hex ++ (',' :: (optional marked 'R' ++ text))) =
      some [(2, text), (1, hex)] := by
  have hcomma : ∀ ch, ([','] ++ (optional marked 'R' ++ text)).head? = some ch →
      isHexDigit ch = false := by
    intro ch hch
    obtain rfl : ',' = ch := Option.some.inj hch
    rfl
  have hgroup₁ := first_group (i := 1) (first_many (b := true) hhex hcomma)
  have hgroup₂ : ∀ b, (attempts (.seq (.group 2 (.many isDot)) .empty) b text).head? =
      some ⟨text, [], [(2, text)]⟩ := by
    intro b
    have hmany := first_group (i := 2) (first_many (b := b) (t := []) htext (by simp))
    have hempty : (attempts (.empty : Regex Char) (b && text.isEmpty) []).head? =
        some ⟨[], [], []⟩ := rfl
    have hseq := first_seq hmany hempty
    simpa using hseq
  have hmarked := fun b => first_seq (first_optional marked 'R' (b := b) hmark) (hgroup₂ _)
  have hrest := fun b => first_seq (takesFirst_lit [','] b _) (hmarked _)
  exact fullMatch_of_first (first_seq hgroup₁ (hrest _))

/-- An EPC text between a protocol word and a checksum, whatever its length. -/
theorem parse_epc_text (pc crc : HexText 4) {epc : Str}
    (hepc : ∀ ch ∈ epc, isHexDigit ch = true) :
    RfidParseEPC.parse (pc ++ (epc ++ crc)) = ⟨true, pc, epc, crc⟩ := by
  have hderives : Derives rgxEPC true (pc ++ (epc ++ crc)) []
      [(3, (crc : Str)), (2, epc), (1, (pc : Str))] :=
    (derives_rgxEPC_iff _ _ _ _).mpr ⟨pc, epc, crc, rfl, pc.2, hepc, crc.2, rfl⟩
  have hmatch := fullMatch_eq_of_unique hderives fun c' hc' => by
    obtain ⟨proto, epc', crc', hw, ⟨hproto, -⟩, -, ⟨hcrc, -⟩, rfl⟩ :=
      (derives_rgxEPC_iff _ _ _ _).mp hc'
    obtain ⟨rfl, hrest⟩ := List.append_inj hw.symm (hproto.trans pc.2.1.symm)
    obtain ⟨rfl, rfl⟩ := List.append_inj' hrest (hcrc.trans crc.2.1.symm)
    rfl
  rw [RfidParseEPC.parse, hmatch]
  rfl

/-- Eight hex digits or more are a protocol word, an EPC and a checksum. -/
theorem exists_epc_parts {p : Str} (hp : ∀ ch ∈ p, isHexDigit ch = true) (hlen : 8 ≤ p.length) :
    ∃ (pc crc : HexText 4) (epc : Str), (∀ ch ∈ epc, isHexDigit ch = true) ∧
      (pc : Str) ++ (epc ++ crc) = p := by
  have hpc : (p.take 4).length = 4 := by rw [List.length_take]; omega
  have hcrc : ((p.drop 4).drop (p.length - 8)).length = 4 := by
    rw [List.length_drop, List.length_drop]
    omega
  refine ⟨⟨p.take 4, hpc, fun ch hch => hp ch (List.mem_of_mem_take hch)⟩,
    ⟨(p.drop 4).drop (p.length - 8), hcrc,
      fun ch hch => hp ch (List.mem_of_mem_drop (List.mem_of_mem_drop hch))⟩,
    (p.drop 4).take (p.length - 8),
    fun ch hch => hp ch (List.mem_of_mem_drop (List.mem_of_mem_take hch)), ?_⟩
  simp only [List.take_append_drop]

theorem isHexDigit_epc_parts (pc crc : HexText 4) {epc : Str}
    (hepc : ∀ ch ∈ epc, isHexDigit ch = true) :
    ∀ ch ∈ (pc : Str) ++ (epc ++ crc), isHexDigit ch = true := by
  intro ch hch
  rw [List.mem_append, List.mem_append] at hch
  obtain h | h | h := hch
  · exact pc.2.2 ch h
  · exact hepc ch h
  · exact crc.2.2 ch h

/-- The texts that are taken for an EPC. -/
theorem parse_epc_isMatch_iff {p : Str} : (RfidParseEPC.parse p).isMatch = true ↔
    (∀ ch ∈ p, isHexDigit ch = true) ∧ 8 ≤ p.length := by
  constructor
  · intro h
    unfold RfidParseEPC.parse at h
    split at h
    · rename_i m hm
      obtain ⟨proto, epc, crc, rfl, hproto, hepc, hcrc, -⟩ :=
        (derives_rgxEPC_iff _ _ _ _).mp (fullMatch_sound hm)
      refine ⟨List.forall_mem_append.mpr ⟨hproto.2, List.forall_mem_append.mpr ⟨hepc, hcrc.2⟩⟩, ?_⟩
      rw [List.length_append, List.length_append, hproto.1, hcrc.1]
      omega
    · exact absurd h Bool.false_ne_true
  · rintro ⟨hp, hlen⟩
    obtain ⟨pc, crc, epc, hepc, rfl⟩ := exists_epc_parts hp hlen
    rw [parse_epc_text pc crc hepc]

/-- What stands behind the comma: hex data of two digits or more, or an error code. -/
inductive BankResult where
  | data (w : Str) (hex : ∀ ch ∈ w, isHexDigit ch = true) (two_digits : 2 ≤ w.length)
  | error (code : Char) (listed : code ∈ ['0', '3', '4', 'B', 'F'])

namespace BankResult

def text : BankResult → Str
  | data w _ _ => w
  | error code _ => [code]

/-- The data, if there are any. -/
def dataText : BankResult → Str
  | data w _ _ => w
  | error _ _ => []

/-- The error code, if there is one. -/
def errText : BankResult → Str
  | data _ _ _ => []
  | error code _ => [code]

theorem text_hex (r : BankResult) : ∀ ch ∈ r.text, isHexDigit ch = true := by
  cases r with
  | data w hex _ => exact hex
  | error code listed =>
      have hcodes : ∀ ch ∈ ['0', '3', '4', 'B', 'F'], isHexDigit ch = true :=
        List.all_eq_true.mp rfl
      intro ch hch
      obtain rfl := List.mem_singleton.mp hch
      exact hcodes ch listed

theorem text_head_ne_R (r : BankResult) : r.text.head? ≠ some 'R' := by
  intro h
  exact absurd (r.text_hex 'R' (List.mem_of_mem_head? h)) (by decide)

end BankResult

/-- The banks whose reads are taken apart. -/
inductive Bank where
  | epc
  | tid
  | user
  deriving DecidableEq

def Bank.code : Bank → Int
  | .epc => rfidMbEpc
  | .tid => rfidMbTid
  | .user => rfidMbUser

theorem parseData_of_captures (bank : Bank) {x : RfidParseUR} {hex text : Str}
    (hm : fullMatch dataRgx x.data = some [(2, text), (1, hex)]) :
    x.parseData bank.code =
      if text.length = 1 then { x with epc := RfidParseEPC.parse hex, err := text }
      else if bank = .user then { x with epc := RfidParseEPC.parse hex, user := text }
      else { x with epc := RfidParseEPC.parse hex, tid := text } := by
  have hstr₁ : Captures.str [(2, text), (1, hex)] 1 = hex := rfl
  have hstr₂ : Captures.str [(2, text), (1, hex)] 2 = text := rfl
  cases bank <;>
    simp [RfidParseUR.parseData, Bank.code, rfidMbEpc, rfidMbTid, rfidMbUser, hm, hstr₁, hstr₂]

/-- The fields of `<@?><timestamp>-Antenna<antenna>-U<PC><EPC><CRC>,<R?><result>`. -/
structure MultiBankReply where
  head : ReadHead
  pc : HexText 4
  epc : Str
  epc_hex : ∀ ch ∈ epc, isHexDigit ch = true
  crc : HexText 4
  marked : Bool
  result : BankResult

namespace MultiBankReply

def data (r : MultiBankReply) : Str :=
  (r.pc ++ (r.epc ++ r.crc)) ++ (',' :: (optional r.marked 'R' ++ r.result.text))

def line (r : MultiBankReply) : Str := r.head.text ++ ('U' :: r.data)

/-- The fields put where a read of the bank has them. -/
def parsed (r : MultiBankReply) (bank : Bank) : RfidParseUR where
  isMatch := true
  hasData := true
  time := r.head.time.time
  antenna := r.head.antenna
  data := r.data
  epc := ⟨true, r.pc, r.epc, r.crc⟩
  tid := if bank = .user then [] else r.result.dataText
  user := if bank = .user then r.result.dataText else []
  err := r.result.errText

theorem data_isDot (r : MultiBankReply) : ∀ ch ∈ r.data, isDot ch = true := by
  have hmark : ∀ ch ∈ optional r.marked 'R', isDot ch = true := by
    intro ch hch
    cases hmarked : r.marked with
    | false => simp [optional, hmarked] at hch
    | true =>
        obtain rfl : ch = 'R' := by simpa [optional, hmarked] using hch
        rfl
  intro ch hch
  simp only [data, List.mem_append, List.mem_cons] at hch
  obtain (h | h | h) | rfl | h | h := hch
  · exact isDot_of_isHexDigit (r.pc.2.2 ch h)
  · exact isDot_of_isHexDigit (r.epc_hex ch h)
  · exact isDot_of_isHexDigit (r.crc.2.2 ch h)
  · rfl
  · exact hmark ch h
  · exact isDot_of_isHexDigit (r.result.text_hex ch h)

theorem fullMatch_data (r : MultiBankReply) :
    fullMatch dataRgx r.data = some [(2, r.result.text), (1, r.pc ++ (r.epc ++ r.crc))] := by
  have hhex := isHexDigit_epc_parts r.pc r.crc r.epc_hex
  exact fullMatch_dataRgx_text r.marked hhex
    (fun ch hch => isDot_of_isHexDigit (r.result.text_hex ch hch)) fun _ => r.result.text_head_ne_R

/-- The result goes to the bank's own field, an error code to the field of errors. -/
theorem parseData_eq (r : MultiBankReply) (bank : Bank) {x : RfidParseUR}
    (hdata : x.data = r.data) (htid : x.tid = []) (huser : x.user = []) (herr : x.err = []) :
    x.parseData bank.code =
      { x with
        epc := ⟨true, r.pc, r.epc, r.crc⟩
        tid := if bank = .user then [] else r.result.dataText
        user := if bank = .user then r.result.dataText else []
        err := r.result.errText } := by
  obtain ⟨isMatch, hasData, time, antenna, data, epc, tid, user, err⟩ := x
  simp only at hdata htid huser herr
  subst hdata htid huser herr
  rw [parseData_of_captures bank (x := ⟨isMatch, hasData, time, antenna, r.data, epc, [], [], []⟩)
    r.fullMatch_data]
  have hepc : RfidParseEPC.parse ((r.pc : Str) ++ (r.epc ++ r.crc)) = ⟨true, r.pc, r.epc, r.crc⟩ :=
    parse_epc_text r.pc r.crc r.epc_hex
  rw [hepc]
  cases r.result with
  | data w hex two_digits =>
      have hlen : ¬ w.length = 1 := by omega
      cases bank <;> simp [BankResult.text, BankResult.dataText, BankResult.errText, hlen]
  | error code listed =>
      cases bank <;> simp [BankResult.text, BankResult.dataText, BankResult.errText]

/-- The read that the parser makes of the line. -/
theorem parse_line (r : MultiBankReply) (u : Unset) (bank : Bank) :
    RfidParseUR.parse u r.line bank.code = some (r.parsed bank) := by
  have hne : r.data ≠ [] := by simp [data]
  have hread := RfidEngine.parse_text u r.head bank.code r.data_isDot hne
  have hdata := r.parseData_eq bank (x := { RfidParseUR.unset u with
    isMatch := true, hasData := true, time := r.head.time.time, antenna := r.head.antenna,
    data := r.data }) rfl rfl rfl rfl
  rw [hdata] at hread
  exact hread

theorem parsed_parsed (r : MultiBankReply) (u : Unset) (bank : Bank) : Parsed (r.parsed bank) :=
  ⟨u, r.line, bank.code, r.parse_line u bank⟩

/-- The fields that a read has of a reply: the result is the text of the bank or the error, and
the other two are empty. -/
structure Inverts (r : MultiBankReply) (bank : Bank) (x : RfidParseUR) : Prop where
  isMatch : x.isMatch = true
  hasData : x.hasData = true
  time : x.time = r.head.time.time
  antenna : x.antenna = r.head.antenna
  proto : x.epc.proto = r.pc
  epc : x.epc.epc = r.epc
  crc : x.epc.crc = r.crc
  result : match r.result, bank with
    | .error code _, _ => x.err = [code] ∧ x.tid = [] ∧ x.user = []
    | .data w _ _, .user => x.user = w ∧ x.tid = [] ∧ x.err = []
    | .data w _ _, _ => x.tid = w ∧ x.user = [] ∧ x.err = []

/-- The parser inverts the format of the replies. -/
theorem parse_inverts_reply (r : MultiBankReply) (u : Unset) (bank : Bank) :
    ∃ x, RfidParseUR.parse u r.line bank.code = some x ∧ r.Inverts bank x := by
  refine ⟨r.parsed bank, r.parse_line u bank, rfl, rfl, rfl, rfl, rfl, rfl, rfl, ?_⟩
  obtain ⟨head, pc, epc, epc_hex, crc, marked, result⟩ := r
  cases result with
  | data w hex two_digits => cases bank <;> exact ⟨rfl, rfl, rfl⟩
  | error code listed => cases bank <;> exact ⟨rfl, rfl, rfl⟩

end MultiBankReply

/-- The data of a bank read: an EPC text with its protocol word and checksum, and a bank text. -/
def bankData (epc tid : Str) : Str := "0000".toList ++ (epc ++ "0000".toList) ++ ",R".toList ++ tid

def sampleTime : Str := "2021/04/15 11:22:27.938".toList

/-- A read of antenna 1 with the given data. -/
def sampleRead (data : Str) : Str :=
  sampleTime ++ ("-Antenna".toList ++ (['1'] ++ (['-'] ++ (['U'] ++ data))))

def sampleHead : ReadHead where
  atSign := false
  time := ⟨⟨"2021".toList, by simp [isDigit]⟩, ⟨"04".toList, by simp [isDigit]⟩,
    ⟨"15".toList, by simp [isDigit]⟩, ⟨"11".toList, by simp [isDigit]⟩,
    ⟨"22".toList, by simp [isDigit]⟩, ⟨"27".toList, by simp [isDigit]⟩,
    ⟨"938".toList, by simp [isDigit]⟩⟩
  antenna := ['1']
  antenna_ne_nil := by simp
  antenna_digits := by simp [isDigit]

def nothingSet : Unset := ⟨false, false, ⟨false, 0, 0, 0, 0, 0, 0, 0⟩⟩

/-- A read of antenna 1 with an EPC and a TID. -/
def sampleUR (epc tid : Str) : RfidParseUR where
  isMatch := true
  hasData := true
  time := ⟨true, 2021, 4, 15, 11, 22, 27, 938⟩
  antenna := ['1']
  data := bankData epc tid
  epc := ⟨true, "0000".toList, epc, "0000".toList⟩
  tid := tid
  user := []
  err := []

def zeros : HexText 4 := ⟨"0000".toList, rfl, List.all_eq_true.mp rfl⟩

/-- The data of a sample are marked and end with the bank text. -/
theorem bankData_eq (epc tid : Str) : bankData epc tid =
    ((zeros : Str) ++ (epc ++ zeros)) ++ ',' :: (optional true 'R' ++ tid) :=
  List.append_assoc _ _ _

theorem bankData_isDot {epc tid : Str} (hepc : ∀ ch ∈ epc, isHexDigit ch = true)
    (htid : ∀ ch ∈ tid, isDot ch = true) : ∀ ch ∈ bankData epc tid, isDot ch = true := by
  have hcomma : ∀ ch ∈ [',', 'R'], isDot ch = true := List.all_eq_true.mp rfl
  intro ch hch
  rw [bankData_eq, List.mem_append] at hch
  obtain hhex | hrest := hch
  · exact isDot_of_isHexDigit (isHexDigit_epc_parts zeros zeros hepc ch hhex)
  · have hmem : ch ∈ [',', 'R'] ++ tid := hrest
    obtain h | h := List.mem_append.mp hmem
    · exact hcomma ch h
    · exact htid ch h

/-- Every run of hex digits is the EPC, and every text without a line end, save those of one
letter, the TID of a read that the parser yields. -/
theorem parsed_sampleUR {epc tid : Str} (hepc : ∀ ch ∈ epc, isHexDigit ch = true)
    (htid : ∀ ch ∈ tid, isDot ch = true) (hlen : tid.length ≠ 1) : Parsed (sampleUR epc tid) := by
  have hmatch : fullMatch dataRgx (bankData epc tid) =
      some [(2, tid), (1, zeros ++ (epc ++ zeros))] := by
    rw [bankData_eq]
    exact fullMatch_dataRgx_text true (isHexDigit_epc_parts zeros zeros hepc) htid (by simp)
  have hread := parse_text nothingSet sampleHead Bank.epc.code (bankData_isDot hepc htid)
    (by simp [bankData_eq])
  have hfields := parseData_of_captures Bank.epc (x := { RfidParseUR.unset nothingSet with
    isMatch := true, hasData := true, time := sampleHead.time.time, antenna := ['1'],
    data := bankData epc tid }) hmatch
  rw [if_neg hlen, if_neg (by decide), parse_epc_text zeros zeros hepc] at hfields
  exact ⟨nothingSet, sampleRead (bankData epc tid), Bank.epc.code, hread.trans
    (congrArg some hfields)⟩

def sampleEpc : HexText 16 := ⟨"300833B2DDD90140".toList, rfl, List.all_eq_true.mp rfl⟩

def otherEpc : HexText 16 := ⟨"E2806890000040AB".toList, rfl, List.all_eq_true.mp rfl⟩

def sampleTid : BankResult := .data "E2003412".toList (List.all_eq_true.mp rfl) (by decide)

/-- An error code in place of the TID. -/
def missingTid : BankResult := .error '3' (by simp)

/-- A reply on antenna 1. -/
def sampleReply (epc : HexText 16) (result : BankResult) : MultiBankReply :=
  ⟨sampleHead, zeros, epc, epc.2.2, zeros, true, result⟩

end RfidEngine
