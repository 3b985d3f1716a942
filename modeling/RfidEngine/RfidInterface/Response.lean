import RfidEngine.Lib.Fields
import RfidEngine.Replies
import RfidEngine.RfidInterface.Requests

/-!
# RfidInterface: one text sent and its response

Most functions of the interface send one text and take their result from what
`Send` gives back. They read the response through `GetContent`, cut it with
`TStringTokenizer` and `std::string::substr`, and read numbers with `strtol`.
An exception of the standard library ends a function without a result.
-/

namespace RfidEngine.RfidInterface

open BacktrackRegex

/-- A function that returns at once, or sends a text and makes its result of the count of bytes
sent and the response. -/
inductive Exchange (α : Type*) where
  | done (result : α)
  | send (uiCommandType : Nat) (szSend : Str) (reply : Int → Str → α)

namespace Exchange

variable {α : Type*}

/-- The result for what `Send` gives back. -/
def after : Exchange α → Int → Str → α
  | done result, _, _ => result
  | send _ _ reply, nSend, response => reply nSend response

/-- The text that is sent, if one is. -/
def sent : Exchange α → Option Str
  | done _ => none
  | send _ szSend _ => some szSend

end Exchange

/-- `snprintf` into a buffer of `MAX_SEND_BUFFER` characters, the last of which is a zero. -/
def snprintf (text : Str) : Str := text.take 1535

theorem snprintf_eq_self {text : Str} (h : text.length ≤ 1535) : snprintf text = text :=
  List.take_of_length_le h

/-- The text that a `char *` points to ends at its first zero. -/
def cStr (s : Str) : Str := s.takeWhile (· != '\x00')

/-- The difference of two sizes wraps around. -/
def sizeSub (a b : Nat) : Nat := if b ≤ a then a - b else a + 18446744073709551616 - b

/-- `substr` throws when it starts behind the end. -/
def substr (s : Str) (pos n : Nat) : Option Str :=
  if pos ≤ s.length then some ((s.drop pos).take n) else none

/-- The loop of `Token`: `strSubstring` is the text from `nPrevPos` up to the position that the
search has come to, the list what is left of the string. -/
def tokenLoop (szDelimiter : Char) (strSubstring : Str) : Str → List Str
  | [] => [strSubstring]
  | ch :: rest =>
      if ch = szDelimiter then strSubstring :: tokenLoop szDelimiter [] rest
      else tokenLoop szDelimiter (strSubstring ++ [ch]) rest

def token (strString : Str) (szDelimiter : Char) : List Str := tokenLoop szDelimiter [] strString

/-- `([\n]?)(.*)([\r\n]?)` -/
def rgxContent : Regex Char :=
  .seqs [.group 1 (.opt (.char (· == '\n'))), .group 2 (.many isDot),
    .group 3 (.opt (.char fun ch => ch == '\r' || ch == '\n'))]

/-- `GetContent` with its default, by which a leading `@` is removed; `at` throws on an empty
text. -/
def getContent (lpBuffer : Str) : Option Str :=
  let strBuffer := cStr lpBuffer
  let strBuffer := match fullMatch rgxContent strBuffer with
    | some indexMatch => Captures.str indexMatch 2
    | none => strBuffer
  match strBuffer with
  | [] => none
  | ch :: rest => some (if ch = '@' then rest else strBuffer)

def longMin : Int := -9223372036854775808
def longMax : Int := 9223372036854775807

/-- The value of a digit or letter; no base reaches that of any other character. -/
def digitValue (ch : Char) : Nat :=
  if isDigit ch then ch.toNat - '0'.toNat
  else if 'a' ≤ ch ∧ ch ≤ 'z' then ch.toNat - 'a'.toNat + 10
  else if 'A' ≤ ch ∧ ch ≤ 'Z' then ch.toNat - 'A'.toNat + 10
  else 36

/-- The prefix `0x`, which counts only in front of a digit. -/
def skipHexPrefix : Str → Str
  | '0' :: x :: ch :: rest =>
      if (x = 'x' ∨ x = 'X') ∧ digitValue ch < 16 then ch :: rest else '0' :: x :: ch :: rest
  | s => s

/-- `strtol`: white space, a sign, for base 16 a prefix, then digits; a value out of range is
the bound. -/
def strtol (s : Str) (base : Nat) : Int :=
  let unsigned (s : Str) : Int :=
    let s := if base = 16 then skipHexPrefix s else s
    (s.takeWhile fun ch => digitValue ch < base).foldl
      (fun (n : Int) ch => base * n + digitValue ch) 0
  let value := match ltrim (cStr s) with
    | '-' :: rest => -unsigned rest
    | '+' :: rest => unsigned rest
    | s => unsigned s
  max longMin (min longMax value)

/-- The conversion to `unsigned int`. -/
def toUnsigned (n : Int) : Nat := (n % 4294967296).toNat

def textRfidAntenna : Str := "Antenna".toList

def parseAntenna (lpszAntenna : Str) : Option Nat :=
  let strAntenna := cStr lpszAntenna
  if strAntenna.take textRfidAntenna.length = textRfidAntenna ∧
      textRfidAntenna.length < strAntenna.length then
    some (toUnsigned (strtol (strAntenna.drop textRfidAntenna.length) 10))
  else none

def errorRfidSuccess : Nat := 0x00

def parseErrorCode (szResponseCode : Char) : Nat :=
  match szResponseCode with
  | '0' => 0xFE
  | '3' => 0x03
  | '4' => 0x04
  | 'B' => 0x0B
  | 'F' => 0xFF
  | _ => errorRfidSuccess

theorem tokenLoop_eq (d : Char) (word s : Str) :
    tokenLoop d word s = (s.splitOn d).modifyHead (word ++ ·) := by
  induction s generalizing word with
  | nil => simp [tokenLoop]
  | cons ch s ih =>
      rw [tokenLoop, List.splitOn_cons_eq_if_modifyHead]
      obtain ⟨field, fields, heq⟩ := List.exists_cons_of_ne_nil (List.splitOn_ne_nil d s)
      by_cases hch : ch = d
      · rw [if_pos hch, if_pos (beq_iff_eq.mpr hch), ih, heq]
        simp
      · rw [if_neg hch, if_neg (by simpa using hch), ih, heq]
        simp

/-- The tokens of a text are its fields. -/
theorem token_eq_splitOn (s : Str) (d : Char) : token s d = s.splitOn d := by
  obtain ⟨field, fields, heq⟩ := List.exists_cons_of_ne_nil (List.splitOn_ne_nil d s)
  rw [token, tokenLoop_eq, heq]
  simp

theorem cStr_eq_self {s : Str} (h : '\x00' ∉ s) : cStr s = s := by
  apply List.takeWhile_eq_self_iff.mpr
  intro ch hch
  simpa using fun heq : ch = '\x00' => h (heq ▸ hch)

/-- A part of a text is cut out by its place and its length. -/
theorem substr_of_parts {s : Str} {pos n : Nat} (u v w : Str) (hs : s = u ++ (v ++ w))
    (hpos : pos = u.length) (hn : n = v.length) : substr s pos n = some v := by
  subst hs hpos hn
  rw [substr, if_pos (by simp), List.drop_left, List.take_left]

/-- The command letter is cut off. -/
@[simp] theorem substr_tail (ch : Char) (s : Str) :
    substr (ch :: s) 1 (sizeSub (ch :: s).length 1) = some s := by
  simp [substr, sizeSub]

/-- The text behind a line feed in front of it. -/
def afterFeed : Str → Str
  | [] => []
  | ch :: rest => if ch = '\n' then rest else ch :: rest

/-- The text without a line feed in front of it and one line end behind it; a text of more
lines is kept. -/
def line (s : Str) : Str :=
  if ((afterFeed s).dropWhile isDot).length ≤ 1 then (afterFeed s).takeWhile isDot else s

/-- The line feed in front of a text is there or not. -/
theorem exists_lead (s : Str) : ∃ lead, (lead = ['\n'] ∨ lead = []) ∧
    (lead = [] → (afterFeed s).head? ≠ some '\n') ∧ lead ++ afterFeed s = s := by
  cases s with
  | nil => exact ⟨[], Or.inr rfl, by simp [afterFeed], rfl⟩
  | cons ch rest =>
      by_cases hch : ch = '\n'
      · exact ⟨['\n'], Or.inl rfl, by simp, by simp [afterFeed, hch]⟩
      · exact ⟨[], Or.inr rfl, by simp [afterFeed, hch], by simp [afterFeed, hch]⟩

theorem dropWhile_isDot_append {w t : Str} (hw : ∀ ch ∈ w, isDot ch = true) :
    (w ++ t).dropWhile isDot = t.dropWhile isDot := by
  induction w with
  | nil => rfl
  | cons ch w ih =>
      rw [List.cons_append, List.dropWhile_cons, if_pos (hw ch List.mem_cons_self)]
      exact ih fun x hx => hw x (List.mem_cons_of_mem ch hx)

/-- An optional symbol is taken where it stands. -/
theorem first_opt_char (p : Char → Bool) (b : Bool) (s : Str) :
    (attempts (.opt (.char p)) b s).head? =
      some (match s with
        | [] => ⟨[], [], []⟩
        | ch :: rest => if p ch then ⟨[ch], rest, []⟩ else ⟨[], ch :: rest, []⟩) := by
  cases s with
  | nil => rfl
  | cons ch rest => by_cases hp : p ch = true <;> simp [attempts, hp]

/-- Where one line end at most follows the line, the second group is the line. -/
theorem fullMatch_rgxContent {lead body : Str} (hlead : lead = ['\n'] ∨ lead = [])
    (hbody : lead = [] → body.head? ≠ some '\n') (hend : (body.dropWhile isDot).length ≤ 1) :
    fullMatch rgxContent (lead ++ body) =
      some [(3, body.dropWhile isDot), (2, body.takeWhile isDot), (1, lead)] := by
  have hfirst : (attempts (.opt (.char (· == '\n'))) true (lead ++ body)).head? =
      some ⟨lead, body, []⟩ := by
    rw [first_opt_char]
    obtain rfl | rfl := hlead
    · rfl
    · cases body with
      | nil => rfl
      | cons ch body =>
          have hch : ¬ ch = '\n' := fun heq => hbody rfl (congrArg some heq)
          simp [hch]
  have hrest : ∀ ch, (body.dropWhile isDot).head? = some ch → isDot ch = false := by
    intro ch hch
    have hnot := List.head?_dropWhile_not isDot body
    rwa [hch] at hnot
  have hmany : ∀ b, (attempts (.many isDot) b body).head? =
      some ⟨body.takeWhile isDot, body.dropWhile isDot, []⟩ := by
    intro b
    have hdots : ∀ ch ∈ body.takeWhile isDot, isDot ch = true :=
      fun ch hch => List.mem_takeWhile_imp hch
    have hfirst := first_many (b := b) hdots hrest
    rwa [List.takeWhile_append_dropWhile] at hfirst
  have hlast : ∀ b, (attempts (.opt (.char fun ch => ch == '\r' || ch == '\n')) b
      (body.dropWhile isDot)).head? = some ⟨body.dropWhile isDot, [], []⟩ := by
    intro b
    rw [first_opt_char]
    match hdrop : body.dropWhile isDot with
    | [] => rfl
    | [ch] =>
        have hch := hrest ch (by rw [hdrop]; rfl)
        have hend : (ch == '\r' || ch == '\n') = true := by
          by_contra hne
          exact absurd hch (by simpa [isDot, and_comm] using hne)
        simp [hend]
    | _ :: _ :: _ =>
        rw [hdrop] at hend
        exact absurd hend (by simp)
  have hend' : ∀ b, (attempts (.empty : Regex Char) b []).head? = some ⟨[], [], []⟩ :=
    fun _ => rfl
  have hall := first_seq (first_group (i := 1) hfirst)
    (first_seq (first_group (i := 2) (hmany _))
      (first_seq (first_group (i := 3) (hlast _)) (hend' _)))
  simpa [rgxContent, Regex.seqs] using fullMatch_of_first hall

/-- Where more follows the line, the expression does not match. -/
theorem fullMatch_rgxContent_eq_none {s : Str}
    (h : ¬ ((afterFeed s).dropWhile isDot).length ≤ 1) : fullMatch rgxContent s = none := by
  have hopt : ∀ p b (w t : Str) c, Derives (.opt (.char p)) b w t c ↔
      (w = [] ∨ ∃ ch, p ch = true ∧ w = [ch]) ∧ c = [] := by
    intro p b w t c
    simp only [Derives]
    constructor
    · rintro (⟨hch, rfl⟩ | ⟨rfl, rfl⟩)
      · exact ⟨Or.inr hch, rfl⟩
      · exact ⟨Or.inl rfl, rfl⟩
    · rintro ⟨rfl | hch, rfl⟩
      · exact Or.inr ⟨rfl, rfl⟩
      · exact Or.inl ⟨hch, rfl⟩
  have hmany : ∀ b (w t : Str) c, Derives (.many isDot) b w t c ↔
      (∀ ch ∈ w, isDot ch = true) ∧ c = [] := fun _ _ _ _ => Iff.rfl
  by_contra hmatch
  obtain ⟨c, hc⟩ := Option.ne_none_iff_exists'.mp hmatch
  have hderives := fullMatch_sound hc
  simp only [rgxContent, Regex.seqs, derives_seq_group_iff (hopt _), derives_seq_group_iff hmany,
    derives_empty_iff] at hderives
  obtain ⟨lead, _, _, rfl, hlead, ⟨u, _, _, rfl, hu, ⟨last, _, _, rfl, hlast, ⟨rfl, rfl⟩, rfl⟩,
    rfl⟩, rfl⟩ := hderives
  rw [List.append_nil] at h
  have hlen : last.length ≤ 1 := by
    obtain rfl | ⟨ch, -, rfl⟩ := hlast <;> simp
  have hafter : ((u ++ last).dropWhile isDot).length ≤ 1 := by
    rw [dropWhile_isDot_append hu]
    exact (List.dropWhile_suffix isDot).length_le.trans hlen
  apply h
  obtain rfl | ⟨ch, hch, rfl⟩ := hlead
  · rw [List.nil_append]
    cases u with
    | cons ch u =>
        have hch : ¬ ch = '\n' := (isDot_iff.mp (hu ch List.mem_cons_self)).1
        rw [List.cons_append, afterFeed, if_neg hch]
        exact hafter
    | nil =>
        -- A line feed in front is the line end here, and nothing follows it.
        obtain rfl | ⟨ch, -, rfl⟩ := hlast
        · simp [afterFeed]
        · by_cases hch : ch = '\n'
          · simp [afterFeed, hch]
          · rw [List.nil_append, afterFeed, if_neg hch]
            exact hafter
  · obtain rfl : ch = '\n' := by simpa using hch
    rw [List.singleton_append, afterFeed, if_pos rfl]
    exact hafter

/-- The content of a response is its line without a leading `@`. -/
theorem getContent_eq (lpBuffer : Str) :
    getContent lpBuffer = match line (cStr lpBuffer) with
      | [] => none
      | ch :: rest => some (if ch = '@' then rest else ch :: rest) := by
  have hline : (match fullMatch rgxContent (cStr lpBuffer) with
      | some indexMatch => Captures.str indexMatch 2
      | none => cStr lpBuffer) = line (cStr lpBuffer) := by
    generalize cStr lpBuffer = s
    by_cases hend : ((afterFeed s).dropWhile isDot).length ≤ 1
    · obtain ⟨lead, hlead, hbody, hs⟩ := exists_lead s
      have hmatch := fullMatch_rgxContent hlead hbody hend
      rw [hs] at hmatch
      rw [hmatch, line, if_pos hend]
      rfl
    · rw [fullMatch_rgxContent_eq_none hend, line, if_neg hend]
  rw [getContent]
  simp only [hline]
  cases line (cStr lpBuffer) with
  | nil => rfl
  | cons ch rest => rfl

theorem line_eq_self {s : Str} (hdot : ∀ ch ∈ s, isDot ch = true) : line s = s := by
  have hfeed : afterFeed s = s := by
    cases s with
    | nil => rfl
    | cons ch rest => exact if_neg (isDot_iff.mp (hdot ch List.mem_cons_self)).1
  have hdrop := dropWhile_isDot_append hdot (t := [])
  rw [List.append_nil] at hdrop
  rw [line, hfeed, hdrop, if_pos (by simp), List.takeWhile_eq_self_iff.mpr hdot]

/-- The content of a response of one line without a zero. -/
theorem getContent_cons {ch : Char} {rest : Str} (hzero : '\x00' ∉ ch :: rest)
    (hdot : ∀ c ∈ ch :: rest, isDot c = true) :
    getContent (ch :: rest) = some (if ch = '@' then rest else ch :: rest) := by
  rw [getContent_eq, cStr_eq_self hzero, line_eq_self hdot]

theorem getContent_at {content : Str} (hzero : '\x00' ∉ content)
    (hdot : ∀ ch ∈ content, isDot ch = true) : getContent ('@' :: content) = some content := by
  rw [getContent_cons (by simpa using hzero) (List.forall_mem_cons.mpr ⟨rfl, hdot⟩), if_pos rfl]

/-- A decimal number in digits. -/
abbrev DecimalText := {w : Str // w ≠ [] ∧ ∀ ch ∈ w, isDigit ch = true}

theorem DecimalText.not_mem (n : DecimalText) {ch : Char} (h : isDigit ch = false) :
    ch ∉ (n : Str) :=
  fun hmem => absurd (h.symm.trans (n.2.2 ch hmem)) Bool.false_ne_true

/-- The number that a text of hex digits denotes. -/
def hexValue (w : Str) : Nat := Nat.ofDigits 16 (w.map digitValue).reverse

theorem ne_of_digitValue {ch c : Char} {base : Nat} (hbase : base ≤ 36)
    (h : digitValue ch < base) (hc : digitValue c = 36) : ch ≠ c := by
  rintro rfl
  omega

theorem isspace_of_digitValue {ch : Char} {base : Nat} (hbase : base ≤ 36)
    (h : digitValue ch < base) : isspace ch = false := by
  have hne : ∀ c, digitValue c = 36 → (ch == c) = false :=
    fun c hc => beq_false_of_ne (ne_of_digitValue hbase h hc)
  simp [isspace, hne ' ' rfl, hne '\t' rfl, hne '\n' rfl, hne '\x0b' rfl, hne '\x0c' rfl,
    hne '\r' rfl]

theorem skipHexPrefix_eq_self {s : Str} (hs : ∀ ch ∈ s, digitValue ch < 16) :
    skipHexPrefix s = s := by
  unfold skipHexPrefix
  split
  · rename_i x ch rest
    refine if_neg fun hskip => ?_
    have hx : digitValue x < 16 := hs x (by simp)
    obtain rfl | rfl := hskip.1
    · exact absurd hx (by decide)
    · exact absurd hx (by decide)
  · rfl

/-- A text of digits is all that is read of it: no zero, no white space, no sign and no prefix
stands in it. -/
theorem bare_of_digits {base : Nat} (hbase : base ≤ 36) {w : Str}
    (hw : ∀ ch ∈ w, digitValue ch < base) :
    ltrim (cStr w) = w ∧ (∀ c rest, digitValue c = 36 → w ≠ c :: rest) ∧
      (if base = 16 then skipHexPrefix w else w) = w ∧
      (w.takeWhile fun ch => digitValue ch < base) = w := by
  have hzero : '\x00' ∉ w := fun h => ne_of_digitValue hbase (hw _ h) rfl rfl
  refine ⟨?_, ?_, ?_, ?_⟩
  · rw [cStr_eq_self hzero]
    cases w with
    | nil => rfl
    | cons ch w =>
        simp [ltrim, isspace_of_digitValue hbase (hw ch List.mem_cons_self)]
  · rintro c rest hc rfl
    exact ne_of_digitValue hbase (hw c List.mem_cons_self) hc rfl
  · split
    · rename_i h16
      exact skipHexPrefix_eq_self (h16 ▸ hw)
    · rfl
  · exact List.takeWhile_eq_self_iff.mpr fun ch hch => decide_eq_true (hw ch hch)

/-- A text of digits is read as the number it denotes, or as the bound. -/
theorem strtol_of_digits {base : Nat} (hbase : base ≤ 36) {w : Str}
    (hw : ∀ ch ∈ w, digitValue ch < base) :
    strtol w base = min longMax (Nat.ofDigits base (w.map digitValue).reverse : Nat) := by
  obtain ⟨htext, hsign, hskip, hdigits⟩ := bare_of_digits hbase hw
  have hnonneg : longMin ≤ min longMax (Nat.ofDigits base (w.map digitValue).reverse : Nat) := by
    unfold longMin longMax
    omega
  unfold strtol
  rw [htext]
  simp only
  split
  · exact absurd rfl (hsign '-' _ rfl)
  · exact absurd rfl (hsign '+' _ rfl)
  · rw [hskip, hdigits, foldl_ofDigits, max_eq_right hnonneg]

theorem digitValue_lt_ten {ch : Char} (h : isDigit ch = true) : digitValue ch < 10 := by
  rw [digitValue, if_pos h]
  exact digit_lt h

theorem toNat_le {ch c : Char} (h : ch ≤ c) : ch.toNat ≤ c.toNat := by
  simpa [Char.le_def, UInt32.le_iff_toNat_le] using h

theorem toNat_le_of_isDigit {ch : Char} (h : isDigit ch = true) : ch.toNat ≤ 57 := by
  simp only [isDigit, Bool.and_eq_true, decide_eq_true_eq] at h
  exact toNat_le h.2

theorem digitValue_lt_sixteen {ch : Char} (h : isHexDigit ch = true) : digitValue ch < 16 := by
  simp only [isHexDigit, Bool.or_eq_true, Bool.and_eq_true, decide_eq_true_eq] at h
  obtain (hdigit | hlower) | hupper := h
  · have hlt : digitValue ch < 10 := digitValue_lt_ten (by simpa [isDigit] using hdigit)
    omega
  · have hle : ch.toNat ≤ 102 := toNat_le hlower.2
    have hge : 97 ≤ ch.toNat := toNat_le hlower.1
    have hnot : ¬ isDigit ch = true := fun h => by
      have hnine := toNat_le_of_isDigit h
      omega
    have ha : 'a'.toNat = 97 := rfl
    rw [digitValue, if_neg hnot, if_pos ⟨hlower.1, hlower.2.trans (by decide)⟩]
    omega
  · have hle : ch.toNat ≤ 70 := toNat_le hupper.2
    have hge : 65 ≤ ch.toNat := toNat_le hupper.1
    have hnot : ¬ isDigit ch = true := fun h => by
      have hnine := toNat_le_of_isDigit h
      omega
    have hlower : ¬ ('a' ≤ ch ∧ ch ≤ 'z') := by
      intro hlower
      have hfloor : 97 ≤ ch.toNat := toNat_le hlower.1
      omega
    have ha : 'A'.toNat = 65 := rfl
    rw [digitValue, if_neg hnot, if_neg hlower, if_pos ⟨hupper.1, hupper.2.trans (by decide)⟩]
    omega

theorem strtol_decimal (n : DecimalText) : strtol n 10 = min longMax (decimalValue n) := by
  have hmap : (n : Str).map digitValue = (n : Str).map fun ch => ch.toNat - '0'.toNat :=
    List.map_congr_left fun ch hch => if_pos (n.2.2 ch hch)
  rw [strtol_of_digits (by omega) fun ch hch => digitValue_lt_ten (n.2.2 ch hch), hmap]
  rfl

theorem hexValue_lt {w : Str} (hw : ∀ ch ∈ w, isHexDigit ch = true) :
    hexValue w < 16 ^ w.length := by
  have hlt : ∀ d ∈ (w.map digitValue).reverse, d < 16 := by
    intro d hd
    obtain ⟨ch, hch, rfl⟩ := List.mem_map.mp (List.mem_reverse.mp hd)
    exact digitValue_lt_sixteen (hw ch hch)
  have hvalue := Nat.ofDigits_lt_base_pow_length (b := 16) (by omega) hlt
  rwa [List.length_reverse, List.length_map] at hvalue

/-- A protocol word or checksum is read as the number it denotes. -/
theorem toUnsigned_strtol_hex (w : HexText 4) : toUnsigned (strtol w 16) = hexValue w := by
  have hlt := hexValue_lt w.2.2
  rw [w.2.1] at hlt
  have hvalue : strtol (w : Str) 16 = min longMax (hexValue w) :=
    strtol_of_digits (by omega) fun ch hch => digitValue_lt_sixteen (w.2.2 ch hch)
  rw [hvalue]
  unfold toUnsigned longMax
  omega

/-- An antenna is stored as it is written exactly when it is an `unsigned int`. -/
theorem toUnsigned_strtol_decimal (n : DecimalText) :
    toUnsigned (strtol n 10) = decimalValue n ↔ decimalValue n < 4294967296 := by
  rw [strtol_decimal n]
  unfold toUnsigned longMax
  omega

theorem parseAntenna_text (n : DecimalText) :
    parseAntenna (cStr (textRfidAntenna ++ n)) = some (toUnsigned (strtol n 10)) := by
  have hzero : '\x00' ∉ textRfidAntenna ++ (n : Str) := by
    rw [List.mem_append, not_or]
    exact ⟨by decide, n.not_mem rfl⟩
  have hlen : textRfidAntenna.length < (textRfidAntenna ++ (n : Str)).length := by
    rw [List.length_append]
    exact Nat.lt_add_of_pos_right (List.length_pos_iff.mpr n.2.1)
  rw [parseAntenna, cStr_eq_self hzero, cStr_eq_self hzero]
  simp only [List.take_left, hlen, and_self, if_true, List.drop_left]

end RfidEngine.RfidInterface
