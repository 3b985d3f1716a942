import RfidEngine.Api.Model
import RfidEngine.RfidInterface.Heartbeat
import RfidEngine.RfidInterface.Response

/-!
# RfidInterface: dates and times

`ParseDateTime` cuts a text at its space, its slashes, its colons and its dot.
It returns `true` for every text of two words: where a word is not of the form
it looks for, the fields of that word keep what they held before. The structure
has no place for milliseconds, which are stored as the flag of daylight saving
time.

## Main results

The texts and prior contents for which it accepts a date and time and nothing
else; and the text that `SetTime` sends, with its answer.
-/

namespace RfidEngine.RfidInterface

open BacktrackRegex

def rfPtReqSetDateTime : Nat := 0x19

/-- The result of an operation on `int`, which is undefined where it overflows. -/
def intResult (n : Int) : Option Int := if -2147483648 ≤ n ∧ n ≤ intMax then some n else none

/-- The conversion of a `long` to `int`. -/
def longToInt (n : Int) : Int := Int.bmod n 4294967296

/-- The date of `ParseDateTime`: a text of another form leaves the structure as it is. -/
def parseDate (strDate : Str) (stDateTime : Tm) : Tm :=
  match token strDate '/' with
  | [year, month, day] => { stDateTime with
      year := longToInt (strtol year 10)
      mon := longToInt (strtol month 10)
      mday := longToInt (strtol day 10) }
  | _ => stDateTime

/-- The seconds, with milliseconds behind a single dot. -/
def parseSecond (strSecond : Str) (stDateTime : Tm) : Tm :=
  match token strSecond '.' with
  | [second, uiMillisecond] => { stDateTime with
      sec := longToInt (strtol second 10)
      isdst := toInt (toUnsigned (strtol uiMillisecond 10)) }
  | _ => { stDateTime with sec := longToInt (strtol strSecond 10) }

/-- The time of `ParseDateTime`; it too may be of another form. -/
def parseClock (strTime : Str) (stDateTime : Tm) : Tm :=
  match token strTime ':' with
  | [hour, minute, second] =>
      parseSecond (cStr second) { stDateTime with
        hour := longToInt (strtol hour 10)
        min := longToInt (strtol minute 10) }
  | _ => stDateTime

def parseDateTime (strDataTime : Str) (stDateTime : Tm) : Option (Bool × Tm) :=
  if strDataTime = [] then some (false, stDateTime)
  else
    let stDateTime := { stDateTime with wday := 0, yday := 0, isdst := 0 }
    match token strDataTime ' ' with
    | [date, time] => do
        let stDateTime := parseClock (cStr time) (parseDate (cStr date) stDateTime)
        let year ← intResult (stDateTime.year - 1900)
        let mon ← intResult (stDateTime.mon - 1)
        some (true, { stDateTime with year := year, mon := mon })
    | _ => some (false, stDateTime)

/-- `ParseSetTime`; its own structure starts with whatever is on the stack. -/
def parseSetTime (stTime : Tm) (lpBuffer : Str) (pstTime : Tm) : Option (Bool × Tm) := do
  let strContent ← getContent lpBuffer
  let (fResult, stTime) ← parseDateTime strContent stTime
  some (fResult, if fResult then stTime else pstTime)

/-- The conversion `%02d`; a negative number has its two characters without a zero. -/
def twoDigits (n : Int) : Str := (decimal n).leftpad 2 '0'

/-- `\n@SETDATE`, seven times `%02d` and `\r`: the year counts from 1900, the month from 1, and
Sunday is the seventh day. -/
def setTimeText (year mon : Int) (stTime : Tm) : Str :=
  "\n@SETDATE".toList ++
    [year.tmod 100, if stTime.wday = 0 then 7 else stTime.wday, mon, stTime.mday, stTime.hour,
      stTime.min, stTime.sec].flatMap twoDigits ++ ['\r']

/-- The reply of `SetTime` with what its structure for the response, and that of the parser, hold
before. -/
def setTimeReply (unset unsetParsed stTime : Tm) (response : Str) : Option Int :=
  if response.length > 0 then do
    let (fParsed, stResponseTime) ← parseSetTime unsetParsed response unset
    if fParsed then
      some (if stTime.year = stResponseTime.year ∧ stTime.mon = stResponseTime.mon ∧
          stTime.mday = stResponseTime.mday ∧ stTime.hour = stResponseTime.hour ∧
          stTime.min = stResponseTime.min ∧ stTime.sec = stResponseTime.sec then rfidOk
        else rfidErrEchoResult)
    else some rfidErrParse
  else some rfidErrNoResponse

def setTime (unset unsetParsed stTime : Tm) : Exchange (Option Int) :=
  match intResult (stTime.year + 1900), intResult (stTime.mon + 1) with
  | some year, some mon =>
      .send rfPtReqSetDateTime (snprintf (setTimeText year mon stTime))
        fun _ response => setTimeReply unset unsetParsed stTime response
  | _, _ => .done none

/-- `<year>/<month>/<day> <hour>:<minute>:<second>` or the same with `.<millisecond>`. -/
structure DateTime where
  year : DecimalText
  month : DecimalText
  day : DecimalText
  hour : DecimalText
  minute : DecimalText
  second : DecimalText
  millisecond : Option DecimalText

namespace DateTime

def dateText (d : DateTime) : Str := d.year ++ '/' :: (d.month ++ '/' :: d.day)

def secondText (d : DateTime) : Str :=
  match d.millisecond with
  | none => d.second
  | some ms => d.second ++ '.' :: ms

def clockText (d : DateTime) : Str := d.hour ++ ':' :: (d.minute ++ ':' :: d.secondText)

def text (d : DateTime) : Str := d.dateText ++ ' ' :: d.clockText

def msValue (d : DateTime) : Nat :=
  match d.millisecond with
  | none => 0
  | some ms => decimalValue ms

/-- The fields of the text, in the units of the structure. -/
structure StoredIn (d : DateTime) (st : Tm) : Prop where
  year : st.year = decimalValue d.year - 1900
  mon : st.mon = decimalValue d.month - 1
  mday : st.mday = decimalValue d.day
  hour : st.hour = decimalValue d.hour
  min : st.min = decimalValue d.minute
  sec : st.sec = decimalValue d.second
  isdst : st.isdst = d.msValue

/-- Every number of the text is an `int`. -/
def Fits (d : DateTime) : Prop :=
  decimalValue d.year ≤ intMax ∧ decimalValue d.month ≤ intMax ∧ decimalValue d.day ≤ intMax ∧
    decimalValue d.hour ≤ intMax ∧ decimalValue d.minute ≤ intMax ∧
    decimalValue d.second ≤ intMax ∧ d.msValue ≤ intMax

end DateTime

/-- The parser of packets found the same time. -/
structure SameTime (time : RfidTime) (st : Tm) : Prop where
  year : time.year = st.year + 1900
  month : time.month = st.mon + 1
  day : time.day = st.mday
  hour : time.hour = st.hour
  min : time.min = st.min
  sec : time.sec = st.sec
  ms : time.ms = st.isdst

/-- The parser accepts a text exactly when it is a date and time, stores what it says whatever was
there before, agrees with the parser of packets, and leaves the structure as it was where it does
not accept the text. -/
def AcceptsDateTime (s : Str) (prior : Tm) : Prop :=
  ∃ fResult stDateTime, parseDateTime s prior = some (fResult, stDateTime) ∧
    (fResult = true ↔ ∃ d : DateTime, d.text = s) ∧
    (fResult = true → (∃ d : DateTime, d.text = s ∧ d.StoredIn stDateTime) ∧
      ∀ prior', parseDateTime s prior' = some (true, stDateTime)) ∧
    (fResult = false → stDateTime = prior) ∧
    ∀ unset time, RfidTime.parse unset s = some time → time.isMatch = true →
      fResult = true ∧ SameTime time stDateTime

/-- A number is stored as it is written exactly when it is an `int`. -/
theorem longToInt_strtol_iff (n : DecimalText) :
    longToInt (strtol n 10) = decimalValue n ↔ decimalValue n ≤ intMax := by
  rw [strtol_decimal n]
  unfold longToInt longMax intMax
  rw [Int.bmod_def]
  split <;> omega

theorem toInt_toUnsigned (n : Int) : toInt (toUnsigned n) = longToInt n := by
  have hmod : 0 ≤ n % 4294967296 := Int.emod_nonneg n (by omega)
  unfold toInt toUnsigned longToInt
  rw [Int.toNat_of_nonneg hmod, Int.bmod_def, Int.bmod_def]
  omega

theorem intResult_of_small {n : Int} (hn : -1900 ≤ n) (hle : n ≤ intMax) :
    intResult n = some n := by
  rw [intResult, if_pos]
  exact ⟨by omega, hle⟩

/-- A number is known from its difference. -/
theorem eq_of_intResult_sub {n m k r : Int} (h : intResult (n - k) = some r) (hr : r = m - k) :
    n = m := by
  unfold intResult at h
  split at h
  · have hdiff := Option.some.inj h
    omega
  · exact absurd h.symm (Option.some_ne_none r)

namespace DateTime

variable (d : DateTime)

/-- What the parser stores, before the year and the month are brought to their units. -/
def stored : Tm where
  sec := longToInt (strtol d.second 10)
  min := longToInt (strtol d.minute 10)
  hour := longToInt (strtol d.hour 10)
  mday := longToInt (strtol d.day 10)
  mon := longToInt (strtol d.month 10)
  year := longToInt (strtol d.year 10)
  wday := 0
  yday := 0
  isdst := match d.millisecond with
    | none => 0
    | some ms => longToInt (strtol ms 10)

/-- A character that is neither a digit nor the dot stands in no second. -/
theorem not_mem_secondText {ch : Char} (hch : isDigit ch = false) (hdot : ch ≠ '.') :
    ch ∉ d.secondText := by
  unfold secondText
  split
  · exact d.second.not_mem hch
  · rename_i ms heq
    rw [List.mem_append, List.mem_cons, not_or, not_or]
    exact ⟨d.second.not_mem hch, hdot, ms.not_mem hch⟩

theorem not_mem_dateText {ch : Char} (hch : isDigit ch = false) (hslash : ch ≠ '/') :
    ch ∉ d.dateText := by
  simp only [dateText, List.mem_append, List.mem_cons, not_or]
  exact ⟨d.year.not_mem hch, hslash, d.month.not_mem hch, hslash, d.day.not_mem hch⟩

theorem not_mem_clockText {ch : Char} (hch : isDigit ch = false) (hcolon : ch ≠ ':')
    (hdot : ch ≠ '.') : ch ∉ d.clockText := by
  simp only [clockText, List.mem_append, List.mem_cons, not_or]
  exact ⟨d.hour.not_mem hch, hcolon, d.minute.not_mem hch, hcolon,
    d.not_mem_secondText hch hdot⟩

theorem not_mem_text {ch : Char} (hch : isDigit ch = false) (hsep : ch ∉ ['/', ' ', ':', '.']) :
    ch ∉ d.text := by
  simp only [List.mem_cons, not_or] at hsep
  rw [text, List.mem_append, List.mem_cons, not_or, not_or]
  exact ⟨d.not_mem_dateText hch hsep.1, hsep.2.1,
    d.not_mem_clockText hch hsep.2.2.1 hsep.2.2.2.1⟩

/-- The text has two words, the date and the time. -/
theorem splitOn_text : d.text.splitOn ' ' = [d.dateText, d.clockText] :=
  Fields.splitOn_eq_pair_iff.mpr
    ⟨rfl, d.not_mem_dateText rfl (by decide), d.not_mem_clockText rfl (by decide) (by decide)⟩

theorem text_ne_nil : d.text ≠ [] := by
  simp [text]

theorem parseDate_dateText (st : Tm) :
    parseDate (cStr d.dateText) st = { st with
      year := d.stored.year, mon := d.stored.mon, mday := d.stored.mday } := by
  have hsplit : d.dateText.splitOn '/' = [(d.year : Str), d.month, d.day] :=
    Fields.splitOn_eq_triple_iff.mpr
      ⟨rfl, d.year.not_mem rfl, d.month.not_mem rfl, d.day.not_mem rfl⟩
  rw [cStr_eq_self (d.not_mem_dateText rfl (by decide)), parseDate, token_eq_splitOn, hsplit]
  rfl

/-- The dot of the seconds is there exactly where milliseconds are. -/
theorem parseSecond_secondText {st : Tm} (hst : st.isdst = 0) :
    parseSecond (cStr d.secondText) st =
      { st with sec := d.stored.sec, isdst := d.stored.isdst } := by
  rw [cStr_eq_self (d.not_mem_secondText rfl (by decide)), parseSecond, token_eq_splitOn]
  unfold secondText stored
  cases d.millisecond with
  | none =>
      have hsplit : (d.second : Str).splitOn '.' = [(d.second : Str)] :=
        Fields.splitOn_eq_singleton_iff.mpr ⟨rfl, d.second.not_mem rfl⟩
      simp only [hsplit]
      rw [← hst]
  | some ms =>
      have hsplit : ((d.second : Str) ++ '.' :: (ms : Str)).splitOn '.' = [(d.second : Str), ms] :=
        Fields.splitOn_eq_pair_iff.mpr ⟨rfl, d.second.not_mem rfl, ms.not_mem rfl⟩
      simp only [hsplit]
      rw [toInt_toUnsigned]

theorem parseClock_clockText {st : Tm} (hst : st.isdst = 0) :
    parseClock (cStr d.clockText) st = { st with
      hour := d.stored.hour, min := d.stored.min, sec := d.stored.sec,
      isdst := d.stored.isdst } := by
  have hsplit : d.clockText.splitOn ':' = [(d.hour : Str), d.minute, d.secondText] :=
    Fields.splitOn_eq_triple_iff.mpr ⟨rfl, d.hour.not_mem rfl, d.minute.not_mem rfl,
      d.not_mem_secondText rfl (by decide)⟩
  rw [cStr_eq_self (d.not_mem_clockText rfl (by decide) (by decide)), parseClock,
    token_eq_splitOn, hsplit]
  simp only
  rw [d.parseSecond_secondText]
  · rfl
  · exact hst

/-- What comes out for a date and time does not depend on what was there before. -/
theorem parseDateTime_text (prior : Tm) :
    parseDateTime d.text prior = (intResult (d.stored.year - 1900)).bind fun year =>
      (intResult (d.stored.mon - 1)).map fun mon =>
        (true, { d.stored with year := year, mon := mon }) := by
  rw [parseDateTime, if_neg d.text_ne_nil, token_eq_splitOn, d.splitOn_text]
  simp only [d.parseDate_dateText]
  rw [d.parseClock_clockText rfl]
  cases intResult (d.stored.year - 1900) with
  | none => rfl
  | some year => cases intResult (d.stored.mon - 1) <;> rfl

/-- Milliseconds too are stored as they are written exactly when they are an `int`. -/
theorem stored_isdst_iff : d.stored.isdst = d.msValue ↔ d.msValue ≤ intMax := by
  unfold stored msValue
  cases d.millisecond with
  | none => exact iff_of_true rfl (by decide)
  | some ms => exact longToInt_strtol_iff ms

/-- Numbers that are `int`s are stored as they are written. -/
theorem parseDateTime_of_fits (hfits : d.Fits) (prior : Tm) :
    ∃ st, parseDateTime d.text prior = some (true, st) ∧ d.StoredIn st := by
  obtain ⟨hyear, hmon, hday, hhour, hmin, hsec, hms⟩ := hfits
  have hyear' : d.stored.year = decimalValue d.year := (longToInt_strtol_iff _).mpr hyear
  have hmon' : d.stored.mon = decimalValue d.month := (longToInt_strtol_iff _).mpr hmon
  rw [d.parseDateTime_text, hyear', hmon', intResult_of_small (by omega) (by omega),
    intResult_of_small (by omega) (by omega)]
  exact ⟨_, rfl, rfl, rfl, (longToInt_strtol_iff _).mpr hday, (longToInt_strtol_iff _).mpr hhour,
    (longToInt_strtol_iff _).mpr hmin, (longToInt_strtol_iff _).mpr hsec,
    d.stored_isdst_iff.mpr hms⟩

/-- Where the parser stores what a text says, its numbers are `int`s. -/
theorem fits_of_storedIn {prior st : Tm} {fResult : Bool}
    (h : parseDateTime d.text prior = some (fResult, st)) (hstored : d.StoredIn st) :
    d.Fits := by
  rw [d.parseDateTime_text] at h
  obtain ⟨year, hyear, h⟩ := Option.bind_eq_some_iff.mp h
  obtain ⟨mon, hmon, h⟩ := Option.map_eq_some_iff.mp h
  obtain ⟨-, rfl⟩ := Prod.mk.inj h
  exact ⟨(longToInt_strtol_iff _).mp (eq_of_intResult_sub hyear hstored.year),
    (longToInt_strtol_iff _).mp (eq_of_intResult_sub hmon hstored.mon),
    (longToInt_strtol_iff _).mp hstored.mday, (longToInt_strtol_iff _).mp hstored.hour,
    (longToInt_strtol_iff _).mp hstored.min, (longToInt_strtol_iff _).mp hstored.sec,
    d.stored_isdst_iff.mp hstored.isdst⟩

end DateTime

/-- A fixed count of digits, one at least, is a decimal number. -/
def DigitText.decimal {n : Nat} (w : DigitText (n + 1)) : DecimalText :=
  ⟨w, List.ne_nil_of_length_eq_add_one w.2.1, w.2.2⟩

def dateTimeOf (t : Timestamp) : DateTime where
  year := DigitText.decimal t.year
  month := DigitText.decimal t.month
  day := DigitText.decimal t.day
  hour := DigitText.decimal t.hour
  minute := DigitText.decimal t.min
  second := DigitText.decimal t.sec
  millisecond := some (DigitText.decimal t.ms)

theorem dateTimeOf_text (t : Timestamp) : (dateTimeOf t).text = t.text := by
  simp [DateTime.text, DateTime.dateText, DateTime.clockText, DateTime.secondText, dateTimeOf,
    DigitText.decimal, Timestamp.text]

/-- Few digits are an `int`. -/
theorem decimalValue_le_intMax {n : Nat} (w : DigitText n) (hn : n ≤ 9) :
    decimalValue w ≤ intMax := by
  have hlt := decimalValue_lt w.2.2
  have hpow : 10 ^ (w : Str).length ≤ 10 ^ 9 := by
    rw [w.2.1]
    exact Nat.pow_le_pow_right (by omega) hn
  unfold intMax
  omega

theorem dateTimeOf_fits (t : Timestamp) : (dateTimeOf t).Fits :=
  ⟨decimalValue_le_intMax t.year (by omega), decimalValue_le_intMax t.month (by omega),
    decimalValue_le_intMax t.day (by omega), decimalValue_le_intMax t.hour (by omega),
    decimalValue_le_intMax t.min (by omega), decimalValue_le_intMax t.sec (by omega),
    decimalValue_le_intMax t.ms (by omega)⟩

/-- A text that the parser of packets matches is a date and time, with the same numbers. -/
theorem exists_dateTime_of_match {s : Str} {unset time : RfidTime}
    (h : RfidTime.parse unset s = some time) (hmatch : time.isMatch = true) :
    ∃ d : DateTime, d.text = s ∧ d.Fits ∧ ∀ st, d.StoredIn st → SameTime time st := by
  cases hfull : fullMatch rgxTime s with
  | none =>
      rw [RfidTime.parse, hfull] at h
      obtain rfl := Option.some.inj h
      exact absurd hmatch Bool.false_ne_true
  | some m =>
      obtain ⟨t, rfl⟩ := Timestamp.exists_of_match hfull
      obtain rfl := Option.some.inj ((t.parse_text unset).symm.trans h)
      refine ⟨dateTimeOf t, dateTimeOf_text t, dateTimeOf_fits t, fun st hstored => ?_⟩
      refine ⟨?_, ?_, hstored.mday.symm, hstored.hour.symm, hstored.min.symm, hstored.sec.symm,
        hstored.isdst.symm⟩
      · rw [hstored.year]
        exact (Int.sub_add_cancel _ _).symm
      · rw [hstored.mon]
        exact (Int.sub_add_cancel _ _).symm

theorem DateTime.count_text (d : DateTime) : d.text.count ' ' = 1 := by
  have hlen := congrArg List.length d.splitOn_text
  rw [Fields.length_splitOn] at hlen
  simpa using hlen

/-- A text of other than two words is refused, and the three fields are zero from then on. -/
theorem parseDateTime_of_count_ne {s : Str} (hne : s ≠ []) (hcount : s.count ' ' ≠ 1)
    (prior : Tm) :
    parseDateTime s prior = some (false, { prior with wday := 0, yday := 0, isdst := 0 }) := by
  rw [parseDateTime, if_neg hne, token_eq_splitOn]
  split
  · rename_i date time hsplit
    have hlen := congrArg List.length hsplit
    rw [Fields.length_splitOn] at hlen
    exact absurd (by simpa using hlen) hcount
  · rfl

/-- A text of two words is accepted, whatever they are. -/
theorem parseDateTime_of_count {s : Str} (hcount : s.count ' ' = 1) {prior st : Tm}
    {fResult : Bool} (h : parseDateTime s prior = some (fResult, st)) : fResult = true := by
  have hne : s ≠ [] := by
    rintro rfl
    exact absurd hcount (by decide)
  have hlen : (s.splitOn ' ').length = 2 := by rw [Fields.length_splitOn, hcount]
  obtain ⟨date, time, hsplit⟩ := List.length_eq_two.mp hlen
  rw [parseDateTime, if_neg hne, token_eq_splitOn, hsplit] at h
  obtain ⟨year, -, h⟩ := Option.bind_eq_some_iff.mp h
  obtain ⟨mon, -, h⟩ := Option.bind_eq_some_iff.mp h
  exact (Prod.mk.inj (Option.some.inj h)).1.symm

/-- Exactly these texts, with what was there before, are accepted or refused as they should be. -/
theorem acceptsDateTime_iff (s : Str) (prior : Tm) :
    AcceptsDateTime s prior ↔
      s = [] ∨ (∃ d : DateTime, d.text = s ∧ d.Fits) ∨
        (s.count ' ' ≠ 1 ∧ prior.wday = 0 ∧ prior.yday = 0 ∧ prior.isdst = 0) := by
  constructor
  · rintro ⟨fResult, st, hparse, -, hstored, hkept, -⟩
    by_cases hne : s = []
    · exact Or.inl hne
    by_cases hcount : s.count ' ' = 1
    · obtain ⟨⟨d, rfl, hd⟩, -⟩ := hstored (parseDateTime_of_count hcount hparse)
      exact Or.inr (Or.inl ⟨d, rfl, d.fits_of_storedIn hparse hd⟩)
    · rw [parseDateTime_of_count_ne hne hcount] at hparse
      obtain ⟨rfl, rfl⟩ := Prod.mk.inj (Option.some.inj hparse)
      have hsame := hkept rfl
      exact Or.inr (Or.inr ⟨hcount, (congrArg Tm.wday hsame).symm, (congrArg Tm.yday hsame).symm,
        (congrArg Tm.isdst hsame).symm⟩)
  · -- A text that is refused is no date and time, and so no timestamp.
    have hrefused : ∀ st, parseDateTime s prior = some (false, st) → st = prior →
        s.count ' ' ≠ 1 → AcceptsDateTime s prior := by
      intro st hparse hst hcount
      have hnone : ∀ d : DateTime, d.text ≠ s := fun d heq => hcount (heq ▸ d.count_text)
      refine ⟨false, st, hparse, ⟨fun h => absurd h Bool.false_ne_true, fun ⟨d, hd⟩ =>
        absurd hd (hnone d)⟩, fun h => absurd h Bool.false_ne_true, fun _ => hst, ?_⟩
      intro unset time htime hmatch
      obtain ⟨d, hd, -⟩ := exists_dateTime_of_match htime hmatch
      exact absurd hd (hnone d)
    rintro (rfl | ⟨d, rfl, hfits⟩ | ⟨hcount, hwday, hyday, hisdst⟩)
    · exact hrefused prior rfl rfl (by decide)
    · obtain ⟨st, hparse, hstored⟩ := d.parseDateTime_of_fits hfits prior
      refine ⟨true, st, hparse, iff_of_true rfl ⟨d, rfl⟩, fun _ => ⟨⟨d, rfl, hstored⟩, ?_⟩,
        fun h => absurd h.symm Bool.false_ne_true, fun unset time htime hmatch => ⟨rfl, ?_⟩⟩
      · intro prior'
        rw [d.parseDateTime_text] at hparse ⊢
        exact hparse
      · obtain ⟨d', htext, hfits', hsame⟩ := exists_dateTime_of_match htime hmatch
        obtain ⟨st', hparse', hstored'⟩ := d'.parseDateTime_of_fits hfits' prior
        rw [htext, hparse] at hparse'
        obtain ⟨-, rfl⟩ := Prod.mk.inj (Option.some.inj hparse')
        exact hsame st hstored'
    · by_cases hne : s = []
      · subst hne
        exact hrefused prior rfl rfl hcount
      · refine hrefused _ (parseDateTime_of_count_ne hne hcount prior) ?_ hcount
        cases prior
        simp only at hwday hyday hisdst
        rw [hwday, hyday, hisdst]

/-- Two words that are no date and time are accepted, with the date and time that were there
before, in other units; a word that is refused clears the milliseconds. -/
theorem words_accepted_as_dateTime :
    parseDateTime "a b".toList ⟨1, 2, 3, 4, 5, 2006, 0, 0, 7⟩ =
        some (true, ⟨1, 2, 3, 4, 4, 106, 0, 0, 0⟩) ∧
      parseDateTime ['x'] ⟨1, 2, 3, 4, 5, 2006, 0, 0, 7⟩ =
        some (false, ⟨1, 2, 3, 4, 5, 2006, 0, 0, 0⟩) ∧
      ¬ AcceptsDateTime "a b".toList ⟨1, 2, 3, 4, 5, 2006, 0, 0, 7⟩ ∧
      ¬ ∀ s prior, AcceptsDateTime s prior := by
  have hwords : parseDateTime "a b".toList ⟨1, 2, 3, 4, 5, 2006, 0, 0, 7⟩ =
      some (true, ⟨1, 2, 3, 4, 4, 106, 0, 0, 0⟩) := rfl
  have hno : ¬ AcceptsDateTime "a b".toList ⟨1, 2, 3, 4, 5, 2006, 0, 0, 7⟩ := by
    rintro ⟨fResult, st, hparse, haccepted, -⟩
    obtain ⟨rfl, -⟩ := Prod.mk.inj (Option.some.inj (hwords.symm.trans hparse))
    obtain ⟨d, hd⟩ := haccepted.mp rfl
    have hmem : 'a' ∈ d.text := hd ▸ List.mem_cons_self
    exact d.not_mem_text rfl (by decide) hmem
  exact ⟨hwords, rfl, hno, fun hall => hno (hall _ _)⟩

theorem decimalValue_eq_ofDigitChars (w : Str) : decimalValue w = Nat.ofDigitChars 10 w 0 := by
  have hfold : ∀ (w : Str) (n : Nat),
      w.foldl (fun (n : Int) ch => 10 * n + (ch.toNat - '0'.toNat : Nat)) n =
        (Nat.ofDigitChars 10 w n : Nat) := by
    intro w
    induction w with
    | nil =>
        intro n
        rw [List.foldl_nil, Nat.ofDigitChars_nil]
    | cons ch w ih =>
        intro n
        rw [List.foldl_cons, Nat.ofDigitChars_cons, ← ih]
        push_cast
        rfl
  have hw := hfold w 0
  rw [Nat.cast_zero, foldl_digits] at hw
  exact_mod_cast hw

/-- A number below a hundred is printed as two digits that denote it. -/
theorem twoDigits_spec {n : Int} (hn : 0 ≤ n) (hlt : n < 100) :
    (twoDigits n).length = 2 ∧ (∀ ch ∈ twoDigits n, isDigit ch = true) ∧
      (decimalValue (twoDigits n) : Int) = n := by
  obtain ⟨k, rfl⟩ := Int.eq_ofNat_of_zero_le hn
  have hk : k < 10 ^ 2 := by omega
  have hlen : (Nat.toDigits 10 k).length ≤ 2 :=
    (Nat.length_toDigits_le_iff (by omega) (by omega)).mpr hk
  rw [twoDigits, decimal_natCast, List.leftpad]
  refine ⟨?_, ?_, ?_⟩
  · rw [List.length_append, List.length_replicate]
    omega
  · intro ch hch
    rw [List.mem_append] at hch
    cases hch with
    | inl hzero =>
        rw [List.eq_of_mem_replicate hzero]
        rfl
    | inr hdigit =>
        have hdigit := Nat.isDigit_of_mem_toDigits (by omega) (by omega) hdigit
        simpa [Char.isDigit, isDigit, Char.le_def] using hdigit
  · rw [decimalValue_eq_ofDigitChars, Nat.ofDigitChars_append, Nat.ofDigitChars_replicate_zero,
      Nat.mul_zero, Nat.ofDigitChars_ten_toDigits]

/-- A text two characters at a time. -/
def pairs : Str → List Str
  | a :: b :: rest => [a, b] :: pairs rest
  | _ => []

/-- Numbers printed with two digits each are read back two digits at a time. -/
theorem pairs_flatMap_twoDigits {ns : List Int} (hns : ∀ n ∈ ns, 0 ≤ n ∧ n < 100) :
    (ns.flatMap twoDigits).length = 2 * ns.length ∧
      (∀ ch ∈ ns.flatMap twoDigits, isDigit ch = true) ∧
      (pairs (ns.flatMap twoDigits)).map (fun w => (decimalValue w : Int)) = ns := by
  induction ns with
  | nil => exact ⟨rfl, fun ch hch => absurd hch List.not_mem_nil, rfl⟩
  | cons n ns ih =>
      obtain ⟨hn, hrest⟩ := List.forall_mem_cons.mp hns
      obtain ⟨hlen, hdigits, hvalue⟩ := twoDigits_spec hn.1 hn.2
      obtain ⟨ihlen, ihdigits, ihvalues⟩ := ih hrest
      rw [List.flatMap_cons]
      refine ⟨?_, List.forall_mem_append.mpr ⟨hdigits, ihdigits⟩, ?_⟩
      · rw [List.length_append, hlen, ihlen, List.length_cons]
        omega
      · obtain ⟨a, b, hab⟩ := List.length_eq_two.mp hlen
        rw [hab] at hvalue ⊢
        rw [List.cons_append, List.singleton_append, pairs, List.map_cons, hvalue, ihvalues]

/-- The fields that are sent are in their ranges, and the year is one from 1900 to 9999. -/
structure InRange (st : Tm) : Prop where
  sec : 0 ≤ st.sec ∧ st.sec ≤ 60
  min : 0 ≤ st.min ∧ st.min ≤ 59
  hour : 0 ≤ st.hour ∧ st.hour ≤ 23
  mday : 1 ≤ st.mday ∧ st.mday ≤ 31
  mon : 0 ≤ st.mon ∧ st.mon ≤ 11
  year : 0 ≤ st.year ∧ st.year ≤ 8099
  wday : 0 ≤ st.wday ∧ st.wday ≤ 6

/-- The numbers that are sent. -/
def sentNumbers (st : Tm) : List Int :=
  [(st.year + 1900) % 100, if st.wday = 0 then 7 else st.wday, st.mon + 1, st.mday, st.hour,
    st.min, st.sec]

/-- The timestamp has the date and time of the structure, with any milliseconds. -/
structure Answers (t : Timestamp) (st : Tm) : Prop where
  year : (decimalValue t.year : Int) = st.year + 1900
  month : (decimalValue t.month : Int) = st.mon + 1
  day : (decimalValue t.day : Int) = st.mday
  hour : (decimalValue t.hour : Int) = st.hour
  min : (decimalValue t.min : Int) = st.min
  sec : (decimalValue t.sec : Int) = st.sec

theorem sentNumbers_small {st : Tm} (h : InRange st) : ∀ n ∈ sentNumbers st, 0 ≤ n ∧ n < 100 := by
  obtain ⟨hsec, hmin, hhour, hmday, hmon, hyear, hwday⟩ := h
  have hday : 0 ≤ (if st.wday = 0 then 7 else st.wday) ∧
      (if st.wday = 0 then 7 else st.wday) < 100 := by
    split <;> omega
  simp only [sentNumbers, List.forall_mem_cons, List.not_mem_nil, false_implies, implies_true,
    and_true]
  refine ⟨⟨?_, ?_⟩, hday, ?_, ?_, ?_, ?_, ?_⟩ <;> omega

/-- In range nothing overflows, and the numbers are printed one behind the other. -/
theorem setTime_eq {st : Tm} (h : InRange st) (unset unsetParsed : Tm) :
    setTime unset unsetParsed st = .send rfPtReqSetDateTime
      ("\n@SETDATE".toList ++ (sentNumbers st).flatMap twoDigits ++ ['\r'])
      fun _ response => setTimeReply unset unsetParsed st response := by
  have hyear : intResult (st.year + 1900) = some (st.year + 1900) := by
    have hrange := h.year
    exact intResult_of_small (by omega) (by unfold intMax; omega)
  have hmon : intResult (st.mon + 1) = some (st.mon + 1) := by
    have hrange := h.mon
    exact intResult_of_small (by omega) (by unfold intMax; omega)
  have hmod : (st.year + 1900).tmod 100 = (st.year + 1900) % 100 := by
    apply Int.tmod_eq_emod_of_nonneg
    have hrange := h.year
    omega
  have htext : setTimeText (st.year + 1900) (st.mon + 1) st =
      "\n@SETDATE".toList ++ (sentNumbers st).flatMap twoDigits ++ ['\r'] := by
    unfold setTimeText sentNumbers
    rw [hmod]
  have hlen : ("\n@SETDATE".toList ++ (sentNumbers st).flatMap twoDigits ++ ['\r']).length ≤
      1535 := by
    rw [List.length_append, List.length_append, (pairs_flatMap_twoDigits (sentNumbers_small h)).1]
    simp [sentNumbers]
  rw [setTime, hyear, hmon]
  simp only
  rw [htext, snprintf_eq_self hlen]

/-- The answer with the date and time that was set is accepted. -/
theorem setTimeReply_answers {t : Timestamp} {st : Tm} (h : Answers t st)
    (unset unsetParsed : Tm) :
    setTimeReply unset unsetParsed st ('@' :: t.text) = some rfidOk := by
  have hcontent : getContent ('@' :: t.text) = some t.text := by
    rw [← dateTimeOf_text]
    apply getContent_at
    · exact (dateTimeOf t).not_mem_text rfl (by decide)
    · intro ch hch
      refine isDot_iff.mpr ⟨?_, ?_⟩
      · exact ne_of_mem_of_not_mem hch ((dateTimeOf t).not_mem_text rfl (by decide))
      · exact ne_of_mem_of_not_mem hch ((dateTimeOf t).not_mem_text rfl (by decide))
  obtain ⟨stResponseTime, hparse, hstored⟩ :=
    (dateTimeOf t).parseDateTime_of_fits (dateTimeOf_fits t) unsetParsed
  rw [dateTimeOf_text] at hparse
  have hsame : st.year = stResponseTime.year ∧ st.mon = stResponseTime.mon ∧
      st.mday = stResponseTime.mday ∧ st.hour = stResponseTime.hour ∧
      st.min = stResponseTime.min ∧ st.sec = stResponseTime.sec := by
    refine ⟨?_, ?_, h.day.symm.trans hstored.mday.symm, h.hour.symm.trans hstored.hour.symm,
      h.min.symm.trans hstored.min.symm, h.sec.symm.trans hstored.sec.symm⟩
    · have hyear : stResponseTime.year = decimalValue t.year - 1900 := hstored.year
      rw [hyear, h.year, Int.add_sub_cancel]
    · have hmon : stResponseTime.mon = decimalValue t.month - 1 := hstored.mon
      rw [hmon, h.month, Int.add_sub_cancel]
  have hlen : ('@' :: t.text).length > 0 := Nat.succ_pos _
  rw [setTimeReply, if_pos hlen, parseSetTime, hcontent]
  simp only [Option.bind_eq_bind, Option.bind_some, hparse, if_true, if_pos hsame]

/-- What `SetTime` sends is read back two digits at a time, and the answer with the same date and
time is a success. -/
theorem setTime_roundTrip (st : Tm) (h : InRange st) (unset unsetParsed : Tm) :
    (∃ digits : DigitText 14,
      (setTime unset unsetParsed st).sent =
          some ("\n@SETDATE".toList ++ (digits : Str) ++ ['\r']) ∧
        (pairs digits).map (fun w => (decimalValue w : Int)) =
          [(st.year + 1900) % 100, if st.wday = 0 then 7 else st.wday, st.mon + 1, st.mday,
            st.hour, st.min, st.sec]) ∧
      ∀ t : Timestamp, Answers t st → ∀ nSend,
        (setTime unset unsetParsed st).after nSend ('@' :: t.text) = some rfidOk := by
  obtain ⟨hlen, hdigits, hvalues⟩ := pairs_flatMap_twoDigits (sentNumbers_small h)
  rw [setTime_eq h]
  exact ⟨⟨⟨_, hlen, hdigits⟩, rfl, hvalues⟩,
    fun t ht _ => setTimeReply_answers ht unset unsetParsed⟩

/-- A sample time: 2022/03/30 12:35:46, a Wednesday. -/
def sampleTm : Tm := ⟨46, 35, 12, 30, 2, 122, 3, 88, 0⟩

theorem sampleTm_inRange : InRange sampleTm :=
  ⟨by decide, by decide, by decide, by decide, by decide, by decide, by decide⟩

/-- `2022/03/30 12:35:46.123` -/
def sampleAnswer : Timestamp where
  year := ⟨"2022".toList, rfl, List.all_eq_true.mp rfl⟩
  month := ⟨"03".toList, rfl, List.all_eq_true.mp rfl⟩
  day := ⟨"30".toList, rfl, List.all_eq_true.mp rfl⟩
  hour := ⟨"12".toList, rfl, List.all_eq_true.mp rfl⟩
  min := ⟨"35".toList, rfl, List.all_eq_true.mp rfl⟩
  sec := ⟨"46".toList, rfl, List.all_eq_true.mp rfl⟩
  ms := ⟨"123".toList, rfl, List.all_eq_true.mp rfl⟩

theorem setTime_roundTrip_sample :
    (∃ digits : DigitText 14,
      (setTime sampleTm sampleTm sampleTm).sent =
          some ("\n@SETDATE".toList ++ (digits : Str) ++ ['\r']) ∧
        (pairs digits).map (fun w => (decimalValue w : Int)) = [22, 3, 3, 30, 12, 35, 46]) ∧
      (setTime sampleTm sampleTm sampleTm).after 25 ('@' :: sampleAnswer.text) = some rfidOk := by
  obtain ⟨hsent, hanswer⟩ := setTime_roundTrip sampleTm sampleTm_inRange sampleTm sampleTm
  exact ⟨hsent, hanswer sampleAnswer ⟨rfl, rfl, rfl, rfl, rfl, rfl⟩ 25⟩

end RfidEngine.RfidInterface
