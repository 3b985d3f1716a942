import RfidEngine.Lib.Calendar
import RfidEngine.RfidInterface.DateTime
import RfidEngine.RfidInterface.Settings

/-!
# RfidInterface: the clock of a reader

`SetSystemTime` tells the reader what `gmtime_r` makes of the time, and
`GetTime` asks for it. The command has two digits for the year, the answers
have four. Times are counted in seconds from 1970-01-01, without leap seconds.

## Main results

The times that a reader is told as they are, and what is taken for a success;
and a reader that keeps the time, with any sequence of calls.
-/

namespace RfidEngine.RfidInterface

open Calendar StepSystem

def rfPtReqGetDateTime : Nat := 0x18

/-- `gmtime_r`: the calendar day, and the seconds of the day. -/
def gmtime (calendar : Int) : Tm where
  sec := calendar % 86400 % 60
  min := calendar % 86400 / 60 % 60
  hour := calendar % 86400 / 3600
  mday := (dateOf (calendar / 86400)).day + 1
  mon := (dateOf (calendar / 86400)).month
  year := (dateOf (calendar / 86400)).year - 1900
  wday := (calendar / 86400 + 4) % 7
  yday := dayOfYear (calendar / 86400)
  isdst := 0

/-- `SetSystemTime` at the time that `time` gives; the flag is used for milliseconds. -/
def setSystemTime (unset unsetParsed : Tm) (calendar : Int) : Exchange (Option Int) :=
  setTime unset unsetParsed { gmtime calendar with isdst := 0 }

def parseGetTime (lpBuffer : Str) (stTime : Tm) : Option (Bool × Tm) := do
  let strContent ← getContent lpBuffer
  parseDateTime strContent stTime

def getTime (stTime : Tm) : Exchange (Option (Int × Tm)) :=
  .send rfPtReqGetDateTime (snprintf "\n@SETDATE\r".toList) fun _ response =>
    if response.length > 0 then
      (parseGetTime response stTime).map fun (fParsed, stTime) =>
        (if fParsed then rfidOk else rfidErrParse, stTime)
    else some (rfidErrNoResponse, stTime)

/-- The time that the fields name. -/
def timeOf (st : Tm) : Int :=
  (yearStart (st.year + 1900) +
    offset (monthLengths (st.year + 1900)) st.mon.toNat (st.mday - 1).toNat) * 86400 +
      (st.hour * 3600 + st.min * 60 + st.sec)

/-- The fields name a second of a day of the calendar. -/
structure Civil (st : Tm) : Prop where
  mon : 0 ≤ st.mon
  mday : 1 ≤ st.mday
  day_lt : (st.mday - 1).toNat < (monthLengths (st.year + 1900)).getD st.mon.toNat 0
  hour : 0 ≤ st.hour ∧ st.hour < 24
  min : 0 ≤ st.min ∧ st.min < 60
  sec : 0 ≤ st.sec ∧ st.sec < 60

/-- Both have the same date and time. -/
structure SameFields (st st' : Tm) : Prop where
  year : st.year = st'.year
  mon : st.mon = st'.mon
  mday : st.mday = st'.mday
  hour : st.hour = st'.hour
  min : st.min = st'.min
  sec : st.sec = st'.sec

theorem SameFields.timeOf_eq {st st' : Tm} (h : SameFields st st') : timeOf st = timeOf st' := by
  obtain ⟨hyear, hmon, hmday, hhour, hmin, hsec⟩ := h
  rw [timeOf, timeOf, hyear, hmon, hmday, hhour, hmin, hsec]

theorem SameFields.civil {st st' : Tm} (h : SameFields st st') (h' : Civil st') : Civil st where
  mon := by
    rw [h.mon]
    exact h'.mon
  mday := by
    rw [h.mday]
    exact h'.mday
  day_lt := by
    rw [h.year, h.mon, h.mday]
    exact h'.day_lt
  hour := by
    rw [h.hour]
    exact h'.hour
  min := by
    rw [h.min]
    exact h'.min
  sec := by
    rw [h.sec]
    exact h'.sec

/-- The date of the fields. -/
def Civil.date {st : Tm} (h : Civil st) : Date :=
  ⟨st.year + 1900, st.mon.toNat, (st.mday - 1).toNat, h.day_lt⟩

theorem timeOf_gmtime (calendar : Int) : timeOf (gmtime calendar) = calendar := by
  have hday := dayNumber_dateOf (calendar / 86400)
  rw [Date.dayNumber] at hday
  have hfields : timeOf (gmtime calendar) = (yearStart (dateOf (calendar / 86400)).year +
      offset (monthLengths (dateOf (calendar / 86400)).year) (dateOf (calendar / 86400)).month
        (dateOf (calendar / 86400)).day) * 86400 +
      (calendar % 86400 / 3600 * 3600 + calendar % 86400 / 60 % 60 * 60 +
        calendar % 86400 % 60) := by
    simp only [timeOf, gmtime, Int.sub_add_cancel, Int.toNat_natCast, add_sub_cancel_right]
  rw [hfields, hday]
  omega

theorem civil_gmtime (calendar : Int) : Civil (gmtime calendar) where
  mon := Int.natCast_nonneg _
  mday := by
    simp only [gmtime]
    omega
  day_lt := by
    simp only [gmtime, Int.sub_add_cancel, Int.toNat_natCast, add_sub_cancel_right]
    exact (dateOf (calendar / 86400)).day_lt
  hour := by
    simp only [gmtime]
    omega
  min := by
    simp only [gmtime]
    omega
  sec := by
    simp only [gmtime]
    omega

/-- The time of a second of the calendar has its fields. -/
theorem gmtime_timeOf {st : Tm} (h : Civil st) : SameFields (gmtime (timeOf st)) st := by
  have htime : timeOf st = h.date.dayNumber * 86400 + (st.hour * 3600 + st.min * 60 + st.sec) := rfl
  have hmon := h.mon
  have hmday := h.mday
  have hhour := h.hour
  have hmin := h.min
  have hsec := h.sec
  have hday : timeOf st / 86400 = h.date.dayNumber := by omega
  have hsecond : timeOf st % 86400 = st.hour * 3600 + st.min * 60 + st.sec := by omega
  have hdate : dateOf (timeOf st / 86400) = h.date := by rw [hday, dateOf_dayNumber]
  constructor
  · simp only [gmtime, hdate, Civil.date]
    omega
  · simp only [gmtime, hdate, Civil.date]
    omega
  · simp only [gmtime, hdate, Civil.date]
    omega
  · simp only [gmtime, hsecond]
    omega
  · simp only [gmtime, hsecond]
    omega
  · simp only [gmtime, hsecond]
    omega

theorem Civil.sameFields_iff {st st' : Tm} (h : Civil st) (h' : Civil st') :
    SameFields st st' ↔ timeOf st = timeOf st' := by
  constructor
  · exact SameFields.timeOf_eq
  · intro htime
    obtain ⟨hyear, hmon, hmday, hhour, hmin, hsec⟩ := gmtime_timeOf h
    obtain ⟨hyear', hmon', hmday', hhour', hmin', hsec'⟩ := gmtime_timeOf h'
    rw [htime] at hyear hmon hmday hhour hmin hsec
    exact ⟨hyear.symm.trans hyear', hmon.symm.trans hmon', hmday.symm.trans hmday',
      hhour.symm.trans hhour', hmin.symm.trans hmin', hsec.symm.trans hsec'⟩

/-- The year of a time has begun by then. -/
theorem le_year_gmtime_iff (y calendar : Int) :
    y ≤ (gmtime calendar).year + 1900 ↔ yearStart y * 86400 ≤ calendar := by
  have hyear : (gmtime calendar).year + 1900 = yearOf (calendar / 86400) := Int.sub_add_cancel _ _
  rw [hyear, le_yearOf_iff]
  omega

/-- The years from 1900 to 9999. -/
def InYears (calendar : Int) : Prop := -2208988800 ≤ calendar ∧ calendar < 253402300800

/-- The years of this century. -/
def InCentury (calendar : Int) : Prop := 946684800 ≤ calendar ∧ calendar < 4102444800

theorem InCentury.inYears {calendar : Int} (h : InCentury calendar) : InYears calendar := by
  unfold InCentury at h
  unfold InYears
  omega

theorem inYears_iff (calendar : Int) :
    InYears calendar ↔ 0 ≤ (gmtime calendar).year ∧ (gmtime calendar).year ≤ 8099 := by
  have hlow := le_year_gmtime_iff 1900 calendar
  have hhigh := le_year_gmtime_iff 10000 calendar
  have hstart : yearStart 1900 = -25567 ∧ yearStart 10000 = 2932897 := by decide
  rw [hstart.1] at hlow
  rw [hstart.2] at hhigh
  unfold InYears
  omega

theorem inCentury_iff (calendar : Int) :
    InCentury calendar ↔ 100 ≤ (gmtime calendar).year ∧ (gmtime calendar).year < 200 := by
  have hlow := le_year_gmtime_iff 2000 calendar
  have hhigh := le_year_gmtime_iff 2100 calendar
  have hstart : yearStart 2000 = 10957 ∧ yearStart 2100 = 47482 := by decide
  rw [hstart.1] at hlow
  rw [hstart.2] at hhigh
  unfold InCentury
  omega

theorem inRange_gmtime {calendar : Int} (h : InYears calendar) : InRange (gmtime calendar) := by
  obtain ⟨-, hmday, -, hhour, hmin, hsec⟩ := civil_gmtime calendar
  have hmonth := (dateOf (calendar / 86400)).month_lt
  have hday := (dateOf (calendar / 86400)).day_lt_31
  refine ⟨by omega, by omega, by omega, ⟨hmday, ?_⟩, ?_, (inYears_iff calendar).mp h, ?_⟩
  · simp only [gmtime]
    omega
  · simp only [gmtime]
    omega
  · simp only [gmtime]
    omega

/-- The time that a command tells a reader, for which all years are of this century. -/
def toldTime (szSend : Str) : Option Int :=
  match (pairs (szSend.drop "\n@SETDATE".toList.length).dropLast).map
      fun w => (decimalValue w : Int) with
  | [year, _, month, day, hour, minute, second] =>
      some (timeOf ⟨second, minute, hour, day, month - 1, year + 100, 0, 0, 0⟩)
  | _ => none

/-- The same date and time in this century. -/
def thisCentury (st : Tm) : Tm := { st with year := (st.year + 1900) % 100 + 100 }

/-- Every date of a year is one of the year of this century. -/
theorem civil_thisCentury {st : Tm} (h : Civil st) : Civil (thisCentury st) where
  mon := h.mon
  mday := h.mday
  day_lt := by
    have hleap : IsLeap (st.year + 1900) → IsLeap ((st.year + 1900) % 100 + 100 + 1900) := by
      unfold IsLeap
      omega
    refine h.day_lt.trans_le ?_
    change _ ≤ (monthLengths ((st.year + 1900) % 100 + 100 + 1900)).getD st.mon.toNat 0
    unfold monthLengths
    by_cases hsecond : st.mon.toNat = 1
    · rw [hsecond]
      simp only [List.getD_cons_succ, List.getD_cons_zero]
      split
      · rename_i hyear
        rw [if_pos (hleap hyear)]
      · split <;> omega
    · refine le_of_eq ?_
      match hmonth : st.mon.toNat with
      | 0 => rfl
      | 1 => exact absurd hmonth hsecond
      | n + 2 => simp only [List.getD_cons_succ]
  hour := h.hour
  min := h.min
  sec := h.sec

theorem timeOf_thisCentury_eq_iff (calendar : Int) :
    timeOf (thisCentury (gmtime calendar)) = calendar ↔ InCentury calendar := by
  have hcivil := civil_gmtime calendar
  have htime := timeOf_gmtime calendar
  rw [inCentury_iff]
  constructor
  · intro heq
    rw [← htime, timeOf_gmtime] at heq
    have hyear := ((civil_thisCentury hcivil).sameFields_iff hcivil).mpr (heq.trans htime.symm)
    have hsame : ((gmtime calendar).year + 1900) % 100 + 100 = (gmtime calendar).year := hyear.year
    omega
  · intro hyear
    have hsame : thisCentury (gmtime calendar) = gmtime calendar := by
      have heq : ((gmtime calendar).year + 1900) % 100 + 100 = (gmtime calendar).year := by omega
      rw [thisCentury, heq]
    rw [hsame, htime]

/-- The text of `SetTime` tells its date and time, in this century. -/
theorem toldTime_setTime {st : Tm} (h : InRange st) :
    toldTime ("\n@SETDATE".toList ++ (sentNumbers st).flatMap twoDigits ++ ['\r']) =
      some (timeOf (thisCentury st)) := by
  have hpairs := (pairs_flatMap_twoDigits (sentNumbers_small h)).2.2
  have hdigits : (("\n@SETDATE".toList ++ (sentNumbers st).flatMap twoDigits ++ ['\r']).drop
      "\n@SETDATE".toList.length).dropLast = (sentNumbers st).flatMap twoDigits := by
    rw [List.append_assoc, List.drop_left, List.dropLast_concat]
  rw [toldTime, hdigits, hpairs, sentNumbers]
  simp only [add_sub_cancel_right]
  rfl

/-- The fields of a timestamp, with its milliseconds. -/
def stampFields (t : Timestamp) : Tm where
  sec := decimalValue t.sec
  min := decimalValue t.min
  hour := decimalValue t.hour
  mday := decimalValue t.day
  mon := decimalValue t.month - 1
  year := decimalValue t.year - 1900
  wday := 0
  yday := 0
  isdst := decimalValue t.ms

/-- The timestamp is one of the calendar, of this time. -/
structure Shows (t : Timestamp) (calendar : Int) : Prop where
  civil : Civil (stampFields t)
  time : timeOf (stampFields t) = calendar

theorem sameFields_of_storedIn {t : Timestamp} {st : Tm} (h : (dateTimeOf t).StoredIn st) :
    SameFields st (stampFields t) :=
  ⟨h.year, h.mon, h.mday, h.hour, h.min, h.sec⟩

theorem getContent_stamp (t : Timestamp) : getContent ('@' :: t.text) = some t.text := by
  rw [← dateTimeOf_text]
  apply getContent_at
  · exact (dateTimeOf t).not_mem_text rfl (by decide)
  · intro ch hch
    apply isDot_iff.mpr
    constructor
    · exact ne_of_mem_of_not_mem hch ((dateTimeOf t).not_mem_text rfl (by decide))
    · exact ne_of_mem_of_not_mem hch ((dateTimeOf t).not_mem_text rfl (by decide))

/-- A timestamp is read whatever was there before. -/
theorem exists_parsed_stamp (t : Timestamp) (prior : Tm) :
    ∃ st, parseDateTime t.text prior = some (true, st) ∧ (dateTimeOf t).StoredIn st := by
  have h := (dateTimeOf t).parseDateTime_of_fits (dateTimeOf_fits t) prior
  rwa [dateTimeOf_text] at h

/-- A timestamp is a success exactly if it has the fields that were sent. -/
theorem setTimeReply_stamp (t : Timestamp) (st unset unsetParsed : Tm) :
    ∃ code, setTimeReply unset unsetParsed st ('@' :: t.text) = some code ∧
      (code = rfidOk ∨ code = rfidErrEchoResult) ∧
      (code = rfidOk ↔ SameFields st (stampFields t)) := by
  obtain ⟨stResponseTime, hparse, hstored⟩ := exists_parsed_stamp t unsetParsed
  obtain ⟨hyear, hmon, hmday, hhour, hmin, hsec⟩ := sameFields_of_storedIn hstored
  have hlen : ('@' :: t.text).length > 0 := Nat.succ_pos _
  have hcode : setTimeReply unset unsetParsed st ('@' :: t.text) =
      some (if st.year = stResponseTime.year ∧ st.mon = stResponseTime.mon ∧
          st.mday = stResponseTime.mday ∧ st.hour = stResponseTime.hour ∧
          st.min = stResponseTime.min ∧ st.sec = stResponseTime.sec then rfidOk
        else rfidErrEchoResult) := by
    rw [setTimeReply, if_pos hlen, parseSetTime, getContent_stamp]
    simp only [Option.bind_eq_bind, Option.bind_some, hparse, if_true]
  refine ⟨_, hcode, ?_, ?_⟩
  · split
    · exact Or.inl rfl
    · exact Or.inr rfl
  · rw [hyear, hmon, hmday, hhour, hmin, hsec]
    split
    · rename_i hsame
      obtain ⟨hyear, hmon, hmday, hhour, hmin, hsec⟩ := hsame
      exact iff_of_true rfl ⟨hyear, hmon, hmday, hhour, hmin, hsec⟩
    · rename_i hother
      refine iff_of_false (by decide) fun h => hother ?_
      exact ⟨h.year, h.mon, h.mday, h.hour, h.min, h.sec⟩

/-- What `GetTime` hands out is the time that the answer shows, with its milliseconds. -/
theorem getTime_stamp {t : Timestamp} {calendar : Int} (h : Shows t calendar) (prior : Tm)
    (nSend : Int) : ∃ st, (getTime prior).after nSend ('@' :: t.text) = some (rfidOk, st) ∧
      timeOf st = calendar ∧ st.isdst = decimalValue t.ms := by
  obtain ⟨st, hparse, hstored⟩ := exists_parsed_stamp t prior
  refine ⟨st, ?_, ?_, hstored.isdst⟩
  · have hlen : ('@' :: t.text).length > 0 := Nat.succ_pos _
    rw [getTime, Exchange.after, if_pos hlen, parseGetTime, getContent_stamp]
    simp only [Option.bind_eq_bind, Option.bind_some, hparse]
    rfl
  · exact (sameFields_of_storedIn hstored).timeOf_eq.trans h.time

theorem setSystemTime_eq {calendar : Int} (h : InYears calendar) (unset unsetParsed : Tm) :
    setSystemTime unset unsetParsed calendar = .send rfPtReqSetDateTime
      ("\n@SETDATE".toList ++ (sentNumbers (gmtime calendar)).flatMap twoDigits ++ ['\r'])
      fun _ response => setTimeReply unset unsetParsed (gmtime calendar) response :=
  setTime_eq (inRange_gmtime h) unset unsetParsed

theorem exists_sent_setSystemTime {calendar : Int} (h : InYears calendar) (unset unsetParsed : Tm) :
    ∃ szSend, (setSystemTime unset unsetParsed calendar).sent = some szSend ∧
      (toldTime szSend = some calendar ↔ InCentury calendar) := by
  refine ⟨_, by rw [setSystemTime_eq h unset unsetParsed, Exchange.sent], ?_⟩
  rw [toldTime_setTime (inRange_gmtime h), Option.some_inj]
  exact timeOf_thisCentury_eq_iff calendar

theorem setSystemTime_after {calendar shown : Int} {t : Timestamp} (h : InYears calendar)
    (ht : Shows t shown) (unset unsetParsed : Tm) (nSend : Int) :
    ∃ code, (setSystemTime unset unsetParsed calendar).after nSend ('@' :: t.text) = some code ∧
      (code = rfidOk ∨ code = rfidErrEchoResult) ∧ (code = rfidOk ↔ shown = calendar) := by
  obtain ⟨code, hcode, hcodes, hok⟩ := setTimeReply_stamp t (gmtime calendar) unset unsetParsed
  refine ⟨code, by rw [setSystemTime_eq h unset unsetParsed, Exchange.after, hcode], hcodes, ?_⟩
  rw [hok, (civil_gmtime calendar).sameFields_iff ht.civil, timeOf_gmtime, ht.time]
  exact eq_comm

/-- From 1900 to 9999 the reader is told the time exactly in this century, and the answer is taken
for a success exactly if it shows the time. -/
theorem system_time_told (calendar : Int) (h : InYears calendar) (unset unsetParsed : Tm) :
    (∃ szSend, (setSystemTime unset unsetParsed calendar).sent = some szSend ∧
      (toldTime szSend = some calendar ↔ InCentury calendar)) ∧
    ∀ (t : Timestamp) (shown : Int), Shows t shown → ∀ nSend,
      ∃ code, (setSystemTime unset unsetParsed calendar).after nSend ('@' :: t.text) = some code ∧
        (code = rfidOk ∨ code = rfidErrEchoResult) ∧ (code = rfidOk ↔ shown = calendar) :=
  ⟨exists_sent_setSystemTime h unset unsetParsed,
    fun _ _ ht nSend => setSystemTime_after h ht unset unsetParsed nSend⟩

theorem shows_sampleAnswer : Shows sampleAnswer 1648643746 where
  civil := ⟨by decide, by decide, by decide, by decide, by decide, by decide⟩
  time := rfl

/-- 2022/03/30 12:35:46, answered as such. -/
theorem system_time_told_sample :
    (∃ szSend, (setSystemTime sampleTm sampleTm 1648643746).sent = some szSend ∧
      toldTime szSend = some 1648643746) ∧
    ∃ code, (setSystemTime sampleTm sampleTm 1648643746).after 25 ('@' :: sampleAnswer.text) =
      some code ∧ code = rfidOk := by
  have hcentury : InCentury 1648643746 := ⟨by decide, by decide⟩
  obtain ⟨⟨szSend, hsent, htold⟩, hanswered⟩ :=
    system_time_told 1648643746 hcentury.inYears sampleTm sampleTm
  obtain ⟨code, hcode, -, hok⟩ := hanswered sampleAnswer 1648643746 shows_sampleAnswer 25
  exact ⟨⟨szSend, hsent, htold.mpr hcentury⟩, code, hcode, hok.mpr rfl⟩

/-- The calls of a user, and the seconds that pass between them. -/
inductive ClockCall where
  | setSystemTime (calendar : Int) (unset unsetParsed : Tm)
  | getTime (stTime : Tm)
  | pass (seconds : Nat)

/-- What a call gives back. -/
inductive ClockResult where
  | code (ret : Int)
  | time (ret calendar : Int)
  | passed

/-- A clock that is set, looked at, and goes on. -/
def clockStep (clock : Int) : ClockCall → ClockResult × Int
  | .setSystemTime calendar _ _ => (.code rfidOk, calendar)
  | .getTime _ => (.time rfidOk clock, clock)
  | .pass seconds => (.passed, clock + seconds)

/-- The clock is set to a time of this century, and looked at in it. -/
def KeepsCentury (clock : Int) : ClockCall → Prop
  | .setSystemTime calendar _ _ => InCentury calendar
  | .getTime _ => InCentury clock
  | .pass _ => True

section Clock

variable {δ : Type*}

/-- The calls of the interface on a reader. -/
def callClock (answer : δ → Str → Str × δ) (pass : δ → Nat → δ) (d : δ) :
    ClockCall → Option (ClockResult × δ)
  | .setSystemTime calendar unset unsetParsed =>
      let called := (setSystemTime unset unsetParsed calendar).on answer d
      called.1.map fun ret => (.code ret, called.2)
  | .getTime stTime =>
      let called := (RfidInterface.getTime stTime).on answer d
      called.1.map fun result => (.time result.1 (timeOf result.2), called.2)
  | .pass seconds => some (.passed, pass d seconds)

/-- A reader as the comments on the commands describe it: it takes over the time that it is told,
answers with the time that it has, and its clock goes on. -/
structure KeepsTime (answer : δ → Str → Str × δ) (pass : δ → Nat → δ) (clock : δ → Int) :
    Prop where
  set : ∀ d szSend calendar, toldTime szSend = some calendar → InCentury calendar →
    ∃ t d', answer d szSend = ('@' :: Timestamp.text t, d') ∧ Shows t calendar ∧
      clock d' = calendar
  get : ∀ d, InCentury (clock d) → ∃ t d', answer d "\n@SETDATE\r".toList =
    ('@' :: Timestamp.text t, d') ∧ Shows t (clock d) ∧ clock d' = clock d
  pass : ∀ d seconds, clock (pass d seconds) = clock d + seconds

variable {answer : δ → Str → Str × δ} {pass : δ → Nat → δ} {clock : δ → Int}

/-- One call is answered as by the clock, and the reader's clock stands where it does. -/
theorem KeepsTime.call_step (h : KeepsTime answer pass clock) (d : δ) {call : ClockCall}
    (hcall : KeepsCentury (clock d) call) :
    ∃ d', callClock answer pass d call = some ((clockStep (clock d) call).1, d') ∧
      clock d' = (clockStep (clock d) call).2 := by
  cases call with
  | setSystemTime calendar unset unsetParsed =>
      obtain ⟨szSend, hsent, htold⟩ := exists_sent_setSystemTime hcall.inYears unset unsetParsed
      obtain ⟨t, d', hanswer, hshows, hclock⟩ := h.set d szSend calendar (htold.mpr hcall) hcall
      obtain ⟨code, hcode, -, hok⟩ :=
        setSystemTime_after hcall.inYears hshows unset unsetParsed szSend.length
      obtain rfl := hok.mpr rfl
      refine ⟨d', ?_, hclock⟩
      rw [callClock, Exchange.on_of_sent hsent hanswer, hcode]
      rfl
  | getTime stTime =>
      obtain ⟨t, d', hanswer, hshows, hclock⟩ := h.get d hcall
      obtain ⟨st, hst, htime, -⟩ := getTime_stamp hshows stTime "\n@SETDATE\r".toList.length
      refine ⟨d', ?_, hclock⟩
      have hsent : (RfidInterface.getTime stTime).sent = some "\n@SETDATE\r".toList := rfl
      rw [callClock, Exchange.on_of_sent hsent hanswer, hst, Option.map_some, htime]
      rfl
  | pass seconds => exact ⟨pass d seconds, rfl, h.pass d seconds⟩

end Clock

/-- With a reader that keeps the time, every sequence of calls within this century is answered as by
a clock: setting it succeeds, and `GetTime` hands out the time last set and what has passed
since. -/
theorem reader_clock_kept {δ : Type*} (answer : δ → Str → Str × δ) (pass : δ → Nat → δ)
    (clock : δ → Int) (h : KeepsTime answer pass clock) (d : δ) (calls : List ClockCall)
    (hcalls : Along (fun t call => some (clockStep t call).2) KeepsCentury (clock d) calls) :
    Lockstep (fun d t => clock d = t) (callClock answer pass) clockStep d (clock d) calls := by
  refine lockstep_of_along ?_ rfl hcalls
  rintro d t call rfl hcall
  exact h.call_step d hcall

def twoDigitText (n : Int) (hn : 0 ≤ n) (hlt : n < 100) : DigitText 2 :=
  ⟨twoDigits n, (twoDigits_spec hn hlt).1, (twoDigits_spec hn hlt).2.1⟩

theorem decimalValue_twoDigitText {n : Int} (hn : 0 ≤ n) (hlt : n < 100) :
    (decimalValue (twoDigitText n hn hlt) : Int) = n := (twoDigits_spec hn hlt).2.2

/-- A number of four digits. -/
def fourDigitText (n : Nat) (hn : 1000 ≤ n) (hlt : n < 10000) : DigitText 4 :=
  ⟨Nat.toDigits 10 n, by
    have hle := (Nat.length_toDigits_le_iff (b := 10) (k := 4) (by omega) (by omega)).mpr hlt
    have hnot := mt (Nat.length_toDigits_le_iff (b := 10) (k := 3) (by omega) (by omega)).mp
      (Nat.not_lt.mpr hn)
    omega, by
    intro ch hch
    have hdigit := Nat.isDigit_of_mem_toDigits (by omega) (by omega) hch
    simpa [Char.isDigit, isDigit, Char.le_def] using hdigit⟩

theorem decimalValue_fourDigitText {n : Nat} (hn : 1000 ≤ n) (hlt : n < 10000) :
    decimalValue (fourDigitText n hn hlt) = n := by
  rw [decimalValue_eq_ofDigitChars]
  exact Nat.ofDigitChars_ten_toDigits

/-- The timestamp of a time of this century. -/
def stampOf (calendar : Int) (h : InCentury calendar) : Timestamp :=
  have hcivil := civil_gmtime calendar
  have hrange := inRange_gmtime h.inYears
  have hyear := (inCentury_iff calendar).mp h
  { year := fourDigitText ((gmtime calendar).year + 1900).toNat (by omega) (by omega)
    month := twoDigitText ((gmtime calendar).mon + 1) (by have := hrange.mon; omega)
      (by have := hrange.mon; omega)
    day := twoDigitText (gmtime calendar).mday (by have := hrange.mday; omega)
      (by have := hrange.mday; omega)
    hour := twoDigitText (gmtime calendar).hour hcivil.hour.1 (by have := hcivil.hour; omega)
    min := twoDigitText (gmtime calendar).min hcivil.min.1 (by have := hcivil.min; omega)
    sec := twoDigitText (gmtime calendar).sec hcivil.sec.1 (by have := hcivil.sec; omega)
    ms := ⟨"000".toList, rfl, List.all_eq_true.mp rfl⟩ }

theorem shows_stampOf {calendar : Int} (h : InCentury calendar) :
    Shows (stampOf calendar h) calendar := by
  have hyear := (inCentury_iff calendar).mp h
  have hfields : SameFields (stampFields (stampOf calendar h)) (gmtime calendar) := by
    constructor
    · simp only [stampFields, stampOf, decimalValue_fourDigitText]
      omega
    · simp only [stampFields, stampOf, decimalValue_twoDigitText, add_sub_cancel_right]
    · simp only [stampFields, stampOf, decimalValue_twoDigitText]
    · simp only [stampFields, stampOf, decimalValue_twoDigitText]
    · simp only [stampFields, stampOf, decimalValue_twoDigitText]
    · simp only [stampFields, stampOf, decimalValue_twoDigitText]
  exact ⟨hfields.civil (civil_gmtime calendar), hfields.timeOf_eq.trans (timeOf_gmtime calendar)⟩

instance (calendar : Int) : Decidable (InCentury calendar) := inferInstanceAs (Decidable (_ ∧ _))

def stampText (calendar : Int) : Str :=
  if h : InCentury calendar then '@' :: (stampOf calendar h).text else []

/-- A reader that is nothing but its clock. -/
def modelClock (clock : Int) (szSend : Str) : Str × Int :=
  if szSend = "\n@SETDATE\r".toList then (stampText clock, clock)
  else
    match toldTime szSend with
    | some calendar => (stampText calendar, calendar)
    | none => ([], clock)

theorem keepsTime_modelClock :
    KeepsTime modelClock (fun clock seconds => clock + seconds) id where
  set := by
    intro d szSend calendar htold hcentury
    have hquery : szSend ≠ "\n@SETDATE\r".toList := by
      rintro rfl
      have hnone : toldTime "\n@SETDATE\r".toList = none := by decide
      rw [hnone] at htold
      exact absurd htold.symm (Option.some_ne_none calendar)
    refine ⟨stampOf calendar hcentury, calendar, ?_, shows_stampOf hcentury, rfl⟩
    rw [modelClock, if_neg hquery, htold]
    simp only [stampText, dif_pos hcentury]
  get := by
    intro d hcentury
    refine ⟨stampOf d hcentury, d, ?_, shows_stampOf hcentury, rfl⟩
    rw [modelClock, if_pos rfl, stampText, dif_pos (show InCentury d from hcentury)]
  pass := fun _ _ => rfl

/-- The clock is set, goes on for a day, and is looked at. -/
theorem reader_clock_kept_modelClock :
    Lockstep (fun d t => id d = t) (callClock modelClock fun clock seconds => clock + seconds)
      clockStep 0 0 [.setSystemTime 1648643746 sampleTm sampleTm, .pass 86400, .getTime sampleTm] :=
  reader_clock_kept modelClock (fun clock seconds => clock + seconds) id keepsTime_modelClock 0 _
    ⟨⟨by decide, by decide⟩, fun _ h₁ => ⟨trivial, fun _ h₂ => by
      obtain rfl := Option.some.inj h₁
      obtain rfl := Option.some.inj h₂
      exact ⟨⟨by decide, by decide⟩, fun _ _ => trivial⟩⟩⟩

end RfidEngine.RfidInterface
