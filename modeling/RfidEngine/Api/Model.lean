import RfidEngine.HandleManager.Model
import RfidEngine.Statistics.Model

/-!
# c_if: the functions over handles

Each function looks its handle up in the table and works on the interface found.
What the interfaces answer depends on all that was asked of them before, and is
an argument; dereferencing a null pointer, or an exception, ends a call without
a result.
-/

namespace RfidEngine

/-- `struct tm` -/
structure Tm where
  sec : Int
  min : Int
  hour : Int
  mday : Int
  mon : Int
  year : Int
  wday : Int
  yday : Int
  isdst : Int
  deriving DecidableEq

/-- The calls that the functions make on an interface, each of which may send to its reader. -/
inductive InterfaceCall where
  | inventoryEPC (slot : Int) (loop : Bool)
  | readMultiBank (slot : Int) (loop : Bool) (bankType start wordLen : Int)
  | singleCommand (userCmd : Str)
  | selectTag (bank bitStart bitLength : Int) (pattern : Str)
  | password (password : Str)
  | writeBank (bank startAddr length : Int) (data : Str)
  | getTime
  | setTime (time : Tm)
  | setSystemTime
  | reboot
  | setLoopTime (looptimeMs : Nat)
  | getLoopTime
  | setLoopAntenna (antennas : Nat)
  | getLoopAntenna
  | setPower (nPower : Int)
  | getPower
  deriving DecidableEq

/-- What a call returns, with what it stores through its reference arguments. -/
@[reducible] def InterfaceCall.Result : InterfaceCall → Type
  | .inventoryEPC _ _ => Int × List Str
  | .readMultiBank _ _ _ _ _ => Int × List Str
  | .singleCommand _ => Str
  | .getTime => Int × Tm
  | .getLoopTime => Int × Nat
  | .getLoopAntenna => Int × Nat
  | .getPower => Int × Int
  | _ => Int

variable {π : Type}

/-- The handle table and the calls made on the interfaces so far. -/
structure World (π : Type) where
  hm : HandleManager π
  sent : List (π × InterfaceCall)
  deriving DecidableEq

/-- What the functions rely on: the answers of the interfaces, the identifiers in their settings,
the JSON texts, which may end in an exception, and what is left unset or lies in memory behind
the strings of a read. -/
structure Host (π : Type) where
  answer : List (π × InterfaceCall) → π → (c : InterfaceCall) → c.Result
  readerId : π → ReaderId
  dumpU : List RfidParseU → Option Str
  dumpUR : List RfidParseUR → Option Str
  unset : Unset
  behind : Nat → Overread

abbrev Api (π : Type) := StateT (World π) Option

namespace Api

def isValidHandle (h : Int) : Api π Bool := fun w => some (w.hm.isValidHandle h, w)

/-- `hm.get_rfid_ptr(h)->c`; a null pointer has no result. -/
def callInterface (host : Host π) (h : Int) (c : InterfaceCall) : Api π c.Result := fun w =>
  match w.hm.getRfidPtr h with
  | some p => some (host.answer w.sent p c, { w with sent := w.sent ++ [(p, c)] })
  | none => none

/-- `hm.get_rfid_ptr(h)->reader_settings.reader_id` -/
def readerId (host : Host π) (h : Int) : Api π ReaderId := fun w =>
  match w.hm.getRfidPtr h with
  | some p => some (host.readerId p, w)
  | none => none

/-- What returns without an exception. -/
def lift {α : Type} (x : Option α) : Api π α := fun w => x.map fun a => (a, w)

/-- The answer put in the buffer of the handle and handed out. -/
def answerText (h : Int) (s : Str) : Api π (Option Str × Int) := fun w =>
  let hm := (w.hm.clearBuffer h).appendData h s
  some (hm.getData h, { w with hm := hm })

theorem bind_of_eq {α β : Type} {x : Api π α} {w w' : World π} {a : α} (hx : x w = some (a, w'))
    (f : α → Api π β) : (x >>= f) w = f a w' := by
  change (x w).bind (fun r => f r.1 r.2) = f a w'
  rw [hx, Option.bind_some]

theorem bind_of_none {α β : Type} {x : Api π α} {w : World π} (hx : x w = none)
    (f : α → Api π β) : (x >>= f) w = none := by
  change (x w).bind (fun r => f r.1 r.2) = none
  rw [hx, Option.bind_none]

theorem lift_of_eq {α : Type} {x : Option α} {a : α} (hx : x = some a) (w : World π) :
    Api.lift x w = some (a, w) := by
  rw [Api.lift, hx, Option.map_some]

theorem lift_bind {α β : Type} (x : Option α) (f : α → Api π β) (w : World π) :
    (Api.lift x >>= f) w = x.bind fun a => f a w := by
  cases x <;> rfl

/-- What returns for each element returns for the list. -/
theorem exists_mapM_eq_some {α β : Type} {f : α → Option β} (h : ∀ a, (f a).isSome = true)
    (as : List α) : ∃ bs, as.mapM f = some bs := by
  induction as with
  | nil => exact ⟨[], rfl⟩
  | cons a as ih =>
      obtain ⟨b, hb⟩ := Option.isSome_iff_exists.mp (h a)
      obtain ⟨bs, hbs⟩ := ih
      exact ⟨b :: bs, by simp [List.mapM_cons, hb, hbs]⟩

theorem isValidHandle_eq (h : Int) (w : World π) :
    isValidHandle h w = some (w.hm.isValidHandle h, w) := rfl

section OnPointer

variable {host : Host π} {h : Int} {w : World π} {p : π}

theorem isValidHandle_of_pointer (hptr : w.hm.getRfidPtr h = some p) :
    isValidHandle h w = some (true, w) := by
  rw [isValidHandle_eq, HandleManager.isValidHandle_of_getRfidPtr hptr]

theorem callInterface_of_pointer (hptr : w.hm.getRfidPtr h = some p) (c : InterfaceCall) :
    callInterface host h c w =
      some (host.answer w.sent p c, { w with sent := w.sent ++ [(p, c)] }) := by
  rw [callInterface, hptr]

theorem readerId_of_pointer (hptr : w.hm.getRfidPtr h = some p) :
    readerId host h w = some (host.readerId p, w) := by
  rw [readerId, hptr]

end OnPointer

end Api

open Api

variable (host : Host π) (h : Int)

/-- The replies of a bank read that hold data. -/
def readBankHelper (slot : Int) (loop : Bool) (bankType start wordLen : Int) :
    Api π (Int × List RfidParseUR) := do
  if ← isValidHandle h then
    let answer ← callInterface host h (.readMultiBank slot loop bankType start wordLen)
    let readMb : List Str := answer.2
    let parsed ← Api.lift
      (readMb.mapM fun response => RfidParseUR.parse host.unset response bankType)
    return (rfidOk, parsed.filter fun parseUR => parseUR.isMatch && parseUR.hasData)
  else
    return (rfidErrInvalidHandle, [])

/-- A bank read on an interface returns the replies that hold data, and leaves the table. -/
theorem readBankHelper_of_parsed {host : Host π} {h : Int} {w : World π} {p : π}
    (hptr : w.hm.getRfidPtr h = some p) {slot : Int} {loop : Bool} {bankType start wordLen : Int}
    {parsed : List RfidParseUR}
    (hparsed : (host.answer w.sent p (.readMultiBank slot loop bankType start wordLen)).2.mapM
      (fun response => RfidParseUR.parse host.unset response bankType) = some parsed) :
    readBankHelper host h slot loop bankType start wordLen w = some
      ((rfidOk, parsed.filter fun parseUR => parseUR.isMatch && parseUR.hasData),
        { w with sent := w.sent ++ [(p, .readMultiBank slot loop bankType start wordLen)] }) := by
  unfold readBankHelper
  rw [bind_of_eq (isValidHandle_of_pointer hptr), if_pos rfl,
    bind_of_eq (callInterface_of_pointer hptr _)]
  exact bind_of_eq (lift_of_eq hparsed _) _

def rfInventoryEPC (slot : Int) (loop : Bool) : Api π (Int × Option (Option Str × Int)) := do
  if ← isValidHandle h then
    let answer ← callInterface host h (.inventoryEPC slot loop)
    let ret : Int := answer.1
    let responses : List Str := answer.2
    let parsed ← Api.lift (responses.mapM fun response => RfidParseU.parse host.unset response)
    let s ← Api.lift (host.dumpU (parsed.filter fun parseU => parseU.isMatch && parseU.hasData))
    let json ← answerText h s
    return (ret, some json)
  else
    return (rfidErrInvalidHandle, none)

def rfSingleCommand (userCmd : Str) : Api π (Option (Option Str × Int)) := do
  if ← isValidHandle h then
    let response : Str ← callInterface host h (.singleCommand userCmd)
    let answer ← answerText h response
    return some answer
  else
    return none

def rfReadMultiBank (slot : Int) (loop : Bool) (bankType start wordLen : Int) :
    Api π (Int × Option (Option Str × Int)) := do
  if ← isValidHandle h then
    let (ret, convert) ← readBankHelper host h slot loop bankType start wordLen
    let s ← Api.lift (host.dumpUR convert)
    let json ← answerText h s
    return (ret, some json)
  else
    return (rfidErrInvalidHandle, none)

section Dumped

variable {host : Host π} {h : Int} {w : World π} {p : π} {slot : Int} {loop : Bool}

/-- An inventory on an interface hands out the dump of the replies that hold data. -/
theorem rfInventoryEPC_of_parsed (hptr : w.hm.getRfidPtr h = some p) {parsed : List RfidParseU}
    (hparsed : (host.answer w.sent p (.inventoryEPC slot loop)).2.mapM
      (fun response => RfidParseU.parse host.unset response) = some parsed) :
    rfInventoryEPC host h slot loop w =
      (host.dumpU (parsed.filter fun parseU => parseU.isMatch && parseU.hasData)).map fun s =>
        let hm := (w.hm.clearBuffer h).appendData h s
        (((host.answer w.sent p (.inventoryEPC slot loop)).1, some (hm.getData h)),
          { hm := hm, sent := w.sent ++ [(p, .inventoryEPC slot loop)] }) := by
  unfold rfInventoryEPC
  rw [bind_of_eq (isValidHandle_of_pointer hptr), if_pos rfl,
    bind_of_eq (callInterface_of_pointer hptr _), lift_bind, hparsed, Option.bind_some, lift_bind,
    Option.map_eq_bind]
  rfl

/-- A bank read on an interface hands out the dump of the replies that hold data. -/
theorem rfReadMultiBank_of_parsed {bankType start wordLen : Int}
    (hptr : w.hm.getRfidPtr h = some p) {parsed : List RfidParseUR}
    (hparsed : (host.answer w.sent p (.readMultiBank slot loop bankType start wordLen)).2.mapM
      (fun response => RfidParseUR.parse host.unset response bankType) = some parsed) :
    rfReadMultiBank host h slot loop bankType start wordLen w =
      (host.dumpUR (parsed.filter fun parseUR => parseUR.isMatch && parseUR.hasData)).map fun s =>
        let hm := (w.hm.clearBuffer h).appendData h s
        ((rfidOk, some (hm.getData h)),
          { hm := hm,
            sent := w.sent ++ [(p, .readMultiBank slot loop bankType start wordLen)] }) := by
  unfold rfReadMultiBank
  rw [bind_of_eq (isValidHandle_of_pointer hptr), if_pos rfl,
    bind_of_eq (readBankHelper_of_parsed hptr hparsed)]
  simp only
  rw [lift_bind, Option.map_eq_bind]
  rfl

end Dumped

/-- The check of the handle in front of a call that is passed on. -/
def passOn {α : Type} (c : InterfaceCall) (refused : α) (passed : c.Result → α) : Api π α := do
  if ← isValidHandle h then
    let r ← callInterface host h c
    return passed r
  else
    return refused

def rfGetTime : Api π (Int × Option Tm) :=
  passOn host h .getTime (rfidErrInvalidHandle, none) fun (r : Int × Tm) => (r.1, some r.2)

def rfSetTime (time : Tm) : Api π Int := passOn host h (.setTime time) rfidErrInvalidHandle id

def rfSetSystemTime : Api π Int := passOn host h .setSystemTime rfidErrInvalidHandle id

def rfReboot : Api π Int := passOn host h .reboot rfidErrInvalidHandle id

def rfSetLoopTime (looptimeMs : Nat) : Api π Int :=
  passOn host h (.setLoopTime looptimeMs) rfidErrInvalidHandle id

def rfGetLoopTime : Api π (Int × Option Nat) :=
  passOn host h .getLoopTime (rfidErrInvalidHandle, none) fun (r : Int × Nat) => (r.1, some r.2)

/-- The check has no `else`: the call is made in any case, and its result returned. -/
def rfSetLoopAntenna (antennas : Nat) : Api π Int := do
  let _ ← isValidHandle h
  let ret : Int ← callInterface host h (.setLoopAntenna antennas)
  return ret

/-- As in `rfSetLoopAntenna` the call is made in any case. -/
def rfGetLoopAntenna : Api π (Int × Nat) := do
  let _ ← isValidHandle h
  let ret : Int × Nat ← callInterface host h .getLoopAntenna
  return ret

def rfSetPower (nPower : Int) : Api π Int :=
  passOn host h (.setPower nPower) rfidErrInvalidHandle id

def rfGetPower : Api π (Int × Option Int) :=
  passOn host h .getPower (rfidErrInvalidHandle, none) fun (r : Int × Int) => (r.1, some r.2)

def rfClose : Api π Unit := modify fun w => { w with hm := w.hm.removeHandleUnit h }

/-- The read-back: a reply with the TID and the new EPC ends the loop with `RFID_OK`. -/
def readBack (unset : Unset) (refTid epc : Str) (ret : Int) : List Str → Option Int
  | [] => some ret
  | replyStr :: readMb => do
      let parseUR ← RfidParseUR.parse unset replyStr rfidMbTid
      if parseUR.tid = refTid ∧ parseUR.epc.epc = epc then some rfidOk
      else readBack unset refTid epc ret readMb

def rfWriteEPC (refTid epc : Str) (doubleCheck : Bool) : Api π Int := do
  if ← isValidHandle h then
    let start : Int := 0
    let nWord : Int := 6
    -- The length of the selection is in bits.
    let _ ← callInterface host h (.selectTag rfidMbTid start (nWord * 16) refTid)
    let _ ← callInterface host h (.password [])
    let ret : Int ← callInterface host h (.writeBank rfidMbEpc 2 nWord epc)
    if doubleCheck then
      let answer ← callInterface host h (.readMultiBank 3 true rfidMbTid start nWord)
      let readMb : List Str := answer.2
      let ret ← Api.lift (readBack host.unset refTid epc ret readMb)
      return ret
    else
      return ret
  else
    return rfidErrInvalidHandle

/-- What `rfStatistics` returns and stores; the records written into the caller's buffer stand
with their places. -/
structure StatisticsAnswer where
  ret : Int
  statCount : Int
  written : List (Nat × EpcStatistics)
  deriving DecidableEq

/-- The reads of all rounds; the clock ends the loop after some more rounds than the first. -/
def readRounds (slot : Int) (loop : Bool) (bankType start wordLen : Int) :
    Nat → Api π (Int × List RfidParseUR)
  | 0 => readBankHelper host h slot loop bankType start wordLen
  | more + 1 => do
      let first ← readBankHelper host h slot loop bankType start wordLen
      let later ← readRounds slot loop bankType start wordLen more
      return (later.1, first.2 ++ later.2)

/-- The copy of the records from place `i` on, up to a limit. -/
def fillBuffer (limit : Int) (ret : Int) : Nat → List EpcStatistics → StatisticsAnswer
  | i, [] => ⟨ret, i, []⟩
  | i, item :: rest =>
      if i ≥ limit then ⟨rfidErrBufferOverflow, i, []⟩
      else
        let answer := fillBuffer limit ret (i + 1) rest
        { answer with written := (i, item) :: answer.written }

/-- The reads with what lies behind their strings in memory. -/
def withBehind (readerResult : List RfidParseUR) : List Read :=
  readerResult.mapIdx fun i parse => ⟨parse, host.behind i⟩

/-- The caller's buffer is null or has room for `*stat_count` records, which are cleared first;
the copy compares with the number of records, not with the room. -/
def rfStatistics (slot : Int) (loop : Bool) (bankType start wordLen : Int) (moreRounds : Nat)
    (rule : StatisticsRule) (buffer : Option Nat) : Api π StatisticsAnswer := do
  match buffer with
  | none => return ⟨rfidErrInvalidBuffer, 0, []⟩
  | some statCount =>
      if ← isValidHandle h then
        let (ret, readerResult) ← readRounds host h slot loop bankType start wordLen moreRounds
        let id ← readerId host h
        let statResult ← Api.lift (doStatisticHelper id rule (withBehind host readerResult))
        return fillBuffer (toInt statResult.length) ret 0 statResult
      else
        return ⟨rfidErrInvalidHandle, statCount, []⟩

/-- The answers of an interface without a reader. -/
def silentAnswer : (c : InterfaceCall) → c.Result
  | .inventoryEPC _ _ => (rfidErrSend, [])
  | .readMultiBank _ _ _ _ _ => (rfidErrSend, [])
  | .singleCommand _ => ([] : Str)
  | .getTime => (rfidErrSend, ⟨0, 0, 0, 0, 0, 0, 0, 0, 0⟩)
  | .getLoopTime => (rfidErrSend, 0)
  | .getLoopAntenna => (rfidErrSend, 0)
  | .getPower => (rfidErrSend, 0)
  | .selectTag _ _ _ _ => rfidErrSend
  | .password _ => rfidErrSend
  | .writeBank _ _ _ _ => rfidErrSend
  | .setTime _ => rfidErrSend
  | .setSystemTime => rfidErrSend
  | .reboot => rfidErrSend
  | .setLoopTime _ => rfidErrSend
  | .setLoopAntenna _ => rfidErrSend
  | .setPower _ => rfidErrSend

/-- A host of silent interfaces. -/
def silentHost : Host Char where
  answer := fun _ _ c => silentAnswer c
  readerId := fun _ => sampleReaderId
  dumpU := fun _ => some "[]".toList
  dumpUR := fun _ => some "[]".toList
  unset := nothingSet
  behind := fun _ => (sampleStatRead [] []).behind

/-- A host whose interfaces answer a read with the same replies each time. -/
def replyHost (written : Int) (replies : List MultiBankReply) : Host Char where
  answer := fun _ _ c =>
    match c with
    | .readMultiBank _ _ _ _ _ => (rfidOk, replies.map MultiBankReply.line)
    | .writeBank _ _ _ _ => written
    | c => silentAnswer c
  readerId := silentHost.readerId
  dumpU := silentHost.dumpU
  dumpUR := silentHost.dumpUR
  unset := silentHost.unset
  behind := silentHost.behind

/-- Two interfaces were opened and the first closed again. -/
def sampleWorld : World Char where
  hm := ⟨2, [⟨1, some 'b', "[]".toList⟩]⟩
  sent := []

/-- The parser takes the replies apart one by one. -/
theorem mapM_parse_line (u : Unset) (bank : Bank) (replies : List MultiBankReply) :
    (replies.map MultiBankReply.line).mapM
        (fun response => RfidParseUR.parse u response bank.code) =
      some (replies.map (MultiBankReply.parsed · bank)) := by
  induction replies with
  | nil => rfl
  | cons r replies ih => simp [List.mapM_cons, r.parse_line u bank, ih]

theorem readBankHelper_replyHost (written : Int) (replies : List MultiBankReply) (slot : Int)
    (loop : Bool) (bank : Bank) (start wordLen : Int) : ∃ sent,
    readBankHelper (replyHost written replies) 1 slot loop bank.code start wordLen sampleWorld =
      some ((rfidOk, replies.map (MultiBankReply.parsed · bank)),
        { sampleWorld with sent := sent }) := by
  have hptr : sampleWorld.hm.getRfidPtr 1 = some 'b' := rfl
  have hfilter : (replies.map (MultiBankReply.parsed · bank)).filter
      (fun parseUR => parseUR.isMatch && parseUR.hasData) =
        replies.map (MultiBankReply.parsed · bank) := by
    apply List.filter_eq_self.mpr
    intro x hx
    obtain ⟨r, -, rfl⟩ := List.mem_map.mp hx
    rfl
  have hparsed : ((replyHost written replies).answer sampleWorld.sent 'b'
      (.readMultiBank slot loop bank.code start wordLen)).2.mapM
        (fun response => RfidParseUR.parse (replyHost written replies).unset response bank.code) =
      some (replies.map (MultiBankReply.parsed · bank)) := mapM_parse_line nothingSet bank replies
  have hread := readBankHelper_of_parsed hptr hparsed
  rw [hfilter] at hread
  exact ⟨[('b', .readMultiBank slot loop bank.code start wordLen)], hread⟩

end RfidEngine
