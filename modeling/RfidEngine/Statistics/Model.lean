import RfidEngine.Replies
import RfidEngine.Lib.CharArray
import RfidEngine.Lib.StepSystem

/-!
# Statistics over the reads of tags

`DoStatisticHelper` counts the reads of each tag in records whose texts are
arrays of fixed size. A text is copied by `memcpy` of the array's size, however
long the string is, and compared with a string from the start of its array to
the next NUL in memory, be it inside the array or behind it.
-/

namespace RfidEngine

open CharArray

inductive StatisticsRule where
  | byEpc
  | byTid
  | byEpcOrTid
  deriving DecidableEq, Repr

abbrev nul : Char := '\x00'

/-- The four bytes of an `int` in memory, the lowest first. -/
def intBytes (v : Int) : Str :=
  (List.range 4).map fun i => Char.ofNat (v / 256 ^ i % 256).toNat

/-- `RFID_EPC_STATISTICS` -/
structure EpcStatistics where
  epc : CharArray Char epcLen
  tid : CharArray Char tidLen
  readerID : CharArray Char readerIdLen
  count : Int
  antenna : Int
  year : Int
  month : Int
  day : Int
  hour : Int
  min : Int
  sec : Int
  ms : Int
  deriving DecidableEq

namespace EpcStatistics

/-- The numbers at the end of a record, in memory. The month of a parsed read has a zero byte,
so that no text runs past the record. -/
def numbers (item : EpcStatistics) : Str :=
  [item.count, item.antenna, item.year, item.month, item.day, item.hour, item.min, item.sec,
    item.ms].flatMap intBytes

/-- The TID as a comparison reads it. -/
def tidText (item : EpcStatistics) : Str :=
  text nul (item.tid.cells ++ (item.readerID.cells ++ item.numbers))

/-- The EPC as a comparison reads it. -/
def epcText (item : EpcStatistics) : Str :=
  text nul (item.epc.cells ++ (item.tid.cells ++ (item.readerID.cells ++ item.numbers)))

/-- The text in the TID's array. -/
def tidField (item : EpcStatistics) : Str := text nul item.tid.cells

end EpcStatistics

/-- The reader's identifier, made a string up to its NUL. -/
structure ReaderId where
  text : Str
  no_nul : nul ∉ text

/-- What lies in memory behind the strings that are copied for a read. -/
structure Overread where
  epc : CharArray Char epcLen
  tid : CharArray Char tidLen
  readerID : CharArray Char readerIdLen

/-- A parsed read and its surroundings in memory. -/
structure Read where
  parse : RfidParseUR
  behind : Overread

/-- Only these reads are counted. -/
def RfidParseUR.eligible (parse : RfidParseUR) : Bool := parse.hasData && parse.epc.isMatch

/-- The predicate of the search: the record is one of the read's tag. -/
def sameTag (rule : StatisticsRule) (antenna : Int) (epc tid : Str) (item : EpcStatistics) :
    Bool :=
  if item.antenna ≠ antenna then false
  else
    match rule with
    | .byEpc => item.epcText == epc
    | .byTid => !tid.isEmpty && item.tidText == tid
    | .byEpcOrTid => item.epcText == epc || item.tidText == tid

/-- The place of the record found for a read, or the end. -/
def findRecord (rule : StatisticsRule) (stats : List EpcStatistics) (antenna : Int) (x : Read) :
    Nat :=
  stats.findIdx (sameTag rule antenna x.parse.epc.epc x.parse.tid)

def newStat (id : ReaderId) (antenna : Int) (x : Read) : EpcStatistics where
  epc := memcpy nul x.parse.epc.epc x.behind.epc
  tid := memcpy nul x.parse.tid x.behind.tid
  readerID := memcpy nul id.text x.behind.readerID
  count := 1
  antenna := antenna
  year := x.parse.time.year
  month := x.parse.time.month
  day := x.parse.time.day
  hour := x.parse.time.hour
  min := x.parse.time.min
  sec := x.parse.time.sec
  ms := x.parse.time.ms

/-- Counting a read in a record of its tag; a missing TID is filled in. -/
def countRead (x : Read) (item : EpcStatistics) : EpcStatistics :=
  let item := { item with count := item.count + 1 }
  if item.tidText.isEmpty && !x.parse.tid.isEmpty then
    { item with tid := memcpy nul x.parse.tid x.behind.tid }
  else item

/-- One turn of the loop. It ends in an exception when the antenna is no `int`, and has no
defined result when a count overflows. -/
def doStatistic (id : ReaderId) (rule : StatisticsRule) (stats : List EpcStatistics) (x : Read) :
    Option (List EpcStatistics) :=
  if x.parse.eligible then do
    let antenna ← stoi x.parse.antenna
    let p := findRecord rule stats antenna x
    match stats[p]? with
    | none => some (stats ++ [newStat id antenna x])
    | some item => if item.count < intMax then some (stats.modify p (countRead x)) else none
  else some stats

def doStatisticHelper (id : ReaderId) (rule : StatisticsRule) (readerResult : List Read) :
    Option (List EpcStatistics) :=
  StepSystem.exec (doStatistic id rule) [] readerResult

/-- A turn skips a read that is not eligible; another one opens a record at the end where the
search finds none, and is counted in the record found where there is one. -/
theorem doStatistic_cases {id : ReaderId} {rule : StatisticsRule}
    {stats stats' : List EpcStatistics} {x : Read} (h : doStatistic id rule stats x = some stats') :
    (x.parse.eligible = false ∧ stats' = stats) ∨
    ∃ antenna, x.parse.eligible = true ∧ stoi x.parse.antenna = some antenna ∧
      ((findRecord rule stats antenna x = stats.length ∧
          stats' = stats ++ [newStat id antenna x]) ∨
        ∃ hp : findRecord rule stats antenna x < stats.length,
          sameTag rule antenna x.parse.epc.epc x.parse.tid
            stats[findRecord rule stats antenna x] = true ∧
          stats' = stats.modify (findRecord rule stats antenna x) (countRead x)) := by
  unfold doStatistic at h
  split at h
  · rename_i heligible
    obtain ⟨antenna, hantenna, hrest⟩ := Option.bind_eq_some_iff.mp h
    refine Or.inr ⟨antenna, heligible, hantenna, ?_⟩
    simp only at hrest
    split at hrest
    · rename_i hnone
      have hle := List.getElem?_eq_none_iff.mp hnone
      exact Or.inl ⟨Nat.le_antisymm List.findIdx_le_length hle, (Option.some.inj hrest).symm⟩
    · rename_i item hitem
      obtain ⟨hp, -⟩ := List.getElem?_eq_some_iff.mp hitem
      split at hrest
      · exact Or.inr ⟨hp, List.findIdx_getElem (w := hp), (Option.some.inj hrest).symm⟩
      · exact absurd hrest (by simp)
  · rename_i heligible
    exact Or.inl ⟨by simpa using heligible, (Option.some.inj h).symm⟩

/-- The text starts inside the array, so that it is empty in memory only if it is there. -/
theorem EpcStatistics.tidText_eq_nil_iff (item : EpcStatistics) :
    item.tidText = [] ↔ item.tidField = [] := by
  have hlen := item.tid.length_eq
  unfold tidText tidField
  cases hcells : item.tid.cells with
  | nil =>
      rw [hcells] at hlen
      exact absurd hlen (by decide)
  | cons ch rest => rw [List.cons_append, text_eq_nil_iff, text_eq_nil_iff]

section CountRead

variable (x : Read) (item : EpcStatistics)

theorem countRead_count : (countRead x item).count = item.count + 1 := by
  unfold countRead
  simp only
  split <;> rfl

/-- Counting a read changes at most the count and the TID. -/
theorem countRead_eq : countRead x item =
    { item with count := item.count + 1, tid := (countRead x item).tid } := by
  unfold countRead
  simp only
  split <;> rfl

/-- Only a missing TID is written. -/
theorem countRead_of_tidField (h : item.tidField ≠ []) :
    countRead x item = { item with count := item.count + 1 } := by
  have hne : ({ item with count := item.count + 1 } : EpcStatistics).tidText ≠ [] :=
    fun hnil => h ((EpcStatistics.tidText_eq_nil_iff { item with count := item.count + 1 }).mp hnil)
  unfold countRead
  simp only
  split
  · rename_i hfill
    simp only [Bool.and_eq_true, List.isEmpty_iff] at hfill
    exact absurd hfill.1 hne
  · rfl

theorem countRead_tid (h : item.tidField ≠ []) : (countRead x item).tid = item.tid := by
  rw [countRead_of_tidField x item h]

end CountRead

def sampleReaderId : ReaderId := ⟨"READER-01".toList, by decide⟩

/-- A sample read with letters behind its strings. -/
def sampleStatRead (epc tid : Str) : Read where
  parse := sampleUR epc tid
  behind := ⟨⟨List.replicate epcLen 'x', by simp⟩, ⟨List.replicate tidLen 'y', by simp⟩,
    ⟨List.replicate readerIdLen 'z', by simp⟩⟩

end RfidEngine
