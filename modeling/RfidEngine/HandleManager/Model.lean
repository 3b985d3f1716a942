import RfidEngine.Common
import RfidEngine.Lib.KeyedTable
import RfidEngine.Lib.StepSystem

/-!
# HandleManager: the table of open interfaces

A unit ties a handle to an interface and to the buffer of the last answer made
for it. The counter of handles is static in its function, so that it outlives
every unit and is shared by all managers.
-/

namespace RfidEngine

/-- A shared pointer is null or points to an interface; `π` are the addresses. -/
structure HandleUnit (π : Type*) where
  handleId : Int
  rfidPtr : Option π
  buffer : Str
  deriving DecidableEq

structure HandleManager (π : Type*) where
  flowCount : Int
  handles : List (HandleUnit π)
  deriving DecidableEq

namespace HandleUnit

variable {π : Type*}

def append (data : Str) (unit : HandleUnit π) : HandleUnit π :=
  { unit with buffer := unit.buffer ++ data }

def clear (unit : HandleUnit π) : HandleUnit π := { unit with buffer := [] }

end HandleUnit

namespace HandleManager

open KeyedTable

variable {π : Type*}

def empty : HandleManager π := ⟨0, []⟩

/-- The counter is undefined beyond the largest `int`. -/
def getNewHandleId (m : HandleManager π) : Option (Int × HandleManager π) :=
  if m.flowCount < intMax then some (m.flowCount, { m with flowCount := m.flowCount + 1 }) else none

/-- What the iterator of `find_handle` points to; the end points to nothing. -/
def findHandle (m : HandleManager π) (h : Int) : Option (HandleUnit π) :=
  lookup HandleUnit.handleId h m.handles

def isValidHandle (m : HandleManager π) (h : Int) : Bool := (m.findHandle h).isSome

def findRfidPtr [DecidableEq π] (m : HandleManager π) (rfidPtr : Option π) :
    Option (HandleUnit π) :=
  lookup HandleUnit.rfidPtr rfidPtr m.handles

def getRfidPtr (m : HandleManager π) (h : Int) : Option π :=
  match m.findHandle h with
  | some unit => unit.rfidPtr
  | none => none

/-- An unknown handle is only logged. -/
def appendData (m : HandleManager π) (h : Int) (data : Str) : HandleManager π :=
  { m with handles := change HandleUnit.handleId h (HandleUnit.append data) m.handles }

/-- The text and the length handed out; null and 0 for an unknown handle. -/
def getData (m : HandleManager π) (h : Int) : Option Str × Int :=
  match m.findHandle h with
  | some unit => (some unit.buffer, toInt unit.buffer.length)
  | none => (none, 0)

def addHandleUnit [DecidableEq π] (m : HandleManager π) (rfidPtr : Option π) :
    Option (Int × HandleManager π) :=
  match m.findRfidPtr rfidPtr with
  | some unit => some (unit.handleId, m)
  | none => do
      let (newHandleId, m) ← m.getNewHandleId
      some (newHandleId, { m with handles := m.handles ++ [⟨newHandleId, rfidPtr, []⟩] })

def removeHandleUnit (m : HandleManager π) (h : Int) : HandleManager π :=
  { m with handles := remove HandleUnit.handleId h m.handles }

def clearBuffer (m : HandleManager π) (h : Int) : HandleManager π :=
  { m with handles := change HandleUnit.handleId h HandleUnit.clear m.handles }

section Lookup

variable (m : HandleManager π) (h h' : Int) (data : Str)

theorem findHandle_eq_none_iff :
    m.findHandle h = none ↔ h ∉ m.handles.map HandleUnit.handleId := lookup_eq_none_iff

theorem getRfidPtr_eq : m.getRfidPtr h = (m.findHandle h).bind HandleUnit.rfidPtr := by
  unfold getRfidPtr
  cases m.findHandle h <;> rfl

/-- A handle with an interface is in the table. -/
theorem isValidHandle_of_getRfidPtr {m : HandleManager π} {h : Int} {p : π}
    (hp : m.getRfidPtr h = some p) : m.isValidHandle h = true := by
  rw [getRfidPtr_eq] at hp
  obtain ⟨unit, hunit, -⟩ := Option.bind_eq_some_iff.mp hp
  rw [isValidHandle, hunit, Option.isSome_some]

theorem findHandle_appendData : (m.appendData h data).findHandle h' =
    if h' = h then (m.findHandle h).map (HandleUnit.append data) else m.findHandle h' :=
  lookup_change (f := HandleUnit.append data) (fun _ => rfl) h'

theorem findHandle_clearBuffer : (m.clearBuffer h).findHandle h' =
    if h' = h then (m.findHandle h).map HandleUnit.clear else m.findHandle h' :=
  lookup_change (f := HandleUnit.clear) (fun _ => rfl) h'

theorem findHandle_of_not_valid {m : HandleManager π} {h : Int}
    (hinvalid : m.isValidHandle h = false) : m.findHandle h = none := by
  rw [isValidHandle] at hinvalid
  exact Option.isNone_iff_eq_none.mp (by simpa using hinvalid)

/-- Removing a handle that is not in the table is only logged. -/
theorem removeHandleUnit_of_not_valid {m : HandleManager π} {h : Int}
    (hinvalid : m.isValidHandle h = false) : m.removeHandleUnit h = m := by
  have hnot := (m.findHandle_eq_none_iff h).mp (findHandle_of_not_valid hinvalid)
  rw [removeHandleUnit, remove_of_not_mem hnot]

end Lookup

/-- Where no handle is issued twice, a removed one is gone and every other is found as before. -/
theorem findHandle_removeHandleUnit {m : HandleManager π}
    (hids : Unique HandleUnit.handleId m.handles) (h h' : Int) :
    (m.removeHandleUnit h).findHandle h' = if h' = h then none else m.findHandle h' :=
  lookup_remove hids h'

/-- An interface that is there keeps its handle; another takes the next handle of the counter. -/
theorem addHandleUnit_cases [DecidableEq π] {m m' : HandleManager π} {p : Option π} {h : Int}
    (hadd : m.addHandleUnit p = some (h, m')) :
    (∃ unit, m.findRfidPtr p = some unit ∧ unit.handleId = h ∧ m' = m) ∨
    (p ∉ m.handles.map HandleUnit.rfidPtr ∧ m.flowCount < intMax ∧ h = m.flowCount ∧
      m' = ⟨m.flowCount + 1, m.handles ++ [⟨m.flowCount, p, []⟩]⟩) := by
  unfold addHandleUnit at hadd
  split at hadd
  · rename_i unit hunit
    simp only [Option.some.injEq, Prod.mk.injEq] at hadd
    exact Or.inl ⟨unit, hunit, hadd.1, hadd.2.symm⟩
  · rename_i hnone
    obtain ⟨⟨new, m₁⟩, hnew, hrest⟩ := Option.bind_eq_some_iff.mp hadd
    unfold getNewHandleId at hnew
    split at hnew
    · rename_i hlt
      obtain ⟨rfl, rfl⟩ : m.flowCount = new ∧ { m with flowCount := m.flowCount + 1 } = m₁ := by
        simpa using hnew
      obtain ⟨rfl, rfl⟩ : m.flowCount = h ∧
          ⟨m.flowCount + 1, m.handles ++ [⟨m.flowCount, p, []⟩]⟩ = m' := by
        simpa using hrest
      exact Or.inr ⟨lookup_eq_none_iff.mp hnone, hlt, rfl, rfl⟩
    · exact absurd hnew (by simp)

/-- Adding is undefined only for a new interface when the counter has run out. -/
theorem addHandleUnit_eq_none_iff [DecidableEq π] {m : HandleManager π} {p : Option π} :
    m.addHandleUnit p = none ↔ p ∉ m.handles.map HandleUnit.rfidPtr ∧ intMax ≤ m.flowCount := by
  rw [← lookup_eq_none_iff]
  unfold addHandleUnit findRfidPtr getNewHandleId
  cases lookup HandleUnit.rfidPtr p m.handles with
  | some unit => simp
  | none =>
      by_cases hlt : m.flowCount < intMax
      · simp [hlt]
      · simp [hlt, Int.not_lt.mp hlt]

end HandleManager

end RfidEngine
