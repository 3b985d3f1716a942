import RfidEngine.Api.Model

/-!
# Calls on a handle that is not in the table

A function that checks its handle and stops returns at once. Setting and
getting the loop antennas check it too, but go on to the interface that is not
there.
-/

namespace RfidEngine

open Api

/-- A call of a function that takes a handle, with its other arguments. -/
inductive ApiFunction where
  | inventoryEPC (slot : Int) (loop : Bool)
  | singleCommand (userCmd : Str)
  | readMultiBank (slot : Int) (loop : Bool) (bankType start wordLen : Int)
  | getTime
  | setTime (time : Tm)
  | setSystemTime
  | writeEPC (tid newEpc : Str) (doubleCheck : Bool)
  | reboot
  | statistics (slot : Int) (loop : Bool) (bankType start wordLen : Int) (moreRounds : Nat)
      (rule : StatisticsRule) (statCount : Nat)
  | setLoopTime (looptimeMs : Nat)
  | getLoopTime
  | setLoopAntenna (antennas : Nat)
  | getLoopAntenna
  | setPower (nPower : Int)
  | getPower
  | close
  deriving DecidableEq

namespace ApiFunction

variable {π : Type} (host : Host π) (h : Int)

/-- The call made on a handle, with the code it returns, if its function returns one. -/
def call : ApiFunction → Api π (Option Int)
  | inventoryEPC slot loop => do return some (← rfInventoryEPC host h slot loop).1
  | singleCommand userCmd => do
      let _ ← rfSingleCommand host h userCmd
      return none
  | readMultiBank slot loop bankType start wordLen => do
      return some (← rfReadMultiBank host h slot loop bankType start wordLen).1
  | getTime => do return some (← rfGetTime host h).1
  | setTime time => do return some (← rfSetTime host h time)
  | setSystemTime => do return some (← rfSetSystemTime host h)
  | writeEPC tid newEpc doubleCheck => do return some (← rfWriteEPC host h tid newEpc doubleCheck)
  | reboot => do return some (← rfReboot host h)
  | statistics slot loop bankType start wordLen moreRounds rule statCount => do
      return some (← rfStatistics host h slot loop bankType start wordLen moreRounds rule
        (some statCount)).ret
  | setLoopTime looptimeMs => do return some (← rfSetLoopTime host h looptimeMs)
  | getLoopTime => do return some (← rfGetLoopTime host h).1
  | setLoopAntenna antennas => do return some (← rfSetLoopAntenna host h antennas)
  | getLoopAntenna => do return some (← rfGetLoopAntenna host h).1
  | setPower nPower => do return some (← rfSetPower host h nPower)
  | getPower => do return some (← rfGetPower host h).1
  | close => do
      rfClose h
      return none

/-- What a refused call returns: `RFSingleCommand` and `RFClose` return nothing. -/
def refusal : ApiFunction → Option Int
  | singleCommand _ | close => none
  | _ => some rfidErrInvalidHandle

/-- The call returns the refusal, dereferences no interface pointer, and leaves the table, the
buffers in it and what was sent to the readers as they were. -/
def Refused (f : ApiFunction) (w : World π) : Prop := f.call host h w = some (f.refusal, w)

variable {host h} {w : World π}

/-- A function that stops at an unknown handle returns at once. -/
theorem stops_of_not_valid {α : Type} (hinvalid : w.hm.isValidHandle h = false) (body : Api π α)
    (refused : α) :
    (do if ← isValidHandle h then body else return refused : Api π α) w = some (refused, w) := by
  simp [bind, StateT.bind, isValidHandle, hinvalid]
  rfl

theorem passOn_of_not_valid {α : Type} (hinvalid : w.hm.isValidHandle h = false)
    (c : InterfaceCall) (refused : α) (passed : c.Result → α) :
    passOn host h c refused passed w = some (refused, w) := stops_of_not_valid hinvalid _ _

/-- There is no interface to call for an unknown handle. -/
theorem callInterface_of_not_valid (hinvalid : w.hm.isValidHandle h = false)
    (c : InterfaceCall) : callInterface host h c w = none := by
  have hnone := HandleManager.findHandle_of_not_valid hinvalid
  simp [callInterface, HandleManager.getRfidPtr, hnone]

theorem return_of_eq {α β : Type} {x : Api π α} {a : α} (hx : x w = some (a, w)) (k : α → β) :
    (do return k (← x) : Api π β) w = some (k a, w) := bind_of_eq hx _

/-- The functions that stop refuse an unknown handle. -/
theorem refused_of_stops (f : ApiFunction) (hinvalid : w.hm.isValidHandle h = false)
    (hset : ∀ antennas, f ≠ .setLoopAntenna antennas) (hget : f ≠ .getLoopAntenna) :
    Refused host h f w := by
  cases f with
  | inventoryEPC slot loop =>
      have hstop : rfInventoryEPC host h slot loop w = some ((rfidErrInvalidHandle, none), w) :=
        stops_of_not_valid hinvalid _ _
      exact return_of_eq hstop fun r => some r.1
  | singleCommand userCmd =>
      have hstop : rfSingleCommand host h userCmd w = some (none, w) :=
        stops_of_not_valid hinvalid _ _
      exact return_of_eq hstop fun _ => none
  | readMultiBank slot loop bankType start wordLen =>
      have hstop : rfReadMultiBank host h slot loop bankType start wordLen w =
          some ((rfidErrInvalidHandle, none), w) := stops_of_not_valid hinvalid _ _
      exact return_of_eq hstop fun r => some r.1
  | writeEPC tid newEpc doubleCheck =>
      have hstop : rfWriteEPC host h tid newEpc doubleCheck w = some (rfidErrInvalidHandle, w) :=
        stops_of_not_valid hinvalid _ _
      exact return_of_eq hstop some
  | statistics slot loop bankType start wordLen moreRounds rule statCount =>
      have hstop : rfStatistics host h slot loop bankType start wordLen moreRounds rule
          (some statCount) w = some (⟨rfidErrInvalidHandle, statCount, []⟩, w) :=
        stops_of_not_valid hinvalid _ _
      exact return_of_eq hstop fun r => some r.ret
  | getTime => exact return_of_eq (passOn_of_not_valid hinvalid _ (_, none) _) fun r => some r.1
  | setTime time => exact return_of_eq (passOn_of_not_valid hinvalid _ _ _) some
  | setSystemTime => exact return_of_eq (passOn_of_not_valid hinvalid _ _ _) some
  | reboot => exact return_of_eq (passOn_of_not_valid hinvalid _ _ _) some
  | setLoopTime looptimeMs => exact return_of_eq (passOn_of_not_valid hinvalid _ _ _) some
  | getLoopTime => exact return_of_eq (passOn_of_not_valid hinvalid _ (_, none) _) fun r => some r.1
  | setLoopAntenna antennas => exact absurd rfl (hset antennas)
  | getLoopAntenna => exact absurd rfl hget
  | setPower nPower => exact return_of_eq (passOn_of_not_valid hinvalid _ _ _) some
  | getPower => exact return_of_eq (passOn_of_not_valid hinvalid _ (_, none) _) fun r => some r.1
  | close =>
      have hclose : rfClose h w = some ((), w) := by
        have hsame := HandleManager.removeHandleUnit_of_not_valid hinvalid
        change some ((), { w with hm := w.hm.removeHandleUnit h }) = some ((), w)
        rw [hsame]
      exact return_of_eq hclose fun _ => none

/-- Where a function goes on to the interface, there is no result. -/
theorem not_refused_of_none {f : ApiFunction} (hcall : f.call host h w = none) :
    ¬ Refused host h f w := by
  intro hrefused
  rw [Refused, hcall] at hrefused
  exact absurd hrefused (by simp)

/-- An unknown handle is refused by a function exactly when it is not one of the two for the loop
antennas. -/
theorem invalid_handle_refused_iff (host : Host π) (h : Int) (f : ApiFunction) (w : World π)
    (hinvalid : w.hm.isValidHandle h = false) :
    Refused host h f w ↔ (∀ antennas, f ≠ .setLoopAntenna antennas) ∧ f ≠ .getLoopAntenna := by
  constructor
  · intro hrefused
    refine ⟨?_, ?_⟩
    · rintro antennas rfl
      apply not_refused_of_none _ hrefused
      have hnone : rfSetLoopAntenna host h antennas w = none :=
        (bind_of_eq (isValidHandle_eq h w) _).trans
          (callInterface_of_not_valid hinvalid _)
      exact bind_of_none hnone _
    · rintro rfl
      apply not_refused_of_none _ hrefused
      have hnone : rfGetLoopAntenna host h w = none :=
        (bind_of_eq (isValidHandle_eq h w) _).trans
          (callInterface_of_not_valid hinvalid _)
      exact bind_of_none hnone _
  · intro hstops
    exact refused_of_stops f hinvalid hstops.1 hstops.2

/-- Setting the power of a closed handle is refused, beside a handle that is open. -/
theorem invalid_handle_refused_setPower : Refused silentHost 0 (.setPower 18) sampleWorld :=
  (invalid_handle_refused_iff silentHost 0 (.setPower 18) sampleWorld (by decide)).mpr
    ⟨by simp, by simp⟩

/-- Setting the loop antennas of a closed handle, or of one never issued, and getting them,
dereferences a null pointer. -/
theorem loop_antenna_dereferences_null :
    (∀ h ∈ [0, 7], sampleWorld.hm.isValidHandle h = false ∧
      (setLoopAntenna 1).call silentHost h sampleWorld = none ∧
      getLoopAntenna.call silentHost h sampleWorld = none) ∧
    ¬ Refused silentHost 0 (.setLoopAntenna 1) sampleWorld ∧
    ¬ Refused silentHost 0 .getLoopAntenna sampleWorld := by
  refine ⟨?_, not_refused_of_none rfl, not_refused_of_none rfl⟩
  simp only [List.forall_mem_cons]
  exact ⟨⟨rfl, rfl, rfl⟩, ⟨rfl, rfl, rfl⟩, by simp⟩

end ApiFunction

end RfidEngine
