import RfidEngine.HandleManager.Model
import RfidEngine.Lib.Simulation

/-!
# Where the texts of the handles lie

`get_data` hands out the address of the string of a handle, and the caller reads
it after the call has returned. `clear_buffer` gives the handle another string
and the old one is freed with its last owner, the unit; an append moves the text
to a new place. Addresses are not used again here, so that a read through an old
one is seen.

## Main result

The manager over addresses is the manager of texts, and no string is left
behind. A text that was handed out can be read until the next text for the same
handle or the closing of the handle, and not after it.
-/

namespace RfidEngine

open KeyedTable StepSystem

/-- A unit with the address that `data()` of its string gives. -/
structure BufferUnit (π : Type*) where
  handleId : Int
  rfidPtr : Option π
  data : Nat
  deriving DecidableEq

def BufferUnit.moveTo {π : Type*} (a : Nat) (unit : BufferUnit π) : BufferUnit π :=
  { unit with data := a }

@[simp] theorem BufferUnit.moveTo_handleId {π : Type*} (a : Nat) (unit : BufferUnit π) :
    (unit.moveTo a).handleId = unit.handleId := rfl

@[simp] theorem BufferUnit.moveTo_rfidPtr {π : Type*} (a : Nat) (unit : BufferUnit π) :
    (unit.moveTo a).rfidPtr = unit.rfidPtr := rfl

@[simp] theorem BufferUnit.moveTo_data {π : Type*} (a : Nat) (unit : BufferUnit π) :
    (unit.moveTo a).data = a := rfl

structure BufferManager (π : Type*) where
  flowCount : Int
  handles : List (BufferUnit π)
  memory : Nat → Option Str
  fresh : Nat

namespace BufferManager

variable {π : Type*}

def empty : BufferManager π := ⟨0, [], fun _ => none, 0⟩

def findHandle (m : BufferManager π) (h : Int) : Option (BufferUnit π) :=
  lookup BufferUnit.handleId h m.handles

def isValidHandle (m : BufferManager π) (h : Int) : Bool := (m.findHandle h).isSome

/-- The handle gets another text at a new address, and the old one is freed. -/
def write (m : BufferManager π) (h : Int) (f : Str → Str) : BufferManager π :=
  match m.findHandle h with
  | none => m
  | some unit =>
      { m with
        handles := change BufferUnit.handleId h (BufferUnit.moveTo m.fresh) m.handles
        memory := Function.update (Function.update m.memory unit.data none) m.fresh
          (some (f ((m.memory unit.data).getD [])))
        fresh := m.fresh + 1 }

def clearBuffer (m : BufferManager π) (h : Int) : BufferManager π := m.write h fun _ => []

def appendData (m : BufferManager π) (h : Int) (data : Str) : BufferManager π :=
  m.write h fun buffer => buffer ++ data

/-- The address and the length; null and 0 for an unknown handle. -/
def getData (m : BufferManager π) (h : Int) : Option Nat × Int :=
  match m.findHandle h with
  | some unit => (some unit.data, toInt ((m.memory unit.data).getD []).length)
  | none => (none, 0)

/-- A new unit takes the next handle, and an empty string. -/
def added (m : BufferManager π) (rfidPtr : Option π) : BufferManager π where
  flowCount := m.flowCount + 1
  handles := m.handles ++ [⟨m.flowCount, rfidPtr, m.fresh⟩]
  memory := Function.update m.memory m.fresh (some [])
  fresh := m.fresh + 1

def addHandleUnit [DecidableEq π] (m : BufferManager π) (rfidPtr : Option π) :
    Option (Int × BufferManager π) :=
  match lookup BufferUnit.rfidPtr rfidPtr m.handles with
  | some unit => some (unit.handleId, m)
  | none =>
      if m.flowCount < intMax then some (m.flowCount, m.added rfidPtr) else none

def removeHandleUnit (m : BufferManager π) (h : Int) : BufferManager π :=
  match m.findHandle h with
  | none => m
  | some unit =>
      { m with
        handles := remove BufferUnit.handleId h m.handles
        memory := Function.update m.memory unit.data none }

/-- What the functions that hand out a text do with the manager. -/
def handOut (m : BufferManager π) (h : Int) (s : Str) : BufferManager π × (Option Nat × Int) :=
  let m := (m.clearBuffer h).appendData h s
  (m, m.getData h)

end BufferManager

/-- The calls of `c_if` that use a manager; `text` stands for all that hand out a text. -/
inductive BufferCall (π : Type*) where
  | rfOpen (p : π)
  | rfClose (h : Int)
  | text (h : Int) (s : Str)

variable {π : Type*} [DecidableEq π]

def BufferManager.step (m : BufferManager π) : BufferCall π → Option (BufferManager π)
  | .rfOpen p => (m.addHandleUnit (some p)).map Prod.snd
  | .rfClose h => some (m.removeHandleUnit h)
  | .text h s => some (if m.isValidHandle h then (m.handOut h s).1 else m)

/-- The same calls on the manager that holds the texts themselves. -/
def HandleManager.textStep (m : HandleManager π) : BufferCall π → Option (HandleManager π)
  | .rfOpen p => (m.addHandleUnit (some p)).map Prod.snd
  | .rfClose h => some (m.removeHandleUnit h)
  | .text h s => some (if m.isValidHandle h then (m.clearBuffer h).appendData h s else m)

namespace BufferManager

omit [DecidableEq π]

/-- Every string is the text of exactly one unit. -/
structure Owned (m : BufferManager π) : Prop where
  ids : Unique BufferUnit.handleId m.handles
  ids_below : ∀ unit ∈ m.handles, unit.handleId < m.flowCount
  places : Unique BufferUnit.data m.handles
  places_below : ∀ unit ∈ m.handles, unit.data < m.fresh
  live : ∀ a, (m.memory a).isSome = true ↔ a ∈ m.handles.map BufferUnit.data

theorem Owned.empty : Owned (BufferManager.empty : BufferManager π) where
  ids := List.nodup_nil
  ids_below := by simp [BufferManager.empty]
  places := List.nodup_nil
  places_below := by simp [BufferManager.empty]
  live := by simp [BufferManager.empty]

/-- The handle's unit, at the new address. -/
def moved (m : BufferManager π) (h : Int) (unit : BufferUnit π) : BufferUnit π :=
  if unit.handleId = h then unit.moveTo m.fresh else unit

variable {m m' : BufferManager π} {h h' : Int} {f : Str → Str} {unit other : BufferUnit π}

theorem moved_handleId (m : BufferManager π) (h : Int) (unit : BufferUnit π) :
    (m.moved h unit).handleId = unit.handleId := by
  unfold moved
  split <;> rfl

theorem write_of_none (hunit : m.findHandle h = none) : m.write h f = m := by
  rw [write, hunit]

theorem write_of_some (hm : Owned m) (hunit : m.findHandle h = some unit) :
    m.write h f =
      { m with
        handles := m.handles.map (m.moved h)
        memory := Function.update (Function.update m.memory unit.data none) m.fresh
          (some (f ((m.memory unit.data).getD [])))
        fresh := m.fresh + 1 } := by
  rw [write, hunit, change_eq_map hm.ids]
  rfl

/-- Only the handle of a write is found at another address. -/
theorem findHandle_write (hunit : m.findHandle h = some unit) : (m.write h f).findHandle h' =
    if h' = h then (m.findHandle h).map (BufferUnit.moveTo m.fresh) else m.findHandle h' := by
  have hchange : lookup BufferUnit.handleId h'
      (change BufferUnit.handleId h (BufferUnit.moveTo m.fresh) m.handles) =
      if h' = h then (m.findHandle h).map (BufferUnit.moveTo m.fresh) else m.findHandle h' :=
    lookup_change (BufferUnit.moveTo_handleId m.fresh) h'
  rw [← hchange, write, hunit]
  rfl

/-- The unit found is the only one at its address. -/
theorem Owned.eq_of_data (hm : Owned m) (hmem : unit ∈ m.handles) (hother : other ∈ m.handles)
    (hdata : unit.data = other.data) : unit = other :=
  List.inj_on_of_nodup_map hm.places hmem hother hdata

theorem Owned.eq_of_handleId (hm : Owned m) (hmem : unit ∈ m.handles) (hother : other ∈ m.handles)
    (hid : unit.handleId = other.handleId) : unit = other :=
  List.inj_on_of_nodup_map hm.ids hmem hother hid

theorem mem_of_findHandle (hunit : m.findHandle h = some unit) :
    unit ∈ m.handles ∧ unit.handleId = h := mem_of_lookup hunit

/-- The addresses of the units, with the one of the handle replaced by the new one. -/
theorem Owned.map_data_moved (hm : Owned m) (hunit : unit ∈ m.handles) :
    (m.handles.map (m.moved unit.handleId)).map BufferUnit.data =
      (m.handles.map BufferUnit.data).map fun a => if a = unit.data then m.fresh else a := by
  rw [List.map_map, List.map_map]
  refine List.map_congr_left fun u hu => ?_
  by_cases hid : u.handleId = unit.handleId
  · have hdata : u.data = unit.data := congrArg BufferUnit.data (hm.eq_of_handleId hu hunit hid)
    simp [moved, hid, hdata]
  · have hdata : ¬ u.data = unit.data := fun heq => hid (hm.eq_of_data hu hunit heq ▸ rfl)
    simp [moved, hid, hdata]

theorem mem_map_replace {places : List Nat} {old new a : Nat} (hold : old ∈ places) :
    (a ∈ places.map fun b => if b = old then new else b) ↔ a = new ∨ a ∈ places ∧ a ≠ old := by
  rw [List.mem_map]
  constructor
  · rintro ⟨b, hb, rfl⟩
    by_cases heq : b = old
    · exact Or.inl (if_pos heq)
    · rw [if_neg heq]
      exact Or.inr ⟨hb, heq⟩
  · rintro (rfl | ⟨ha, hne⟩)
    · exact ⟨old, hold, if_pos rfl⟩
    · exact ⟨a, ha, if_neg hne⟩

theorem Owned.write (hm : Owned m) : Owned (m.write h f) := by
  cases hfind : m.findHandle h with
  | none => exact (write_of_none hfind).symm ▸ hm
  | some unit =>
      obtain ⟨hunit, rfl⟩ := mem_of_findHandle hfind
      have hfresh : ∀ a ∈ m.handles.map BufferUnit.data, a < m.fresh := by
        intro a ha
        obtain ⟨u, hu, rfl⟩ := List.mem_map.mp ha
        exact hm.places_below u hu
      have hdata : unit.data ∈ m.handles.map BufferUnit.data := List.mem_map_of_mem hunit
      rw [write_of_some hm hfind]
      refine ⟨?_, ?_, ?_, ?_, ?_⟩
      · have hids : (m.handles.map (m.moved unit.handleId)).map BufferUnit.handleId =
            m.handles.map BufferUnit.handleId := by
          rw [List.map_map]
          exact List.map_congr_left fun u _ => moved_handleId m _ u
        exact (congrArg List.Nodup hids).mpr hm.ids
      · intro u' hu'
        obtain ⟨u, hu, rfl⟩ := List.mem_map.mp hu'
        rw [moved_handleId]
        exact hm.ids_below u hu
      · rw [KeyedTable.Unique, hm.map_data_moved hunit]
        refine List.Nodup.map_on (fun a ha b hb heq => ?_) hm.places
        have hlt := hfresh a ha
        have hlt' := hfresh b hb
        split at heq <;> split at heq <;> omega
      · intro u' hu'
        have hmem := List.mem_map_of_mem (f := BufferUnit.data) hu'
        rw [hm.map_data_moved hunit, mem_map_replace hdata] at hmem
        obtain heq | ⟨hmem, -⟩ := hmem
        · exact heq ▸ Nat.lt_succ_self _
        · exact Nat.lt_succ_of_lt (hfresh _ hmem)
      · intro a
        rw [hm.map_data_moved hunit, mem_map_replace hdata, ← hm.live]
        simp only [Function.update_apply]
        by_cases hnew : a = m.fresh
        · simp [hnew]
        · by_cases hold : a = unit.data
          · simp [hold]
          · simp [hnew, hold]

theorem Owned.added (hm : Owned m) (p : Option π) : Owned (m.added p) where
  ids := by
    refine hm.ids.append fun hmem => ?_
    obtain ⟨u, hu, heq⟩ := List.mem_map.mp hmem
    have hlt := hm.ids_below u hu
    dsimp only at heq
    omega
  ids_below := by
    intro u hu
    obtain hu | hu := List.mem_append.mp hu
    · have hlt := hm.ids_below u hu
      dsimp only [BufferManager.added]
      omega
    · obtain rfl := List.mem_singleton.mp hu
      exact Int.lt_succ _
  places := by
    refine hm.places.append fun hmem => ?_
    obtain ⟨u, hu, heq⟩ := List.mem_map.mp hmem
    exact absurd (hm.places_below u hu) (by dsimp only at heq; omega)
  places_below := by
    intro u hu
    obtain hu | hu := List.mem_append.mp hu
    · exact Nat.lt_succ_of_lt (hm.places_below u hu)
    · obtain rfl := List.mem_singleton.mp hu
      exact Nat.lt_succ_self _
  live := by
    intro a
    simp only [BufferManager.added, Function.update_apply, List.map_append, List.mem_append,
      ← hm.live]
    by_cases hnew : a = m.fresh
    · simp [hnew]
    · simp [hnew]

theorem removeHandleUnit_of_none (hunit : m.findHandle h = none) : m.removeHandleUnit h = m := by
  rw [removeHandleUnit, hunit]

theorem removeHandleUnit_of_some (hunit : m.findHandle h = some unit) :
    m.removeHandleUnit h =
      { m with
        handles := remove BufferUnit.handleId h m.handles
        memory := Function.update m.memory unit.data none } := by
  rw [removeHandleUnit, hunit]

theorem Owned.removeHandleUnit (hm : Owned m) : Owned (m.removeHandleUnit h) := by
  cases hfind : m.findHandle h with
  | none => exact (removeHandleUnit_of_none hfind).symm ▸ hm
  | some unit =>
      obtain ⟨hunit, rfl⟩ := mem_of_findHandle hfind
      rw [removeHandleUnit_of_some hfind]
      have hsub : (remove BufferUnit.handleId unit.handleId m.handles).Sublist m.handles :=
        remove_sublist
      refine ⟨hm.ids.remove, fun u hu => hm.ids_below u (hsub.subset hu), hm.places.remove,
        fun u hu => hm.places_below u (hsub.subset hu), fun a => ?_⟩
      simp only [Function.update_apply]
      rw [remove_eq_filter hm.ids]
      constructor
      · intro hlive
        by_cases hold : a = unit.data
        · exact absurd hlive (by simp [hold])
        · rw [if_neg hold] at hlive
          obtain ⟨u, hu, rfl⟩ := List.mem_map.mp ((hm.live a).mp hlive)
          have hid : u.handleId ≠ unit.handleId :=
            fun heq => hold (congrArg BufferUnit.data (hm.eq_of_handleId hu hunit heq))
          exact List.mem_map_of_mem (List.mem_filter.mpr ⟨hu, by simpa using hid⟩)
      · intro hmem
        obtain ⟨u, hu, rfl⟩ := List.mem_map.mp hmem
        obtain ⟨hu, hid⟩ := List.mem_filter.mp hu
        have hold : u.data ≠ unit.data := by
          intro heq
          simp [hm.eq_of_data hu hunit heq] at hid
        rw [if_neg hold]
        exact (hm.live _).mpr (List.mem_map_of_mem hu)

theorem handOut_fst (m : BufferManager π) (h : Int) (s : Str) :
    (m.handOut h s).1 = (m.clearBuffer h).appendData h s := rfl

theorem Owned.handOut (hm : Owned m) (s : Str) : Owned (m.handOut h s).1 := by
  have hclear : Owned (m.clearBuffer h) := hm.write
  rw [handOut_fst]
  exact hclear.write

/-- The unit with its text in it. -/
def unitText (memory : Nat → Option Str) (unit : BufferUnit π) : HandleUnit π :=
  ⟨unit.handleId, unit.rfidPtr, (memory unit.data).getD []⟩

/-- The manager of texts that the addresses stand for. -/
def texts (m : BufferManager π) : HandleManager π :=
  ⟨m.flowCount, m.handles.map (unitText m.memory)⟩

theorem findHandle_texts (m : BufferManager π) (h : Int) :
    m.texts.findHandle h = (m.findHandle h).map (unitText m.memory) :=
  lookup_map fun _ => rfl

theorem isValidHandle_texts (m : BufferManager π) (h : Int) :
    m.texts.isValidHandle h = m.isValidHandle h := by
  rw [HandleManager.isValidHandle, findHandle_texts, Option.isSome_map, isValidHandle]

theorem unique_texts (hm : Owned m) : Unique HandleUnit.handleId m.texts.handles := by
  rw [KeyedTable.Unique, texts, List.map_map]
  exact hm.ids

/-- Writing the string of a handle writes its text. -/
theorem texts_write (hm : Owned m) :
    (m.write h f).texts =
      { m.texts with
        handles := change HandleUnit.handleId h (fun u => { u with buffer := f u.buffer })
          m.texts.handles } := by
  rw [change_eq_map (unique_texts hm)]
  cases hfind : m.findHandle h with
  | none =>
      rw [write_of_none hfind]
      have hnot := lookup_eq_none_iff.mp hfind
      simp only [texts, List.map_map]
      congr 1
      refine List.map_congr_left fun u hu => ?_
      have hid : u.handleId ≠ h := fun heq => hnot (heq ▸ List.mem_map_of_mem hu)
      simp [unitText, hid]
  | some unit =>
      obtain ⟨hunit, rfl⟩ := mem_of_findHandle hfind
      rw [write_of_some hm hfind]
      simp only [texts, List.map_map]
      congr 1
      refine List.map_congr_left fun u hu => ?_
      by_cases hid : u.handleId = unit.handleId
      · obtain rfl := hm.eq_of_handleId hu hunit hid
        have hmoved : m.moved u.handleId u = u.moveTo m.fresh := if_pos rfl
        rw [Function.comp_apply, hmoved]
        simp [unitText]
      · have hold : u.data ≠ unit.data := fun heq => hid (hm.eq_of_data hu hunit heq ▸ rfl)
        have hnew : u.data ≠ m.fresh := (hm.places_below u hu).ne
        simp [unitText, moved, hid, hold, hnew]

theorem texts_added (hm : Owned m) (p : Option π) :
    (m.added p).texts =
      ⟨m.texts.flowCount + 1, m.texts.handles ++ [⟨m.texts.flowCount, p, []⟩]⟩ := by
  simp only [texts, added, List.map_append]
  congr 2
  · refine List.map_congr_left fun u hu => ?_
    have hnew : u.data ≠ m.fresh := (hm.places_below u hu).ne
    simp [unitText, hnew]
  · simp [unitText]

theorem texts_removeHandleUnit (hm : Owned m) :
    (m.removeHandleUnit h).texts = m.texts.removeHandleUnit h := by
  rw [HandleManager.removeHandleUnit, remove_eq_filter (unique_texts hm)]
  cases hfind : m.findHandle h with
  | none =>
      rw [removeHandleUnit_of_none hfind]
      have hnot := lookup_eq_none_iff.mp hfind
      have hall : ∀ x ∈ m.texts.handles, decide (x.handleId ≠ h) = true := by
        intro x hx
        obtain ⟨u, hu, rfl⟩ := List.mem_map.mp hx
        exact decide_eq_true fun heq : u.handleId = h => hnot (heq ▸ List.mem_map_of_mem hu)
      rw [List.filter_eq_self.mpr hall]
  | some unit =>
      obtain ⟨hunit, rfl⟩ := mem_of_findHandle hfind
      rw [removeHandleUnit_of_some hfind, remove_eq_filter hm.ids]
      simp only [texts, List.filter_map]
      congr 1
      refine List.map_congr_left fun u hu => ?_
      obtain ⟨hu, hid⟩ := List.mem_filter.mp hu
      have hold : u.data ≠ unit.data := by
        intro heq
        simp [hm.eq_of_data hu hunit heq] at hid
      simp [unitText, hold]

theorem findRfidPtr_texts [DecidableEq π] (m : BufferManager π) (p : Option π) :
    m.texts.findRfidPtr p = (lookup BufferUnit.rfidPtr p m.handles).map (unitText m.memory) :=
  lookup_map fun _ => rfl

theorem addHandleUnit_texts [DecidableEq π] (hm : Owned m) (p : Option π) :
    m.texts.addHandleUnit p = (m.addHandleUnit p).map fun r => (r.1, r.2.texts) := by
  rw [HandleManager.addHandleUnit, findRfidPtr_texts, addHandleUnit]
  cases lookup BufferUnit.rfidPtr p m.handles with
  | some unit => rfl
  | none =>
      have hcount : m.texts.flowCount = m.flowCount := rfl
      by_cases hlt : m.flowCount < intMax
      · simp [HandleManager.getNewHandleId, hcount, hlt, texts_added hm]
      · simp [HandleManager.getNewHandleId, hcount, hlt]

end BufferManager

namespace BufferManager

variable {m m' : BufferManager π} {c : BufferCall π}

/-- Opening an interface that has a handle changes nothing. -/
theorem eq_of_rfOpen {p : π} (h : m.step (.rfOpen p) = some m') : m' = m ∨ m' = m.added p := by
  obtain ⟨⟨new, m₁⟩, hadd, rfl⟩ := Option.map_eq_some_iff.mp h
  unfold addHandleUnit at hadd
  split at hadd
  · exact Or.inl (Prod.mk.inj (Option.some.inj hadd)).2.symm
  · split at hadd
    · exact Or.inr (Prod.mk.inj (Option.some.inj hadd)).2.symm
    · exact absurd hadd (by simp)

theorem Owned.step (hm : Owned m) (h : m.step c = some m') : Owned m' := by
  cases c with
  | rfOpen p =>
      obtain rfl | rfl := eq_of_rfOpen h
      · exact hm
      · exact hm.added _
  | rfClose h₀ =>
      obtain rfl := Option.some.inj h
      exact hm.removeHandleUnit
  | text h₀ s =>
      obtain rfl := Option.some.inj h
      split
      · exact hm.handOut s
      · exact hm

/-- A call on the addresses is the call on the texts. -/
theorem textStep_texts (hm : Owned m) (c : BufferCall π) :
    m.texts.textStep c = (m.step c).map texts := by
  cases c with
  | rfOpen p =>
      rw [HandleManager.textStep, addHandleUnit_texts hm, BufferManager.step, Option.map_map,
        Option.map_map]
      rfl
  | rfClose h => exact congrArg some (texts_removeHandleUnit hm).symm
  | text h s =>
      rw [HandleManager.textStep, BufferManager.step, isValidHandle_texts]
      split
      · have hclear : Owned (m.clearBuffer h) := hm.write
        have htexts : (m.clearBuffer h).texts = m.texts.clearBuffer h := texts_write hm
        have hboth : ((m.clearBuffer h).appendData h s).texts =
            (m.texts.clearBuffer h).appendData h s := by
          rw [← htexts]
          exact texts_write hclear
        rw [← hboth]
        rfl
      · rfl

theorem owned_of_run {calls : List (BufferCall π)}
    (hrun : exec BufferManager.step empty calls = some m) : Owned m :=
  exec_invariant (fun _ _ _ hm hstep => hm.step hstep) Owned.empty hrun

end BufferManager

/-- The call gives the handle another text, or closes it. -/
def BufferCall.endsText (h : Int) : BufferCall π → Bool
  | .rfOpen _ => false
  | .rfClose h' => h' == h
  | .text h' _ => h' == h

namespace BufferManager

section Strings

omit [DecidableEq π]

variable {m : BufferManager π} {h : Int} {a : Nat} {s : Str}

/-- The text of the handle is at the address. -/
structure Holds (h : Int) (a : Nat) (s : Str) (m : BufferManager π) : Prop where
  owned : Owned m
  found : ∃ unit, m.findHandle h = some unit ∧ unit.data = a
  text : m.memory a = some s

/-- The string that was at the address is gone. -/
structure Freed (a : Nat) (m : BufferManager π) : Prop where
  owned : Owned m
  below : a < m.fresh
  gone : m.memory a = none

theorem write_fresh_le (m : BufferManager π) (h : Int) (f : Str → Str) :
    m.fresh ≤ (m.write h f).fresh := by
  unfold write
  split
  · exact Nat.le_refl _
  · exact Nat.le_succ _

theorem Freed.write (hfreed : Freed a m) (h : Int) (f : Str → Str) : Freed a (m.write h f) where
  owned := hfreed.owned.write
  below := hfreed.below.trans_le (write_fresh_le m h f)
  gone := by
    cases hfind : m.findHandle h with
    | none => exact (write_of_none hfind).symm ▸ hfreed.gone
    | some unit =>
        rw [write_of_some hfreed.owned hfind]
        simp [Function.update_apply, hfreed.below.ne, hfreed.gone]

/-- The handle's text after a write is at the new address. -/
theorem holds_write (hm : Owned m) (hvalid : m.isValidHandle h = true) (f : Str → Str) :
    ∃ unit, m.findHandle h = some unit ∧
      Holds h m.fresh (f ((m.memory unit.data).getD [])) (m.write h f) := by
  obtain ⟨unit, hunit⟩ := Option.isSome_iff_exists.mp hvalid
  refine ⟨unit, hunit, hm.write, ⟨unit.moveTo m.fresh, ?_, rfl⟩, ?_⟩
  · rw [findHandle_write hunit, if_pos rfl, hunit, Option.map_some]
  · rw [write, hunit]
    exact Function.update_self _ _ _

/-- A write for another handle leaves the text where it is. -/
theorem Holds.write_of_ne {h' : Int} (hholds : Holds h a s m) (hne : h' ≠ h) (f : Str → Str) :
    Holds h a s (m.write h' f) := by
  cases hfind : m.findHandle h' with
  | none => exact (write_of_none hfind).symm ▸ hholds
  | some other =>
      obtain ⟨unit, hunit, rfl⟩ := hholds.found
      obtain ⟨hmem, hid⟩ := mem_of_findHandle hunit
      obtain ⟨hmem', hid'⟩ := mem_of_findHandle hfind
      have hother : unit.data ≠ other.data := by
        intro heq
        have hsame := hholds.owned.eq_of_data hmem hmem' heq
        exact hne (by rw [← hid, ← hid', hsame])
      have hnew : unit.data ≠ m.fresh := (hholds.owned.places_below unit hmem).ne
      refine ⟨hholds.owned.write, ⟨unit, ?_, rfl⟩, ?_⟩
      · rw [findHandle_write hfind, if_neg hne.symm, hunit]
      · rw [BufferManager.write, hfind]
        simp [hother, hnew, hholds.text]

/-- A write for the handle frees the string. -/
theorem Holds.freed_write (hholds : Holds h a s m) (f : Str → Str) : Freed a (m.write h f) := by
  obtain ⟨unit, hunit, rfl⟩ := hholds.found
  have hbelow := hholds.owned.places_below unit (mem_of_findHandle hunit).1
  refine ⟨hholds.owned.write, hbelow.trans_le (write_fresh_le m h f), ?_⟩
  rw [BufferManager.write, hunit]
  simp [hbelow.ne]

/-- Closing another handle leaves the text where it is. -/
theorem Holds.close_of_ne {h' : Int} (hholds : Holds h a s m) (hne : h' ≠ h) :
    Holds h a s (m.removeHandleUnit h') := by
  cases hfind : m.findHandle h' with
  | none => exact (removeHandleUnit_of_none hfind).symm ▸ hholds
  | some other =>
      obtain ⟨unit, hunit, rfl⟩ := hholds.found
      obtain ⟨hmem, hid⟩ := mem_of_findHandle hunit
      obtain ⟨hmem', hid'⟩ := mem_of_findHandle hfind
      have hother : unit.data ≠ other.data := by
        intro heq
        have hsame := hholds.owned.eq_of_data hmem hmem' heq
        exact hne (by rw [← hid, ← hid', hsame])
      refine ⟨hholds.owned.removeHandleUnit, ⟨unit, ?_, rfl⟩, ?_⟩
      · rw [removeHandleUnit_of_some hfind]
        exact (lookup_remove_of_ne hne.symm).trans hunit
      · rw [removeHandleUnit_of_some hfind]
        simp [hother, hholds.text]

/-- Closing the handle frees the string. -/
theorem Holds.freed_close (hholds : Holds h a s m) : Freed a (m.removeHandleUnit h) := by
  obtain ⟨unit, hunit, rfl⟩ := hholds.found
  refine ⟨hholds.owned.removeHandleUnit, ?_, ?_⟩
  · rw [removeHandleUnit_of_some hunit]
    exact hholds.owned.places_below unit (mem_of_findHandle hunit).1
  · rw [removeHandleUnit_of_some hunit]
    exact Function.update_self _ _ _

theorem Holds.added (hholds : Holds h a s m) (p : Option π) : Holds h a s (m.added p) := by
  obtain ⟨unit, hunit, rfl⟩ := hholds.found
  have hnew : unit.data ≠ m.fresh :=
    (hholds.owned.places_below unit (mem_of_findHandle hunit).1).ne
  refine ⟨hholds.owned.added p, ⟨unit, ?_, rfl⟩, ?_⟩
  · have hlookup : (m.added p).findHandle h = (m.findHandle h).or _ := lookup_append
    rw [hlookup, hunit, Option.some_or]
  · simp [BufferManager.added, hnew, hholds.text]

theorem Holds.isValidHandle (hholds : Holds h a s m) : m.isValidHandle h = true := by
  obtain ⟨unit, hunit, -⟩ := hholds.found
  exact Option.isSome_iff_exists.mpr ⟨unit, hunit⟩

theorem Holds.getData (hholds : Holds h a s m) : m.getData h = (some a, toInt s.length) := by
  obtain ⟨unit, hunit, rfl⟩ := hholds.found
  rw [BufferManager.getData, hunit]
  simp [hholds.text]

/-- A text that is handed out is at the address handed out, and has the length handed out. -/
theorem handOut_spec (hm : Owned m) (hvalid : m.isValidHandle h = true) (s : Str) :
    ∃ a, (m.handOut h s).2 = (some a, toInt s.length) ∧ Holds h a s (m.handOut h s).1 := by
  obtain ⟨-, -, hclear⟩ := holds_write hm hvalid fun _ => []
  obtain ⟨unit, hunit, happend⟩ :=
    holds_write hclear.owned hclear.isValidHandle fun buffer => buffer ++ s
  obtain ⟨unit', hunit', hdata⟩ := hclear.found
  obtain rfl := Option.some.inj (hunit.symm.trans hunit')
  rw [hdata, hclear.text] at happend
  exact ⟨_, happend.getData, happend⟩

end Strings

section Runs

variable {m m' : BufferManager π} {c : BufferCall π} {h : Int} {a : Nat} {s : Str}

theorem Freed.step (hfreed : Freed a m) (hstep : m.step c = some m') : Freed a m' := by
  cases c with
  | rfOpen p =>
      obtain rfl | rfl := eq_of_rfOpen hstep
      · exact hfreed
      · refine ⟨hfreed.owned.added _, Nat.lt_succ_of_lt hfreed.below, ?_⟩
        simp [added, hfreed.below.ne, hfreed.gone]
  | rfClose h =>
      obtain rfl := Option.some.inj hstep
      cases hfind : m.findHandle h with
      | none => exact (removeHandleUnit_of_none hfind).symm ▸ hfreed
      | some unit =>
          refine ⟨hfreed.owned.removeHandleUnit, ?_, ?_⟩
          · rw [removeHandleUnit_of_some hfind]
            exact hfreed.below
          · rw [removeHandleUnit_of_some hfind]
            simp [Function.update_apply, hfreed.gone]
  | text h s =>
      obtain rfl := Option.some.inj hstep
      split
      · rw [handOut_fst]
        exact (hfreed.write h _).write h _
      · exact hfreed

/-- The text stays where it is until another text for the handle or its closing frees it. -/
theorem Holds.step (hholds : Holds h a s m) (hstep : m.step c = some m') :
    if c.endsText h then Freed a m' else Holds h a s m' := by
  cases c with
  | rfOpen p =>
      obtain rfl | rfl := eq_of_rfOpen hstep
      · exact hholds
      · exact hholds.added _
  | rfClose h' =>
      obtain rfl := Option.some.inj hstep
      by_cases hh : h' = h
      · obtain rfl := hh
        rw [BufferCall.endsText, if_pos (beq_self_eq_true h')]
        exact hholds.freed_close
      · rw [BufferCall.endsText, if_neg (by simpa using hh)]
        exact hholds.close_of_ne hh
  | text h' s' =>
      obtain rfl := Option.some.inj hstep
      by_cases hh : h' = h
      · obtain rfl := hh
        rw [BufferCall.endsText, if_pos (beq_self_eq_true h'), if_pos hholds.isValidHandle,
          handOut_fst]
        exact (hholds.freed_write _).write h' _
      · rw [BufferCall.endsText, if_neg (by simpa using hh)]
        split
        · rw [handOut_fst]
          exact (hholds.write_of_ne hh _).write_of_ne hh _
        · exact hholds

theorem Freed.run {calls : List (BufferCall π)} (hfreed : Freed a m)
    (hrun : exec BufferManager.step m calls = some m') : Freed a m' :=
  exec_invariant (fun _ _ _ hfreed hstep => hfreed.step hstep) hfreed hrun

theorem Holds.run {calls : List (BufferCall π)} (hholds : Holds h a s m)
    (hrun : exec BufferManager.step m calls = some m') :
    if calls.any (BufferCall.endsText h) then Freed a m' else Holds h a s m' := by
  induction calls generalizing m with
  | nil =>
      obtain rfl := Option.some.inj hrun
      exact hholds
  | cons c calls ih =>
      obtain ⟨m₁, hstep, hrest⟩ := (exec_cons_eq_some _).mp hrun
      have hfirst := hholds.step hstep
      rw [List.any_cons]
      cases hends : c.endsText h with
      | true =>
          rw [if_pos hends] at hfirst
          exact hfirst.run hrest
      | false =>
          rw [if_neg (by simp [hends])] at hfirst
          exact ih hfirst hrest

/-- The manager over addresses and the one of texts take the same calls, and the strings there are
are those of the units, one for each. -/
theorem buffers_are_texts (calls : List (BufferCall π)) :
    exec HandleManager.textStep HandleManager.empty calls =
      (exec BufferManager.step empty calls).map texts ∧
    ∀ m, exec BufferManager.step empty calls = some m →
      (m.handles.map BufferUnit.data).Nodup ∧
        ∀ a, (m.memory a).isSome = true ↔ ∃ unit ∈ m.handles, unit.data = a := by
  constructor
  · exact exec_map_of_invariant (fun _ _ _ hm hstep => hm.step hstep)
      (fun _ c hm => textStep_texts hm c) Owned.empty calls
  · intro m hrun
    have hm := owned_of_run hrun
    exact ⟨hm.places, fun a => (hm.live a).trans List.mem_map⟩

/-- Two open interfaces. -/
def twoHandles : BufferManager Bool := (empty.added (some true)).added (some false)

theorem buffers_are_texts_twoHandles :
    exec HandleManager.textStep HandleManager.empty [.rfOpen true, .rfOpen false] =
      some twoHandles.texts ∧
    ∀ a, (twoHandles.memory a).isSome = true ↔ ∃ unit ∈ twoHandles.handles, unit.data = a := by
  have hrun : exec BufferManager.step empty [.rfOpen true, .rfOpen false] = some twoHandles := rfl
  have hboth := buffers_are_texts [BufferCall.rfOpen true, .rfOpen false]
  exact ⟨hboth.1.trans (congrArg (Option.map texts) hrun), (hboth.2 twoHandles hrun).2⟩

/-- A text that was handed out is read as it was until the next text for the handle or its
closing, and is gone from then on. -/
theorem text_read_until_next {pre post : List (BufferCall π)}
    (hpre : exec BufferManager.step empty pre = some m) (hvalid : m.isValidHandle h = true)
    (hpost : exec BufferManager.step m (.text h s :: post) = some m') :
    ∃ a, (m.handOut h s).2 = (some a, toInt s.length) ∧
      m'.memory a = if post.any (BufferCall.endsText h) then none else some s := by
  obtain ⟨m₁, hstep, hrest⟩ := (exec_cons_eq_some _).mp hpost
  obtain ⟨a, hout, hholds⟩ := handOut_spec (owned_of_run hpre) hvalid s
  have hm₁ : (m.handOut h s).1 = m₁ := by
    simpa [BufferManager.step, hvalid] using hstep
  rw [hm₁] at hholds
  refine ⟨a, hout, ?_⟩
  have hend := hholds.run hrest
  split
  · rename_i hends
    rw [if_pos hends] at hend
    exact hend.gone
  · rename_i hends
    rw [if_neg hends] at hend
    exact hend.text

/-- A text is gone after the next one for its handle, but not after one for the other. -/
theorem text_read_until_next_twoHandles :
    (∃ m', exec BufferManager.step twoHandles [.text 0 ['a'], .text 1 ['b']] = some m' ∧
      ∃ a, (twoHandles.handOut 0 ['a']).2 = (some a, 1) ∧ m'.memory a = some ['a']) ∧
    ∃ m', exec BufferManager.step twoHandles [.text 0 ['a'], .text 0 ['b']] = some m' ∧
      ∃ a, (twoHandles.handOut 0 ['a']).2 = (some a, 1) ∧ m'.memory a = none := by
  have hpre : exec BufferManager.step empty [.rfOpen true, .rfOpen false] = some twoHandles := rfl
  have hother : ∃ m', exec BufferManager.step twoHandles [.text 0 ['a'], .text 1 ['b']] = some m' :=
    ⟨_, rfl⟩
  have hsame : ∃ m', exec BufferManager.step twoHandles [.text 0 ['a'], .text 0 ['b']] = some m' :=
    ⟨_, rfl⟩
  obtain ⟨m₁, hother⟩ := hother
  obtain ⟨m₂, hsame⟩ := hsame
  exact ⟨⟨m₁, hother, text_read_until_next hpre rfl hother⟩,
    ⟨m₂, hsame, text_read_until_next hpre rfl hsame⟩⟩

end Runs

end BufferManager

end RfidEngine
