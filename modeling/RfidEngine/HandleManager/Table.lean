import RfidEngine.HandleManager.Model

/-!
# The handle table over its calls

The units are found by two keys, the handle and the interface, and each search
ends at the first unit it meets. No two units ever share a key, so that both
searches end at the unit meant.
-/

namespace RfidEngine

open KeyedTable StepSystem

/-- A call and what it returned. The counter also gives handles to other managers. -/
inductive TableEvent (π : Type*) where
  | added (rfidPtr : Option π) (h : Int)
  | removed (h : Int)
  | issuedElsewhere (h : Int)
  deriving DecidableEq

namespace HandleManager

variable {π : Type*}

section TableStep

variable [DecidableEq π]

/-- The table after a call that returned what the event says. -/
def tableStep (m : HandleManager π) : TableEvent π → Option (HandleManager π)
  | .added p h => do
      let (h', m') ← m.addHandleUnit p
      if h' = h then some m' else none
  | .removed h => some (m.removeHandleUnit h)
  | .issuedElsewhere h => do
      let (h', m') ← m.getNewHandleId
      if h' = h then some m' else none

theorem tableStep_added {m m' : HandleManager π} {p : Option π} {h : Int}
    (hstep : m.tableStep (.added p h) = some m') : m.addHandleUnit p = some (h, m') := by
  obtain ⟨⟨h', m₁⟩, hadd, hrest⟩ := Option.bind_eq_some_iff.mp hstep
  obtain ⟨rfl, rfl⟩ : h' = h ∧ m₁ = m' := by simpa using hrest
  exact hadd

theorem tableStep_issuedElsewhere {m m' : HandleManager π} {h : Int}
    (hstep : m.tableStep (.issuedElsewhere h) = some m') :
    h = m.flowCount ∧ m' = { m with flowCount := m.flowCount + 1 } := by
  obtain ⟨⟨h', m₁⟩, hnew, hrest⟩ := Option.bind_eq_some_iff.mp hstep
  obtain ⟨rfl, rfl⟩ : h' = h ∧ m₁ = m' := by simpa using hrest
  unfold getNewHandleId at hnew
  split at hnew
  · obtain ⟨rfl, rfl⟩ : m.flowCount = h' ∧ { m with flowCount := m.flowCount + 1 } = m₁ := by
      simpa using hnew
    exact ⟨rfl, rfl⟩
  · exact absurd hnew (by simp)

end TableStep

/-- A call before returned the handle as a new one or for an interface that has it. -/
def Issued (events : List (TableEvent π)) (h : Int) : Prop :=
  (∃ p, .added p h ∈ events) ∨ .issuedElsewhere h ∈ events

theorem Issued.append {events : List (TableEvent π)} {h : Int} (hissued : Issued events h)
    (more : List (TableEvent π)) : Issued (events ++ more) h := by
  obtain ⟨p, hp⟩ | helse := hissued
  · exact Or.inl ⟨p, List.mem_append_left _ hp⟩
  · exact Or.inr (List.mem_append_left _ helse)

/-- What the calls so far say of a table: no key is there twice, every handle handed out is behind
the counter, and a handle is found with its interface exactly until it is removed. -/
structure TableInvariant (events : List (TableEvent π)) (m : HandleManager π) : Prop where
  ids : Unique HandleUnit.handleId m.handles
  pointers : Unique HandleUnit.rfidPtr m.handles
  units_below : ∀ unit ∈ m.handles, unit.handleId < m.flowCount
  events_below : ∀ p h, .added p h ∈ events → h < m.flowCount
  issued : ∀ h, 0 ≤ h → h < m.flowCount → Issued events h
  live : ∀ pre p h post, events = pre ++ .added p h :: post → .removed h ∉ post →
    ∃ unit, m.findHandle h = some unit ∧ unit.rfidPtr = p
  closed : ∀ pre p h post, events = pre ++ .added p h :: post → .removed h ∈ post →
    m.findHandle h = none

variable {events : List (TableEvent π)} {m m' : HandleManager π}

theorem TableInvariant.empty : TableInvariant ([] : List (TableEvent π)) HandleManager.empty where
  ids := List.nodup_nil
  pointers := List.nodup_nil
  units_below := by simp [HandleManager.empty]
  events_below := by simp
  issued := fun h hle hlt => absurd hlt (Int.not_lt.mpr hle)
  live := fun pre p h post hsplit => absurd hsplit (by simp)
  closed := fun pre p h post hsplit => absurd hsplit (by simp)

/-- A handle handed out is found with its interface exactly until it is removed. -/
def Found (events : List (TableEvent π)) (m : HandleManager π) : Prop :=
  ∀ pre p h post, events = pre ++ .added p h :: post →
    (.removed h ∉ post → ∃ unit, m.findHandle h = some unit ∧ unit.rfidPtr = p) ∧
      (.removed h ∈ post → m.findHandle h = none)

/-- A call finds the handles as they were, but for the one it removes or hands out. -/
theorem TableInvariant.found (hI : TableInvariant events m) {e : TableEvent π}
    (hkeep : ∀ p h, .added p h ∈ events → e ≠ .removed h → m'.findHandle h = m.findHandle h)
    (hgone : ∀ h, e = .removed h → m'.findHandle h = none)
    (hadded : ∀ p h, e = .added p h → ∃ unit, m'.findHandle h = some unit ∧ unit.rfidPtr = p) :
    Found (events ++ [e]) m' := by
  intro pre p h post hsplit
  obtain ⟨rfl, rfl, hlast⟩ | ⟨post', rfl, hold⟩ := split_snoc hsplit
  · exact ⟨fun _ => hadded p h hlast.symm, fun hmem => absurd hmem List.not_mem_nil⟩
  · have hmem : .added p h ∈ events := by simp [hold]
    constructor
    · intro hpost
      have hne : e ≠ .removed h := fun heq => hpost (by simp [heq])
      rw [hkeep p h hmem hne]
      exact hI.live pre p h post' hold fun hbefore => hpost (List.mem_append_left _ hbefore)
    · intro hpost
      by_cases heq : e = .removed h
      · exact hgone h heq
      · rw [hkeep p h hmem heq]
        apply hI.closed pre p h post' hold
        obtain hbefore | hlast := List.mem_append.mp hpost
        · exact hbefore
        · exact absurd (List.mem_singleton.mp hlast).symm heq

/-- A new handle: the counter's, found from now on. -/
theorem TableInvariant.addNew (hI : TableInvariant events m) {p : Option π}
    (hnew : p ∉ m.handles.map HandleUnit.rfidPtr) :
    TableInvariant (events ++ [.added p m.flowCount])
      ⟨m.flowCount + 1, m.handles ++ [⟨m.flowCount, p, []⟩]⟩ := by
  have hid : m.flowCount ∉ m.handles.map HandleUnit.handleId := by
    intro hmem
    obtain ⟨unit, hunit, heq⟩ := List.mem_map.mp hmem
    have hlt := hI.units_below unit hunit
    omega
  have hfound : Found (events ++ [.added p m.flowCount])
      ⟨m.flowCount + 1, m.handles ++ [⟨m.flowCount, p, []⟩]⟩ := by
    refine hI.found ?_ (fun h heq => absurd heq (by simp)) ?_
    · -- A handle of an earlier call is not the counter's.
      intro q h hmem _
      have hlt := hI.events_below q h hmem
      have hne : ¬ m.flowCount = h := by omega
      unfold findHandle
      rw [lookup_append]
      simp [hne]
    · intro q h heq
      obtain ⟨rfl, rfl⟩ : p = q ∧ m.flowCount = h := by simpa using heq
      refine ⟨⟨m.flowCount, p, []⟩, ?_, rfl⟩
      unfold findHandle
      rw [lookup_append, lookup_eq_none_iff.mpr hid]
      simp
  refine ⟨hI.ids.append hid, hI.pointers.append hnew, ?_, ?_, ?_,
    fun pre q h post hsplit => (hfound pre q h post hsplit).1,
    fun pre q h post hsplit => (hfound pre q h post hsplit).2⟩
  · intro unit hunit
    change unit.handleId < m.flowCount + 1
    obtain hold | hlast := List.mem_append.mp hunit
    · have hlt := hI.units_below unit hold
      omega
    · obtain rfl := List.mem_singleton.mp hlast
      exact Int.lt_succ m.flowCount
  · intro q h hmem
    change h < m.flowCount + 1
    obtain hold | hlast := List.mem_append.mp hmem
    · have hlt := hI.events_below q h hold
      omega
    · obtain ⟨-, rfl⟩ : q = p ∧ h = m.flowCount := by simpa using hlast
      exact Int.lt_succ m.flowCount
  · intro h hle hlt
    obtain hlt' | rfl := Int.lt_or_eq_of_le (Int.lt_add_one_iff.mp hlt)
    · exact (hI.issued h hle hlt').append _
    · exact Or.inl ⟨p, by simp⟩

/-- An interface that is there already: its handle again. -/
theorem TableInvariant.addKnown [DecidableEq π] (hI : TableInvariant events m) {p : Option π}
    {unit : HandleUnit π}
    (hunit : m.findRfidPtr p = some unit) :
    TableInvariant (events ++ [.added p unit.handleId]) m := by
  obtain ⟨hmem, rfl⟩ := mem_of_lookup hunit
  have hfound : Found (events ++ [.added unit.rfidPtr unit.handleId]) m := by
    refine hI.found (fun _ _ _ _ => rfl) (fun h heq => absurd heq (by simp)) ?_
    intro q h heq
    obtain ⟨rfl, rfl⟩ : unit.rfidPtr = q ∧ unit.handleId = h := by simpa using heq
    exact ⟨unit, lookup_of_mem hI.ids hmem, rfl⟩
  refine ⟨hI.ids, hI.pointers, hI.units_below, ?_, fun h hle hlt => (hI.issued h hle hlt).append _,
    fun pre q h post hsplit => (hfound pre q h post hsplit).1,
    fun pre q h post hsplit => (hfound pre q h post hsplit).2⟩
  intro q h hevent
  obtain hold | hlast := List.mem_append.mp hevent
  · exact hI.events_below q h hold
  · obtain ⟨-, rfl⟩ : q = unit.rfidPtr ∧ h = unit.handleId := by simpa using hlast
    exact hI.units_below unit hmem

theorem TableInvariant.removeHandleUnit (hI : TableInvariant events m) (h₀ : Int) :
    TableInvariant (events ++ [.removed h₀]) (m.removeHandleUnit h₀) := by
  have hfound : Found (events ++ [.removed h₀]) (m.removeHandleUnit h₀) := by
    refine hI.found ?_ ?_ fun p h heq => absurd heq (by simp)
    · intro p h _ hne
      rw [findHandle_removeHandleUnit hI.ids, if_neg fun heq => hne (by rw [heq])]
    · intro h heq
      obtain rfl : h₀ = h := by simpa using heq
      rw [findHandle_removeHandleUnit hI.ids, if_pos rfl]
  refine ⟨hI.ids.remove, hI.pointers.remove, ?_, ?_, ?_,
    fun pre q h post hsplit => (hfound pre q h post hsplit).1,
    fun pre q h post hsplit => (hfound pre q h post hsplit).2⟩
  · exact fun unit hunit => hI.units_below unit (remove_sublist.subset hunit)
  · exact fun p h hmem => hI.events_below p h (by simpa using hmem)
  · exact fun h hle hlt => (hI.issued h hle hlt).append _

theorem TableInvariant.issuedElsewhere (hI : TableInvariant events m) :
    TableInvariant (events ++ [.issuedElsewhere m.flowCount])
      { m with flowCount := m.flowCount + 1 } := by
  have hfound : Found (events ++ [.issuedElsewhere m.flowCount])
      { m with flowCount := m.flowCount + 1 } :=
    hI.found (fun _ _ _ _ => rfl) (fun h heq => absurd heq (by simp))
      fun p h heq => absurd heq (by simp)
  refine ⟨hI.ids, hI.pointers, ?_, ?_, ?_,
    fun pre q h post hsplit => (hfound pre q h post hsplit).1,
    fun pre q h post hsplit => (hfound pre q h post hsplit).2⟩
  · intro unit hunit
    exact Int.lt_trans (hI.units_below unit hunit) (Int.lt_succ _)
  · intro p h hmem
    exact Int.lt_trans (hI.events_below p h (by simpa using hmem)) (Int.lt_succ _)
  · intro h hle hlt
    obtain hlt' | rfl := Int.lt_or_eq_of_le (Int.lt_add_one_iff.mp hlt)
    · exact (hI.issued h hle hlt').append _
    · exact Or.inr (by simp)

variable [DecidableEq π]

theorem tableInvariant_step {e : TableEvent π} (hI : TableInvariant events m)
    (hstep : m.tableStep e = some m') : TableInvariant (events ++ [e]) m' := by
  cases e with
  | added p h =>
      obtain ⟨unit, hunit, rfl, rfl⟩ | ⟨hnew, -, rfl, rfl⟩ :=
        addHandleUnit_cases (tableStep_added hstep)
      · exact hI.addKnown hunit
      · exact hI.addNew hnew
  | removed h =>
      obtain rfl := Option.some.inj hstep
      exact hI.removeHandleUnit h
  | issuedElsewhere h =>
      obtain ⟨rfl, rfl⟩ := tableStep_issuedElsewhere hstep
      exact hI.issuedElsewhere

theorem tableInvariant_run (hrun : exec tableStep HandleManager.empty events = some m) :
    TableInvariant events m :=
  exec_history (M := TableInvariant) .empty
    (fun _ _ _ _ _ hI hstep => tableInvariant_step hI hstep) hrun

/-- What holds of a table after some calls. -/
structure Integrity (events : List (TableEvent π)) (m : HandleManager π) : Prop where
  distinct_ids : (m.handles.map HandleUnit.handleId).Nodup
  distinct_pointers : (m.handles.map HandleUnit.rfidPtr).Nodup
  known : ∀ unit ∈ m.handles, m.addHandleUnit unit.rfidPtr = some (unit.handleId, m)
  fresh : ∀ p h m', p ∉ m.handles.map HandleUnit.rfidPtr → m.addHandleUnit p = some (h, m') →
    ∀ q, .added q h ∉ events
  live : ∀ pre p h post, events = pre ++ .added p h :: post → .removed h ∉ post →
    m.getRfidPtr h = p
  closed : ∀ pre p h post, events = pre ++ .added p h :: post → .removed h ∈ post →
    m.getRfidPtr h = none
  exhausted : ∀ p, m.addHandleUnit p = none → ∀ h, 0 ≤ h → h < intMax → Issued events h
  frame : ∀ h h', h' ≠ h → (m.removeHandleUnit h).getRfidPtr h' = m.getRfidPtr h' ∧
    (m.removeHandleUnit h).getData h' = m.getData h'

/-- The table keeps its integrity over every sequence of calls. A call is undefined only when
all the handles below the largest `int` have been issued. -/
theorem handle_table_integrity (events : List (TableEvent π)) (m : HandleManager π)
    (hrun : exec tableStep HandleManager.empty events = some m) : Integrity events m := by
  have hI := tableInvariant_run hrun
  refine ⟨hI.ids, hI.pointers, ?_, ?_, ?_, ?_, ?_, ?_⟩
  · intro unit hunit
    have hfound : m.findRfidPtr unit.rfidPtr = some unit := lookup_of_mem hI.pointers hunit
    rw [addHandleUnit, hfound]
  · intro p h m' hnew hadd q hmem
    obtain ⟨unit, hunit, -, -⟩ | ⟨-, -, rfl, -⟩ := addHandleUnit_cases hadd
    · obtain ⟨hunit', rfl⟩ := mem_of_lookup hunit
      exact hnew (List.mem_map_of_mem hunit')
    · exact absurd (hI.events_below q m.flowCount hmem) (Int.lt_irrefl _)
  · intro pre p h post hsplit hpost
    obtain ⟨unit, hunit, rfl⟩ := hI.live pre p h post hsplit hpost
    rw [getRfidPtr_eq, hunit, Option.bind_some]
  · intro pre p h post hsplit hpost
    rw [getRfidPtr_eq, hI.closed pre p h post hsplit hpost, Option.bind_none]
  · intro p hnone h hle hlt
    have hcount := (addHandleUnit_eq_none_iff.mp hnone).2
    exact hI.issued h hle (Int.lt_of_lt_of_le hlt hcount)
  · intro h h' hne
    have hfound := findHandle_removeHandleUnit hI.ids h h'
    rw [if_neg hne] at hfound
    exact ⟨by rw [getRfidPtr_eq, getRfidPtr_eq, hfound], by rw [getData, getData, hfound]⟩

/-- An interface that was closed and is opened again gets a new handle. -/
theorem handle_table_integrity_reopened :
    Integrity [.added (some 'a') 0, .added (some 'b') 1, .added (some 'a') 0, .removed 0,
        .added (some 'a') 2]
      ⟨3, [⟨1, some 'b', []⟩, ⟨2, some 'a', []⟩]⟩ :=
  handle_table_integrity _ _ (by decide)

end HandleManager

end RfidEngine
