import RfidEngine.HandleManager.Model
import RfidEngine.Lib.RefCount

/-!
# How long an interface lives

`RFOpen` makes an interface and puts it into the table, and `get_rfid_ptr` hands
out a shared pointer that a call holds until it has returned. `RFClose` removes
the unit, also while calls on the interface run. Every access of the table is
taken as one step, and the steps of any number of callers interleave;
`get_rfid_ptr` holds no lock, and a unit that goes between its search and its copy
of the pointer is not modelled.

## Main result

No interface is destroyed while its handle is open or a call on it runs, and it
is destroyed once when the last of them has gone, whichever that is.
-/

namespace RfidEngine

open KeyedTable StepSystem RefCount

/-- A shared pointer that a caller holds; `opening` is that of `RFOpen` in front of
`add_handle_unit`. -/
structure PointerUse (π ι : Type*) where
  caller : ι
  rfidPtr : π
  opening : Bool
  deriving DecidableEq

structure Interfaces (π ι : Type*) where
  hm : HandleManager π
  uses : List (PointerUse π ι)
  objects : Objects π

inductive InterfaceAction (π ι : Type*) where
  | construct (i : ι) (p : π)
  | add (i : ι)
  | call (i : ι) (h : Int)
  | done (i : ι)
  | close (h : Int)

namespace Interfaces

variable {π ι : Type} [DecidableEq π] [DecidableEq ι]

def init : Interfaces π ι := ⟨.empty, [], .empty⟩

def findUse (s : Interfaces π ι) (i : ι) : Option (PointerUse π ι) :=
  lookup PointerUse.caller i s.uses

/-- The use is no longer one in front of `add_handle_unit`. -/
def opened (i : ι) (uses : List (PointerUse π ι)) : List (PointerUse π ι) :=
  change PointerUse.caller i (fun use => { use with opening := false }) uses

/-- `new RfidInterface`, in the pointer of `RFOpen`. -/
def construct (s : Interfaces π ι) (i : ι) (p : π) : Option (Interfaces π ι) :=
  if s.findUse i = none ∧ s.objects.made p = false then
    some { s with uses := s.uses ++ [⟨i, p, true⟩], objects := s.objects.make p }
  else none

/-- `add_handle_unit`; the unit that is added shares the pointer. -/
def add (s : Interfaces π ι) (i : ι) : Option (Interfaces π ι) :=
  match s.findUse i with
  | some ⟨_, p, true⟩ => do
      let (_, hm) ← s.hm.addHandleUnit (some p)
      some ⟨hm, opened i s.uses,
        if s.hm.findRfidPtr (some p) = none then s.objects.share p else s.objects⟩
  | _ => none

/-- `hm.get_rfid_ptr(h)->...`, the search for the unit and the copy of its pointer in one step; a
null pointer is undefined. -/
def call (s : Interfaces π ι) (i : ι) (h : Int) : Option (Interfaces π ι) :=
  match s.findUse i, s.hm.getRfidPtr h with
  | none, some p => some { s with uses := s.uses ++ [⟨i, p, false⟩], objects := s.objects.share p }
  | _, _ => none

/-- The function returns and its pointer goes. -/
def done (s : Interfaces π ι) (i : ι) : Option (Interfaces π ι) :=
  match s.findUse i with
  | some ⟨_, p, false⟩ => some {
      s with uses := remove PointerUse.caller i s.uses, objects := s.objects.release p }
  | _ => none

/-- `remove_handle_unit`; an unknown handle is only logged. -/
def close (s : Interfaces π ι) (h : Int) : Interfaces π ι :=
  match s.hm.findHandle h with
  | none => s
  | some unit => { s with
      hm := s.hm.removeHandleUnit h
      objects :=
        match unit.rfidPtr with
        | some p => s.objects.release p
        | none => s.objects }

def step (s : Interfaces π ι) : InterfaceAction π ι → Option (Interfaces π ι)
  | .construct i p => s.construct i p
  | .add i => s.add i
  | .call i h => s.call i h
  | .done i => s.done i
  | .close h => some (s.close h)

/-- The units and the callers that hold the interface. -/
def owners (s : Interfaces π ι) (p : π) : Nat :=
  s.hm.handles.countP (fun unit => unit.rfidPtr == some p) +
    s.uses.countP (fun use => use.rfidPtr == p)

variable {s s' : Interfaces π ι} {i : ι} {p : π} {h : Int} {a : InterfaceAction π ι}

omit [DecidableEq ι] in
theorem owners_pos_of_unit {unit : HandleUnit π} (hmem : unit ∈ s.hm.handles)
    (hptr : unit.rfidPtr = some p) : 0 < s.owners p := by
  have hcount : 0 < s.hm.handles.countP fun unit => unit.rfidPtr == some p :=
    List.countP_pos_iff.mpr ⟨unit, hmem, beq_iff_eq.mpr hptr⟩
  exact Nat.add_pos_left hcount _

omit [DecidableEq ι] in
theorem owners_pos_of_use {use : PointerUse π ι} (hmem : use ∈ s.uses)
    (hptr : use.rfidPtr = p) : 0 < s.owners p := by
  have hcount : 0 < s.uses.countP fun use => use.rfidPtr == p :=
    List.countP_pos_iff.mpr ⟨use, hmem, beq_iff_eq.mpr hptr⟩
  exact Nat.add_pos_right _ hcount

omit [DecidableEq ι] in
/-- A use that is put to the list counts for its interface. -/
theorem countP_append_use (uses : List (PointerUse π ι)) (use : PointerUse π ι) (x : π) :
    (uses ++ [use]).countP (fun u => u.rfidPtr == x) =
      uses.countP (fun u => u.rfidPtr == x) + if x = use.rfidPtr then 1 else 0 := by
  rw [List.countP_append, List.countP_singleton]
  by_cases hx : x = use.rfidPtr
  · simp [hx]
  · simp [hx, Ne.symm hx]

theorem countP_opened (uses : List (PointerUse π ι)) (x : π) :
    (opened i uses).countP (fun u => u.rfidPtr == x) = uses.countP fun u => u.rfidPtr == x := by
  have hmap : (opened i uses).map PointerUse.rfidPtr = uses.map PointerUse.rfidPtr :=
    map_change fun _ => rfl
  have hcount := congrArg (List.countP fun q => q == x) hmap
  rw [List.countP_map, List.countP_map] at hcount
  exact hcount

/-- The counts are those of the owners, and what was made was constructed. -/
structure Sound (acts : List (InterfaceAction π ι)) (s : Interfaces π ι) : Prop where
  counted : Counted s.owners s.objects
  made : ∀ p, s.objects.made p = true ↔ ∃ i, .construct i p ∈ acts

theorem counted_construct (hcounted : Counted s.owners s.objects)
    (hstep : s.construct i p = some s') :
    Counted s'.owners s'.objects ∧ s'.objects.made = Function.update s.objects.made p true := by
  unfold construct at hstep
  split at hstep
  · rename_i hnew
    obtain rfl := Option.some.inj hstep
    refine ⟨hcounted.make hnew.2 fun x => ?_, rfl⟩
    rw [owners, countP_append_use, owners, Nat.add_assoc]
  · exact absurd hstep (by simp)

theorem counted_call (hcounted : Counted s.owners s.objects) (hstep : s.call i h = some s') :
    Counted s'.owners s'.objects ∧ s'.objects.made = s.objects.made := by
  unfold call at hstep
  split at hstep
  · rename_i p _ hptr
    obtain rfl := Option.some.inj hstep
    have hlive : 0 < s.owners p := by
      rw [HandleManager.getRfidPtr_eq] at hptr
      obtain ⟨unit, hunit, hptr⟩ := Option.bind_eq_some_iff.mp hptr
      exact owners_pos_of_unit (mem_of_lookup hunit).1 hptr
    refine ⟨hcounted.share hlive fun x => ?_, rfl⟩
    rw [owners, countP_append_use, owners, Nat.add_assoc]
  · exact absurd hstep (by simp)

theorem counted_done (hcounted : Counted s.owners s.objects) (hstep : s.done i = some s') :
    Counted s'.owners s'.objects ∧ s'.objects.made = s.objects.made := by
  unfold done at hstep
  split at hstep
  · rename_i caller p huse
    obtain rfl := Option.some.inj hstep
    refine ⟨hcounted.release fun x => ?_, rfl⟩
    have hremove := countP_remove huse fun use => use.rfidPtr == x
    have hptr : (p == x) = true ↔ x = p := by rw [beq_iff_eq, eq_comm]
    rw [owners, hremove, owners, ← Nat.add_assoc]
    simp only [hptr]
  · exact absurd hstep (by simp)

theorem counted_add (hcounted : Counted s.owners s.objects) (hstep : s.add i = some s') :
    Counted s'.owners s'.objects ∧ s'.objects.made = s.objects.made := by
  unfold add at hstep
  split at hstep
  · rename_i caller p huse
    obtain ⟨⟨h, hm⟩, hadd, heq⟩ := Option.bind_eq_some_iff.mp hstep
    obtain rfl := Option.some.inj heq
    obtain ⟨unit, hfound, -, rfl⟩ | ⟨hnew, -, -, rfl⟩ := HandleManager.addHandleUnit_cases hadd
    · have hsome : s.hm.findRfidPtr (some p) ≠ none := by simp [hfound]
      simp only [if_neg hsome]
      refine ⟨hcounted.congr fun x => ?_, trivial⟩
      rw [owners, countP_opened, owners]
    · have hnone : s.hm.findRfidPtr (some p) = none := lookup_eq_none_iff.mpr hnew
      simp only [if_pos hnone]
      have hlive : 0 < s.owners p := owners_pos_of_use (mem_of_lookup huse).1 rfl
      refine ⟨hcounted.share hlive fun x => ?_, rfl⟩
      rw [owners, countP_opened, owners, List.countP_append, List.countP_singleton]
      by_cases hx : x = p
      · simp [hx]
        omega
      · simp [hx, Ne.symm hx]
  · exact absurd hstep (by simp)

omit [DecidableEq ι] in
theorem counted_close (hcounted : Counted s.owners s.objects) (h : Int) :
    Counted (s.close h).owners (s.close h).objects ∧
      (s.close h).objects.made = s.objects.made := by
  cases hfind : s.hm.findHandle h with
  | none =>
      have hsame : s.close h = s := by simp only [close, hfind]
      rw [hsame]
      exact ⟨hcounted, rfl⟩
  | some unit =>
      have hclose : s.close h = { s with
          hm := s.hm.removeHandleUnit h
          objects :=
            match unit.rfidPtr with
            | some p => s.objects.release p
            | none => s.objects } := by
        simp only [close, hfind]
      have howners : ∀ x, s.owners x =
          (s.close h).owners x + if unit.rfidPtr = some x then 1 else 0 := by
        intro x
        have hremove := countP_remove hfind fun unit => unit.rfidPtr == some x
        simp only [beq_iff_eq] at hremove
        rw [hclose, owners, hremove, owners]
        exact Nat.add_right_comm _ _ _
      rw [hclose] at howners ⊢
      cases hptr : unit.rfidPtr with
      | none =>
          refine ⟨hcounted.congr fun x => ?_, rfl⟩
          rw [hptr] at howners
          have hnone : ¬ (none : Option π) = some x := by simp
          rw [howners x, if_neg hnone, Nat.add_zero]
      | some p =>
          refine ⟨hcounted.release fun x => ?_, rfl⟩
          rw [hptr] at howners
          rw [howners x]
          simp [eq_comm]

theorem Sound.step {acts : List (InterfaceAction π ι)} (h : Sound acts s)
    (hstep : s.step a = some s') : Sound (acts ++ [a]) s' := by
  have hother : (∀ i p, a ≠ .construct i p) → s'.objects.made = s.objects.made →
      ∀ p, s'.objects.made p = true ↔ ∃ i, .construct i p ∈ acts ++ [a] := by
    intro ha hmade p
    rw [hmade, h.made]
    simp [fun i => (ha i p).symm]
  cases a with
  | construct i p =>
      obtain ⟨hcounted, hmade⟩ := counted_construct h.counted hstep
      refine ⟨hcounted, fun q => ?_⟩
      rw [hmade, Function.update_apply]
      by_cases hq : q = p
      · simp [hq]
      · simp [hq, h.made]
  | add i =>
      obtain ⟨hcounted, hmade⟩ := counted_add h.counted hstep
      exact ⟨hcounted, hother (by simp) hmade⟩
  | call i h₀ =>
      obtain ⟨hcounted, hmade⟩ := counted_call h.counted hstep
      exact ⟨hcounted, hother (by simp) hmade⟩
  | done i =>
      obtain ⟨hcounted, hmade⟩ := counted_done h.counted hstep
      exact ⟨hcounted, hother (by simp) hmade⟩
  | close h₀ =>
      obtain rfl := Option.some.inj hstep
      obtain ⟨hcounted, hmade⟩ := counted_close h.counted h₀
      exact ⟨hcounted, hother (by simp) hmade⟩

omit [DecidableEq ι] in
theorem Sound.init : Sound [] (init : Interfaces π ι) where
  counted := Counted.empty
  made p := by simp [Interfaces.init, Objects.empty]

theorem sound_of_run {acts : List (InterfaceAction π ι)}
    (hrun : exec Interfaces.step init acts = some s) : Sound acts s :=
  exec_history (M := Sound) Sound.init (fun _ _ _ _ _ h hstep => h.step hstep) hrun

/-- However calls and closings interleave, an interface with an open handle or a running call was
constructed and is not destroyed, and one that was constructed and has neither was destroyed
once. -/
theorem interface_lives_while_used {acts : List (InterfaceAction π ι)}
    (hrun : exec Interfaces.step init acts = some s) (p : π) :
    ((∃ unit ∈ s.hm.handles, unit.rfidPtr = some p) ∨ (∃ use ∈ s.uses, use.rfidPtr = p) →
      (∃ i, .construct i p ∈ acts) ∧ s.objects.destroyed p = 0) ∧
    ((∃ i, .construct i p ∈ acts) → (∀ unit ∈ s.hm.handles, unit.rfidPtr ≠ some p) →
      (∀ use ∈ s.uses, use.rfidPtr ≠ p) → s.objects.destroyed p = 1) := by
  have hsound := sound_of_run hrun
  constructor
  · intro hused
    have hpos : 0 < s.owners p := by
      obtain ⟨unit, hmem, hptr⟩ | ⟨use, hmem, hptr⟩ := hused
      · exact owners_pos_of_unit hmem hptr
      · exact owners_pos_of_use hmem hptr
    have hmade : s.objects.made p = true := by
      by_contra hmade
      have hzero := hsound.counted.unmade p (by simpa using hmade)
      omega
    refine ⟨(hsound.made p).mp hmade, ?_⟩
    rw [hsound.counted.destroyed, if_neg fun h => hpos.ne' h.2]
  · intro hmade hunits huses
    have hzero : s.owners p = 0 := by
      have hunits' : s.hm.handles.countP (fun unit => unit.rfidPtr == some p) = 0 :=
        List.countP_eq_zero.mpr fun unit hmem => by simpa using hunits unit hmem
      have huses' : s.uses.countP (fun use => use.rfidPtr == p) = 0 :=
        List.countP_eq_zero.mpr fun use hmem => by simpa using huses use hmem
      rw [owners, hunits', huses']
    rw [hsound.counted.destroyed, if_pos ⟨(hsound.made p).mpr hmade, hzero⟩]

/-- A handle is closed under a call. -/
def closedUnderCall : List (InterfaceAction Bool Bool) :=
  [.construct true true, .add true, .done true, .call false 0, .close 0]

/-- The interface lives on until the call has returned. -/
theorem interface_lives_while_used_closedUnderCall :
    (∃ s : Interfaces Bool Bool, exec Interfaces.step init closedUnderCall = some s ∧
      s.objects.destroyed true = 0) ∧
    ∃ s : Interfaces Bool Bool, exec Interfaces.step init (closedUnderCall ++ [.done false]) =
      some s ∧ s.objects.destroyed true = 1 := by
  have hclosed : ∃ s, exec Interfaces.step init closedUnderCall = some s ∧
      (⟨false, true, false⟩ : PointerUse Bool Bool) ∈ s.uses := ⟨_, rfl, by decide⟩
  have hdone : ∃ s, exec Interfaces.step init (closedUnderCall ++ [.done false]) = some s ∧
      s.hm.handles = [] ∧ s.uses = [] := ⟨_, rfl, rfl, rfl⟩
  obtain ⟨s, hrun, huse⟩ := hclosed
  obtain ⟨s', hrun', hunits, huses⟩ := hdone
  have hlive := (interface_lives_while_used hrun true).1 (.inr ⟨_, huse, rfl⟩)
  refine ⟨⟨s, hrun, hlive.2⟩, s', hrun', ?_⟩
  exact (interface_lives_while_used hrun' true).2 ⟨true, by simp [closedUnderCall]⟩
    (by simp [hunits]) (by simp [huses])

end Interfaces

end RfidEngine
