import RfidEngine.Api.Model
import RfidEngine.Lib.StepSystem

/-!
# c_if: calls that interleave

Every access of a call to the handle table is one step. The steps of any number
of calls interleave with each other and with the opening and closing of
handles, and a call keeps between its steps what its local variables hold. A
call taken alone is the function of `c_if`.

## Main result

Calls do not mix as long as a buffer is cleared for one call at a time and no
handle is closed under a call.
-/

namespace RfidEngine

open StepSystem KeyedTable Api

variable {π : Type} {ι : Type*}

/-- The functions that hand out a text. -/
inductive TextFunction where
  | inventoryEPC (slot : Int) (loop : Bool)
  | singleCommand (userCmd : Str)
  | readMultiBank (slot : Int) (loop : Bool) (bankType start wordLen : Int)

structure TextCall where
  handle : Int
  function : TextFunction

/-- How far a call has come, with the pointer it was given and the text it is to hand out. -/
inductive Stage (π : Type) where
  | start
  | checked
  | rechecked
  | answered (p : Option π) (s : Str)
  | cleared (p : Option π) (s : Str)
  | appended (p : Option π) (s : Str)
  | returned (p : Option π) (s : Str) (out : Option Str × Int)
  | refused
  | threw
  | nullPointer
  deriving DecidableEq

namespace Stage

/-- The call has passed its check and has not returned. -/
def inUse : Stage π → Bool
  | checked | rechecked | answered _ _ | cleared _ _ | appended _ _ => true
  | _ => false

/-- The buffer of the handle was cleared for the call and not read yet. -/
def usesBuffer : Stage π → Bool
  | cleared _ _ | appended _ _ => true
  | _ => false

theorem inUse_of_usesBuffer {st : Stage π} (huse : st.usesBuffer = true) : st.inUse = true := by
  cases st with
  | cleared p s => rfl
  | appended p s => rfl
  | _ => exact absurd huse (by simp [usesBuffer])

/-- The call did not dereference null, and hands out the text it appended with its length. -/
def Unmixed : Stage π → Prop
  | answered p _ | cleared p _ | appended p _ => p.isSome = true
  | returned p s out => p.isSome = true ∧ out = (some s, (s.length : Int))
  | nullPointer => False
  | _ => True

end Stage

namespace TextFunction

def interfaceCall : TextFunction → InterfaceCall
  | inventoryEPC slot loop => .inventoryEPC slot loop
  | singleCommand userCmd => .singleCommand userCmd
  | readMultiBank slot loop bankType start wordLen =>
      .readMultiBank slot loop bankType start wordLen

/-- The text made of what an interface answers. -/
def text (host : Host π) (sent : List (π × InterfaceCall)) (p : π) : TextFunction → Option Str
  | inventoryEPC slot loop => do
      let responses : List Str := (host.answer sent p (.inventoryEPC slot loop)).2
      let parsed ← responses.mapM fun response => RfidParseU.parse host.unset response
      host.dumpU (parsed.filter fun parseU => parseU.isMatch && parseU.hasData)
  | singleCommand userCmd => some (host.answer sent p (.singleCommand userCmd))
  | readMultiBank slot loop bankType start wordLen => do
      let readMb : List Str :=
        (host.answer sent p (.readMultiBank slot loop bankType start wordLen)).2
      let parsed ← readMb.mapM fun response => RfidParseUR.parse host.unset response bankType
      host.dumpUR (parsed.filter fun parseUR => parseUR.isMatch && parseUR.hasData)

/-- Only the helper of `rfReadMultiBank` checks the handle again. -/
def checksAgain : TextFunction → Bool
  | readMultiBank _ _ _ _ _ => true
  | _ => false

/-- `hm.get_rfid_ptr(h)->c`, and the text made of the answer. -/
def useInterface (host : Host π) (f : TextFunction) (h : Int) (w : World π) : World π × Stage π :=
  match w.hm.getRfidPtr h with
  | none => (w, .nullPointer)
  | some p =>
      ({ w with sent := w.sent ++ [(p, f.interfaceCall)] },
        match f.text host w.sent p with
        | some s => .answered (some p) s
        | none => .threw)

/-- On a pointer the call has an answer or an exception; the table stays. -/
theorem useInterface_cases {host : Host π} {f : TextFunction} {h : Int} {w : World π} {p : π}
    (hp : w.hm.getRfidPtr h = some p) :
    (∃ s, f.text host w.sent p = some s ∧ f.useInterface host h w =
      ({ w with sent := w.sent ++ [(p, f.interfaceCall)] }, .answered (some p) s)) ∨
    (f.text host w.sent p = none ∧ f.useInterface host h w =
      ({ w with sent := w.sent ++ [(p, f.interfaceCall)] }, .threw)) := by
  unfold useInterface
  cases htext : f.text host w.sent p with
  | some s => exact Or.inl ⟨s, rfl, by simp [hp, htext]⟩
  | none => exact Or.inr ⟨rfl, by simp [hp, htext]⟩

end TextFunction

/-- The next step of a call, if it has one. -/
def TextCall.advance (host : Host π) (c : TextCall) (w : World π) :
    Stage π → Option (World π × Stage π)
  | .start => some (w, if w.hm.isValidHandle c.handle then .checked else .refused)
  | .checked =>
      if c.function.checksAgain then
        if w.hm.isValidHandle c.handle then some (w, .rechecked)
        else
          -- The result of the helper is ignored: the empty list is handed out.
          match host.dumpUR [] with
          | some s => some (w, .answered none s)
          | none => some (w, .threw)
      else some (c.function.useInterface host c.handle w)
  | .rechecked => some (c.function.useInterface host c.handle w)
  | .answered p s => some ({ w with hm := w.hm.clearBuffer c.handle }, .cleared p s)
  | .cleared p s => some ({ w with hm := w.hm.appendData c.handle s }, .appended p s)
  | .appended p s => some (w, .returned p s (w.hm.getData c.handle))
  | _ => none

section Advance

variable {host : Host π} {c : TextCall} {w : World π}

theorem TextCall.advance_checked_again (hagain : c.function.checksAgain = true)
    (hvalid : w.hm.isValidHandle c.handle = true) :
    c.advance host w .checked = some (w, .rechecked) := by
  simp [advance, hagain, hvalid]

theorem TextCall.advance_checked_once (honce : c.function.checksAgain = false) :
    c.advance host w .checked = some (c.function.useInterface host c.handle w) := by
  simp [advance, honce]

end Advance

/-- The world and the stages of all calls. -/
structure Calls (π : Type) (ι : Type*) where
  world : World π
  stage : ι → Stage π

/-- `rfOpen` ties a handle to an interface it has made; `rfClose` is one step. -/
inductive CallStep (π : Type) (ι : Type*) where
  | rfOpen (p : π)
  | rfClose (h : Int)
  | call (i : ι)

def Calls.initial : Calls π ι := ⟨⟨.empty, []⟩, fun _ => .start⟩

def callStep [DecidableEq π] [DecidableEq ι] (host : Host π) (calls : ι → TextCall)
    (s : Calls π ι) : CallStep π ι → Option (Calls π ι)
  | .rfOpen p => (s.world.hm.addHandleUnit (some p)).map fun opened =>
      { s with world := { s.world with hm := opened.2 } }
  | .rfClose h => some { s with world := { s.world with hm := s.world.hm.removeHandleUnit h } }
  | .call i => ((calls i).advance host s.world (s.stage i)).map fun next =>
      ⟨next.1, Function.update s.stage i next.2⟩

/-- No call has dereferenced null or handed out anything but its own text. -/
def Calls.Unmixed (s : Calls π ι) : Prop := ∀ i, (s.stage i).Unmixed

/-- A step does not disturb other calls: a handle is closed when no call uses it, a buffer is
cleared when no call has its text in it, and a text that is appended has an `int` as its
length. -/
def Undisturbed (calls : ι → TextCall) (s : Calls π ι) : CallStep π ι → Prop
  | .rfOpen _ => True
  | .rfClose h => ∀ j, (calls j).handle = h → (s.stage j).inUse = false
  | .call i =>
      match s.stage i with
      | .answered _ _ => ∀ j, (calls j).handle = (calls i).handle → (s.stage j).usesBuffer = false
      | .cleared _ text => (text.length : Int) ≤ intMax
      | _ => True

/-- The function of `c_if`, with the text that it hands out. -/
def TextCall.run (host : Host π) (c : TextCall) : Api π (Option (Option Str × Int)) :=
  match c.function with
  | .inventoryEPC slot loop => do return (← rfInventoryEPC host c.handle slot loop).2
  | .singleCommand userCmd => rfSingleCommand host c.handle userCmd
  | .readMultiBank slot loop bankType start wordLen => do
      return (← rfReadMultiBank host c.handle slot loop bankType start wordLen).2

/-- The world after a call that had the text `s` from the interface at `p`. -/
def TextCall.after (c : TextCall) (w : World π) (p : π) (s : Str) : World π where
  hm := (w.hm.clearBuffer c.handle).appendData c.handle s
  sent := w.sent ++ [(p, c.function.interfaceCall)]

section Alone

variable {host : Host π} {w : World π} {p : π} {s : Str}

theorem TextCall.run_eq {c : TextCall} (hp : w.hm.getRfidPtr c.handle = some p)
    (htext : c.function.text host w.sent p = some s) :
    c.run host w = some (some ((c.after w p s).hm.getData c.handle), c.after w p s) := by
  obtain ⟨h, f⟩ := c
  have hvalid := isValidHandle_of_pointer hp
  cases f with
  | inventoryEPC slot loop =>
      obtain ⟨parsed, hparsed, hdump⟩ := Option.bind_eq_some_iff.mp htext
      have hcall : rfInventoryEPC host h slot loop w = some (((host.answer w.sent p
          (.inventoryEPC slot loop)).1, some ((TextCall.after ⟨h, .inventoryEPC slot loop⟩ w p
            s).hm.getData h)), TextCall.after ⟨h, .inventoryEPC slot loop⟩ w p s) := by
        rw [rfInventoryEPC_of_parsed hp hparsed, hdump]
        rfl
      exact bind_of_eq hcall _
  | singleCommand userCmd =>
      obtain rfl := Option.some.inj htext
      change rfSingleCommand host h userCmd w = _
      unfold rfSingleCommand
      rw [bind_of_eq hvalid, if_pos rfl]
      exact bind_of_eq (callInterface_of_pointer hp _) _
  | readMultiBank slot loop bankType start wordLen =>
      obtain ⟨parsed, hparsed, hdump⟩ := Option.bind_eq_some_iff.mp htext
      have hcall : rfReadMultiBank host h slot loop bankType start wordLen w = some ((rfidOk,
          some ((TextCall.after ⟨h, .readMultiBank slot loop bankType start wordLen⟩ w p
            s).hm.getData h)),
          TextCall.after ⟨h, .readMultiBank slot loop bankType start wordLen⟩ w p s) := by
        rw [rfReadMultiBank_of_parsed hp hparsed, hdump]
        rfl
      exact bind_of_eq hcall _

variable {calls : ι → TextCall} {i : ι}

/-- One step of a call, and more of them after it. -/
theorem exec_call [DecidableEq π] [DecidableEq ι] {stage : ι → Stage π} {st st' : Stage π}
    {w' : World π} {t : Calls π ι} {n : Nat}
    (hnext : (calls i).advance host w st = some (w', st'))
    (hrest : exec (callStep host calls) ⟨w', Function.update stage i st'⟩
      (List.replicate n (.call i)) = some t) :
    exec (callStep host calls) ⟨w, Function.update stage i st⟩
      (List.replicate (n + 1) (.call i)) = some t := by
  rw [List.replicate_succ, exec_cons_eq_some]
  refine ⟨_, ?_, hrest⟩
  simp [callStep, hnext]

/-- The steps of a call taken without a gap are the function of `c_if`. -/
theorem call_alone [DecidableEq π] [DecidableEq ι] {stage : ι → Stage π}
    (hstart : stage i = .start) (hp : w.hm.getRfidPtr (calls i).handle = some p)
    (htext : (calls i).function.text host w.sent p = some s) :
    ∃ n out w', (calls i).run host w = some (some out, w') ∧
      exec (callStep host calls) ⟨w, stage⟩ (List.replicate n (.call i)) =
        some ⟨w', Function.update stage i (.returned (some p) s out)⟩ := by
  have hvalid := HandleManager.isValidHandle_of_getRfidPtr hp
  have hchecked : (calls i).advance host w .start = some (w, .checked) := by
    simp [TextCall.advance, hvalid]
  have huse : some ((calls i).function.useInterface host (calls i).handle w) = some
      ({ w with sent := w.sent ++ [(p, (calls i).function.interfaceCall)] },
        .answered (some p) s) := by
    simp [TextFunction.useInterface, hp, htext]
  have hbuffer : exec (callStep host calls)
      ⟨{ w with sent := w.sent ++ [(p, (calls i).function.interfaceCall)] },
        Function.update stage i (.answered (some p) s)⟩ (List.replicate 3 (.call i)) =
      some ⟨(calls i).after w p s, Function.update stage i
        (.returned (some p) s (((calls i).after w p s).hm.getData (calls i).handle))⟩ :=
    exec_call rfl (exec_call rfl (exec_call rfl rfl))
  have hself : Function.update stage i .start = stage := by
    rw [← hstart, Function.update_eq_self]
  cases hagain : (calls i).function.checksAgain with
  | true =>
      refine ⟨6, _, _, TextCall.run_eq hp htext, ?_⟩
      rw [← hself, Function.update_idem]
      exact exec_call hchecked (exec_call (TextCall.advance_checked_again hagain hvalid)
        (exec_call huse hbuffer))
  | false =>
      refine ⟨5, _, _, TextCall.run_eq hp htext, ?_⟩
      rw [← hself, Function.update_idem]
      exact exec_call hchecked (exec_call ((TextCall.advance_checked_once hagain).trans huse)
        hbuffer)

end Alone

/-- What a call relies on between its steps: its handle is there, and its buffer holds what the
call has put into it. -/
def Stage.Sound (m : HandleManager π) (h : Int) : Stage π → Prop
  | checked | rechecked => m.isValidHandle h = true
  | answered p _ => p.isSome = true ∧ m.isValidHandle h = true
  | cleared p _ => p.isSome = true ∧ ∃ unit, m.findHandle h = some unit ∧ unit.buffer = []
  | appended p s => p.isSome = true ∧ (s.length : Int) ≤ intMax ∧
      ∃ unit, m.findHandle h = some unit ∧ unit.buffer = s
  | st => st.Unmixed

theorem Stage.Sound.unmixed {m : HandleManager π} {h : Int} {st : Stage π} (hs : st.Sound m h) :
    st.Unmixed := by
  cases st with
  | answered p s => exact hs.1
  | cleared p s => exact hs.1
  | appended p s => exact hs.1
  | checked => trivial
  | rechecked => trivial
  | _ => exact hs

/-- A table in which a call finds what it relies on. -/
theorem Stage.Sound.frame {m m' : HandleManager π} {h : Int} {st : Stage π} (hs : st.Sound m h)
    (hvalid : st.inUse = true → m.isValidHandle h = true → m'.isValidHandle h = true)
    (hkeep : st.usesBuffer = true → ∀ unit, m.findHandle h = some unit →
      m'.findHandle h = some unit) : st.Sound m' h := by
  cases st with
  | checked => exact hvalid rfl hs
  | rechecked => exact hvalid rfl hs
  | answered p s => exact ⟨hs.1, hvalid rfl hs.2⟩
  | cleared p s =>
      obtain ⟨hp, unit, hunit, hbuffer⟩ := hs
      exact ⟨hp, unit, hkeep rfl unit hunit, hbuffer⟩
  | appended p s =>
      obtain ⟨hp, hlen, unit, hunit, hbuffer⟩ := hs
      exact ⟨hp, hlen, unit, hkeep rfl unit hunit, hbuffer⟩
  | _ => exact hs

/-- Every open handle has an interface, every call finds what it relies on, and a buffer is
used by one call at a time. -/
structure CallsInvariant (calls : ι → TextCall) (s : Calls π ι) : Prop where
  pointers : ∀ p ∈ s.world.hm.handles.map HandleUnit.rfidPtr, p.isSome = true
  sound : ∀ i, (s.stage i).Sound s.world.hm (calls i).handle
  apart : ∀ i j, (calls i).handle = (calls j).handle → (s.stage i).usesBuffer = true →
    (s.stage j).usesBuffer = true → i = j

variable {calls : ι → TextCall} {s s' : Calls π ι}

theorem CallsInvariant.initial : CallsInvariant calls (Calls.initial : Calls π ι) where
  pointers := fun p hp => absurd hp List.not_mem_nil
  sound := fun _ => trivial
  apart := fun _ _ _ huse _ => absurd huse (by simp [Calls.initial, Stage.usesBuffer])

theorem CallsInvariant.unmixed (hI : CallsInvariant calls s) : s.Unmixed :=
  fun i => (hI.sound i).unmixed

/-- A valid handle has an interface. -/
theorem CallsInvariant.exists_pointer (hI : CallsInvariant calls s) {h : Int}
    (hvalid : s.world.hm.isValidHandle h = true) : ∃ p, s.world.hm.getRfidPtr h = some p := by
  obtain ⟨unit, hunit⟩ := Option.isSome_iff_exists.mp hvalid
  have hsome := hI.pointers unit.rfidPtr (List.mem_map_of_mem (mem_of_lookup hunit).1)
  obtain ⟨p, hp⟩ := Option.isSome_iff_exists.mp hsome
  exact ⟨p, by rw [HandleManager.getRfidPtr_eq, hunit, Option.bind_some, hp]⟩

/-- One call takes a step: it finds what it relies on next, the others what they relied on
before, and none of them uses the buffer that the call now uses. -/
theorem CallsInvariant.advance [DecidableEq ι] (hI : CallsInvariant calls s) {i : ι}
    {w : World π} {st : Stage π}
    (hpointers : ∀ p ∈ w.hm.handles.map HandleUnit.rfidPtr, p.isSome = true)
    (hown : st.Sound w.hm (calls i).handle)
    (hothers : ∀ j, j ≠ i → (s.stage j).Sound w.hm (calls j).handle)
    (hfree : st.usesBuffer = true → ∀ j, j ≠ i → (calls j).handle = (calls i).handle →
      (s.stage j).usesBuffer = false) :
    CallsInvariant calls ⟨w, Function.update s.stage i st⟩ := by
  refine ⟨hpointers, fun j => ?_, fun j k heq hj hk => ?_⟩
  · by_cases hji : j = i
    · subst hji
      simpa using hown
    · simpa [hji] using hothers j hji
  · by_cases hji : j = i <;> by_cases hki : k = i
    · rw [hji, hki]
    · subst hji
      have hbusy := hfree (by simpa using hj) k hki heq.symm
      exact absurd (by simpa [hki] using hk) (by simp [hbusy])
    · subst hki
      have hbusy := hfree (by simpa using hk) j hji heq
      exact absurd (by simpa [hji] using hj) (by simp [hbusy])
    · exact hI.apart j k heq (by simpa [hji] using hj) (by simpa [hki] using hk)

section Steps

variable (hI : CallsInvariant calls s)

include hI

theorem CallsInvariant.rfOpen [DecidableEq π] {p : π} {h : Int} {hm : HandleManager π}
    (hopen : s.world.hm.addHandleUnit (some p) = some (h, hm)) :
    CallsInvariant calls { s with world := { s.world with hm := hm } } := by
  obtain ⟨-, -, -, rfl⟩ | ⟨-, -, -, rfl⟩ := HandleManager.addHandleUnit_cases hopen
  · exact hI
  · have hkeep : ∀ h' unit, s.world.hm.findHandle h' = some unit →
        HandleManager.findHandle ⟨s.world.hm.flowCount + 1,
          s.world.hm.handles ++ [⟨s.world.hm.flowCount, some p, []⟩]⟩ h' = some unit := by
      intro h' unit hunit
      unfold HandleManager.findHandle at hunit ⊢
      rw [lookup_append, hunit, Option.some_or]
    refine ⟨fun q hq => ?_, fun i => (hI.sound i).frame ?_ fun _ => hkeep _, hI.apart⟩
    · rw [List.map_append] at hq
      obtain hold | hnew := List.mem_append.mp hq
      · exact hI.pointers q hold
      · obtain rfl := List.mem_singleton.mp hnew
        rfl
    · intro _ hvalid
      obtain ⟨unit, hunit⟩ := Option.isSome_iff_exists.mp hvalid
      rw [HandleManager.isValidHandle, hkeep _ unit hunit, Option.isSome_some]

/-- A handle is closed that no call uses. -/
theorem CallsInvariant.rfClose {h : Int} (hfree : Undisturbed calls s (.rfClose h)) :
    CallsInvariant calls
      { s with world := { s.world with hm := s.world.hm.removeHandleUnit h } } := by
  have hkeep : ∀ h', h' ≠ h →
      (s.world.hm.removeHandleUnit h).findHandle h' = s.world.hm.findHandle h' :=
    fun h' hne => lookup_remove_of_ne hne
  refine ⟨fun p hp => hI.pointers p ((remove_sublist.map _).subset hp), fun i => ?_, hI.apart⟩
  have hne : (s.stage i).inUse = true → (calls i).handle ≠ h := by
    intro huse heq
    rw [hfree i heq] at huse
    exact absurd huse (by simp)
  apply (hI.sound i).frame
  · intro huse hvalid
    rwa [HandleManager.isValidHandle, hkeep _ (hne huse)]
  · intro huse unit hunit
    rwa [hkeep _ (hne (Stage.inUse_of_usesBuffer huse))]

/-- A step of a call that leaves the table as it is and its buffer to others. -/
theorem CallsInvariant.advance_idle [DecidableEq ι] {i : ι} {w : World π} {st : Stage π}
    (hm : w.hm = s.world.hm) (hown : st.Sound s.world.hm (calls i).handle)
    (hidle : st.usesBuffer = false) : CallsInvariant calls ⟨w, Function.update s.stage i st⟩ := by
  apply hI.advance
  · rw [hm]
    exact hI.pointers
  · rw [hm]
    exact hown
  · intro j _
    rw [hm]
    exact hI.sound j
  · intro huse
    exact absurd huse (by simp [hidle])

/-- A call changes its unit while no other call uses the buffer. -/
theorem CallsInvariant.advance_unit [DecidableEq ι] {i : ι} {f : HandleUnit π → HandleUnit π}
    {st : Stage π} (hkey : ∀ unit, (f unit).handleId = unit.handleId)
    (hpointer : ∀ unit, (f unit).rfidPtr = unit.rfidPtr)
    (hown : st.Sound { s.world.hm with
      handles := change HandleUnit.handleId (calls i).handle f s.world.hm.handles }
        (calls i).handle)
    (hfree : ∀ j, j ≠ i → (calls j).handle = (calls i).handle → (s.stage j).usesBuffer = false) :
    CallsInvariant calls ⟨{ s.world with hm := { s.world.hm with
      handles := change HandleUnit.handleId (calls i).handle f s.world.hm.handles } },
      Function.update s.stage i st⟩ := by
  apply hI.advance
  · rw [map_change hpointer]
    exact hI.pointers
  · exact hown
  · intro j hji
    apply (hI.sound j).frame
    · intro _ hvalid
      have hmem := lookup_isSome_iff.mp hvalid
      refine lookup_isSome_iff.mpr ?_
      rwa [map_change hkey]
    · intro huse unit hunit
      have hne : (calls j).handle ≠ (calls i).handle := by
        intro heq
        rw [hfree j hji heq] at huse
        exact absurd huse (by simp)
      unfold HandleManager.findHandle at hunit ⊢
      rwa [lookup_change hkey, if_neg hne]
  · exact fun _ => hfree

/-- A valid handle has an interface, and the call gets an answer or an exception from it. -/
theorem CallsInvariant.useInterface [DecidableEq ι] (host : Host π) {i : ι}
    (hvalid : s.world.hm.isValidHandle (calls i).handle = true) :
    CallsInvariant calls
      ⟨((calls i).function.useInterface host (calls i).handle s.world).1,
        Function.update s.stage i
          ((calls i).function.useInterface host (calls i).handle s.world).2⟩ := by
  obtain ⟨p, hp⟩ := hI.exists_pointer hvalid
  obtain ⟨text, -, heq⟩ | ⟨-, heq⟩ := TextFunction.useInterface_cases hp
  · rw [heq]
    exact hI.advance_idle rfl ⟨rfl, hvalid⟩ rfl
  · rw [heq]
    exact hI.advance_idle rfl trivial rfl

theorem CallsInvariant.call [DecidableEq ι] {host : Host π} {i : ι} {next : World π × Stage π}
    (hquiet : Undisturbed calls s (.call i))
    (hnext : (calls i).advance host s.world (s.stage i) = some next) :
    CallsInvariant calls ⟨next.1, Function.update s.stage i next.2⟩ := by
  have hown := hI.sound i
  cases hstage : s.stage i with
  | start =>
      rw [hstage] at hnext
      obtain rfl := Option.some.inj hnext
      apply hI.advance_idle rfl
      · split
        · assumption
        · trivial
      · split <;> rfl
  | checked =>
      rw [hstage] at hnext hown
      have hvalid : s.world.hm.isValidHandle (calls i).handle = true := hown
      cases hagain : (calls i).function.checksAgain with
      | true =>
          rw [TextCall.advance_checked_again hagain hvalid] at hnext
          obtain rfl := Option.some.inj hnext
          exact hI.advance_idle rfl hvalid rfl
      | false =>
          rw [TextCall.advance_checked_once hagain] at hnext
          obtain rfl := Option.some.inj hnext
          exact hI.useInterface host hvalid
  | rechecked =>
      rw [hstage] at hnext hown
      obtain rfl := Option.some.inj hnext
      exact hI.useInterface host hown
  | answered p text =>
      rw [hstage] at hnext hown
      simp only [Undisturbed, hstage] at hquiet
      obtain rfl := Option.some.inj hnext
      obtain ⟨hp, hvalid⟩ := hown
      obtain ⟨unit, hunit⟩ := Option.isSome_iff_exists.mp hvalid
      refine hI.advance_unit (fun _ => rfl) (fun _ => rfl) ⟨hp, unit.clear, ?_, rfl⟩
        fun j _ => hquiet j
      have hfound := s.world.hm.findHandle_clearBuffer (calls i).handle (calls i).handle
      rwa [if_pos rfl, hunit] at hfound
  | cleared p text =>
      rw [hstage] at hnext hown
      simp only [Undisturbed, hstage] at hquiet
      obtain rfl := Option.some.inj hnext
      obtain ⟨hp, unit, hunit, hbuffer⟩ := hown
      refine hI.advance_unit (fun _ => rfl) (fun _ => rfl)
        ⟨hp, hquiet, unit.append text, ?_, ?_⟩ fun j hji heq => ?_
      · have hfound := s.world.hm.findHandle_appendData (calls i).handle (calls i).handle text
        rwa [if_pos rfl, hunit] at hfound
      · rw [HandleUnit.append, hbuffer, List.nil_append]
      · cases huse : (s.stage j).usesBuffer with
        | false => rfl
        | true => exact absurd (hI.apart j i heq huse (by simp [hstage, Stage.usesBuffer])) hji
  | appended p text =>
      rw [hstage] at hnext hown
      obtain rfl := Option.some.inj hnext
      obtain ⟨hp, hlen, unit, hunit, hbuffer⟩ := hown
      refine hI.advance_idle rfl ⟨hp, ?_⟩ rfl
      unfold HandleManager.getData
      rw [hunit]
      simp only [hbuffer, toInt_eq_iff.mpr hlen]
  | _ =>
      rw [hstage] at hnext
      exact absurd hnext (by simp [TextCall.advance])

end Steps

section Run

variable [DecidableEq π] [DecidableEq ι]

theorem callsInvariant_step {host : Host π} {a : CallStep π ι} (hI : CallsInvariant calls s)
    (hquiet : Undisturbed calls s a) (hstep : callStep host calls s a = some s') :
    CallsInvariant calls s' := by
  cases a with
  | rfOpen p =>
      obtain ⟨⟨h, hm⟩, hopen, rfl⟩ := Option.map_eq_some_iff.mp hstep
      exact hI.rfOpen hopen
  | rfClose h =>
      obtain rfl := Option.some.inj hstep
      exact hI.rfClose hquiet
  | call i =>
      obtain ⟨next, hnext, rfl⟩ := Option.map_eq_some_iff.mp hstep
      exact hI.call hquiet hnext

/-- In a run whose steps do not disturb each other every call that passes its check gets an
interface, and hands out the text it appended with its length. -/
theorem calls_do_not_mix (host : Host π) (calls : ι → TextCall) (steps : List (CallStep π ι))
    (hquiet : Along (callStep host calls) (Undisturbed calls) Calls.initial steps) :
    Always (callStep host calls) Calls.Unmixed Calls.initial steps :=
  (always_of_along (fun _ _ _ => callsInvariant_step) .initial hquiet).mono
    fun _ hI => hI.unmixed

end Run

/-- The interfaces answer a command with the command. -/
def echoHost : Host Char where
  answer := fun _ _ c =>
    match c with
    | .singleCommand userCmd => userCmd
    | c => silentAnswer c
  readerId := silentHost.readerId
  dumpU := silentHost.dumpU
  dumpUR := silentHost.dumpUR
  unset := silentHost.unset
  behind := silentHost.behind

/-- Two commands on the first handle, and a read. -/
def sampleCalls : Fin 3 → TextCall
  | 0 => ⟨0, .singleCommand "V".toList⟩
  | 1 => ⟨0, .singleCommand "S".toList⟩
  | 2 => ⟨0, .readMultiBank 0 false 2 0 6⟩

/-- Calls that come one after the other, the last one after the handle was closed. -/
def sampleTurns : List (CallStep Char (Fin 3)) :=
  [.rfOpen 'a', .call 0, .call 1, .call 0, .call 1, .call 0, .call 0, .call 0, .call 1, .call 1,
    .call 1, .rfClose 0, .call 2]

/-- Two calls that clear the buffer before either of them appends. -/
def sampleClash : List (CallStep Char (Fin 3)) :=
  [.rfOpen 'a', .call 0, .call 1, .call 0, .call 1, .call 0, .call 1, .call 0, .call 1, .call 0]

/-- The handle is closed between the check and the use of its pointer. -/
def sampleClosed : List (CallStep Char (Fin 3)) := [.rfOpen 'a', .call 0, .rfClose 0, .call 0]

instance decidableStageUnmixed : ∀ st : Stage π, Decidable st.Unmixed
  | .answered p _ | .cleared p _ | .appended p _ => inferInstanceAs (Decidable (p.isSome = true))
  | .returned p s out =>
      inferInstanceAs (Decidable (p.isSome = true ∧ out = (some s, (s.length : Int))))
  | .nullPointer => isFalse id
  | .start | .checked | .rechecked | .refused | .threw => isTrue trivial

instance decidableUndisturbed [Fintype ι] (calls : ι → TextCall) (s : Calls π ι) :
    ∀ a : CallStep π ι, Decidable (Undisturbed calls s a)
  | .rfOpen _ => isTrue trivial
  | .rfClose h =>
      inferInstanceAs (Decidable (∀ j, (calls j).handle = h → (s.stage j).inUse = false))
  | .call i =>
      match hstage : s.stage i with
      | .answered _ _ =>
          decidable_of_iff
            (∀ j, (calls j).handle = (calls i).handle → (s.stage j).usesBuffer = false)
            (by simp [Undisturbed, hstage])
      | .cleared _ text => decidable_of_iff ((text.length : Int) ≤ intMax)
            (by simp [Undisturbed, hstage])
      | .start | .checked | .rechecked | .appended _ _ | .returned _ _ _ | .refused | .threw
      | .nullPointer => isTrue (by simp [Undisturbed, hstage])

/-- A run that ends with a mixed call. -/
theorem not_always_unmixed [DecidableEq π] [DecidableEq ι] {host : Host π} {calls : ι → TextCall}
    {steps : List (CallStep π ι)} (i : ι) (st : Stage π) (hst : ¬ st.Unmixed)
    (hend : (exec (callStep host calls) Calls.initial steps).map (fun s => s.stage i) = some st) :
    ¬ Always (callStep host calls) Calls.Unmixed Calls.initial steps := by
  obtain ⟨s, hs, rfl⟩ := Option.map_eq_some_iff.mp hend
  apply not_always_of_exec hs
  intro hunmixed
  exact hst (hunmixed i)

/-- The text of one call holds that of another, and a pointer is null. -/
theorem interleaved_calls_mix :
    ¬ Always (callStep echoHost sampleCalls) Calls.Unmixed Calls.initial sampleClash ∧
      ¬ Always (callStep echoHost sampleCalls) Calls.Unmixed Calls.initial sampleClosed :=
  ⟨not_always_unmixed 0 (.returned (some 'a') "V".toList (some "VS".toList, 2)) (by decide)
      (by decide +kernel),
    not_always_unmixed 0 .nullPointer (by decide) (by decide)⟩

theorem calls_do_not_mix_sample :
    Always (callStep echoHost sampleCalls) Calls.Unmixed Calls.initial sampleTurns :=
  calls_do_not_mix echoHost sampleCalls sampleTurns (by decide)

end RfidEngine
