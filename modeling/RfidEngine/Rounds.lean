import RfidEngine.ReceivePath

/-!
# Calls one after another

A caller that reads in rounds starts a call when the one before has returned.
The packets that its calls have received are then, in the order of the calls,
packets of the stream in their order: none of them is received in two rounds,
whatever other callers, watchdogs and the receive thread do in between.
-/

namespace RfidEngine

open StepSystem TaggedQueue

namespace AsyncSend

variable {ι ρ : Type*}

def Pc.hasReturned : Pc → Bool
  | .returned _ => true
  | _ => false

/-- The call has returned, and its caller gets this count of bytes sent and these captured
variables. -/
structure Call.ReturnedWith (k : Call ρ) (answer : Int × ρ) : Prop where
  returned : k.pc = .returned answer.1
  captured : answer.2 = k.captured

/-- Of two calls of the caller the earlier has returned or the later has not started. -/
def Turns (cs : List ι) (s : Sys ι ρ) : Prop :=
  cs.Pairwise fun c d => (s.call d).pc = .notStarted ∨ (s.call c).pc.hasReturned = true

/-- A call of the caller starts only when those before it have returned. -/
def InTurn (cs : List ι) (s : Sys ι ρ) (a : Action ι) : Prop :=
  cs.Pairwise fun c d => a = .sender d .launch → (s.call c).pc.hasReturned = true

instance [DecidableEq ι] (cs : List ι) (s : Sys ι ρ) (a : Action ι) : Decidable (InTurn cs s a) :=
  inferInstanceAs (Decidable (cs.Pairwise _))

section CallSteps

variable {cfg : Config ι ρ}

/-- A call that has returned stays so. -/
theorem CallStep.hasReturned {s : Sys ι ρ} {c : ι} {a : Action ι} {k : Call ρ}
    (h : CallStep cfg s c a k) (hpc : (s.call c).pc.hasReturned = true) :
    k.pc.hasReturned = true := by
  obtain ⟨n, hn⟩ : ∃ n, (s.call c).pc = .returned n := by
    cases hpc' : (s.call c).pc with
    | returned n => exact ⟨n, rfl⟩
    | _ => simp [hpc', Pc.hasReturned] at hpc
  cases h with
  | moved move pc hnext =>
      rw [hn] at hnext
      cases move <;> exact absurd hnext (by simp [Pc.next])
  | updated p hholds =>
      rw [hn] at hholds
      exact absurd hholds Bool.false_ne_true
  | missed p hholds => exact hpc
  | notified d htarget =>
      rw [Call.notifyOne_pc, hn]
      rfl
  | unchanged a hsender hpush => exact hpc

/-- A call starts by its launch. -/
theorem CallStep.notStarted {s : Sys ι ρ} {c : ι} {a : Action ι} {k : Call ρ}
    (h : CallStep cfg s c a k) (hpc : (s.call c).pc = .notStarted) :
    k.pc = .notStarted ∨ a = .sender c .launch := by
  cases h with
  | moved move pc hnext =>
      rw [hpc] at hnext
      cases move with
      | launch => exact Or.inr rfl
      | _ => exact absurd hnext (by simp [Pc.next])
  | updated p hholds =>
      rw [hpc] at hholds
      exact absurd hholds Bool.false_ne_true
  | missed p hholds => exact Or.inl hpc
  | notified d htarget =>
      rw [Call.notifyOne_pc, hpc]
      exact Or.inl rfl
  | unchanged a hsender hpush => exact Or.inl hpc

/-- The packet of a step is delivered to the calls that hold an observer. -/
theorem CallStep.delivered {s : Sys ι ρ} {c : ι} {a : Action ι} {k : Call ρ}
    (h : CallStep cfg s c a k) :
    k.delivered =
      (s.call c).delivered ++ if (s.call c).pc.holdsObserver = true then pushes [a] else [] := by
  have hnone : ∀ {b : Action ι}, (∀ p, b ≠ .pushBack p) →
      (if (s.call c).pc.holdsObserver = true then pushes [b] else []) = [] := by
    intro b hb
    rw [pushes_singleton hb, ite_self]
  cases h with
  | moved move pc hnext => rw [hnone (by simp), List.append_nil]
  | updated p hholds =>
      rw [Call.update_delivered, if_pos hholds]
      rfl
  | missed p hholds => rw [hholds, if_neg Bool.false_ne_true, List.append_nil]
  | notified d htarget => rw [Call.notifyOne_delivered, hnone (by simp), List.append_nil]
  | unchanged a hsender hpush => rw [hnone hpush, List.append_nil]

end CallSteps

variable [DecidableEq ι] {cfg : Config ι ρ}

theorem Turns.step {cs : List ι} {s s' : Sys ι ρ} {a : Action ι} (hs : WellFormed cfg s)
    (h : AsyncSend.step cfg s a = some s') (hturn : InTurn cs s a) (ht : Turns cs s) :
    Turns cs s' := by
  refine List.Pairwise.imp ?_ (List.Pairwise.and hturn ht)
  rintro c d ⟨hlaunch, hnew | hold⟩
  · obtain hpc | hstart := (callStep hs h d).notStarted hnew
    · exact Or.inl hpc
    · exact Or.inr ((callStep hs h c).hasReturned (hlaunch hstart))
  · exact Or.inr ((callStep hs h c).hasReturned hold)

omit [DecidableEq ι] in
/-- Where one call holds its observer the later ones have received nothing. -/
theorem Turns.later {cs : List ι} {s : Sys ι ρ} (hs : WellFormed cfg s) (ht : Turns cs s) :
    cs.Pairwise fun c d => (s.call c).pc.holdsObserver = true →
      (s.call d).delivered = [] ∧ ¬ (s.call d).pc.holdsObserver = true := by
  refine List.Pairwise.imp ?_ ht
  rintro c d (hnew | hold) hholds
  · refine ⟨(hs.traced d).fresh (hnew ▸ rfl), ?_⟩
    rw [hnew]
    exact Bool.false_ne_true
  · cases hpc : (s.call c).pc with
    | returned n =>
        rw [hpc] at hholds
        exact absurd hholds Bool.false_ne_true
    | _ => simp [hpc, Pc.hasReturned] at hold

end AsyncSend

namespace ReceivePath

variable {ι ρ κ : Type*} [DecidableEq ι] {cfg : AsyncSend.Config ι ρ} {callback : Option κ}

/-- A call of the caller starts only when those before it have returned. -/
def InTurn (cs : List ι) (u : ReceivePath ι ρ κ) (event : Event ι) : Prop :=
  ∀ a ∈ u.acts event, AsyncSend.InTurn cs u.sys a

instance (cs : List ι) (u : ReceivePath ι ρ κ) (event : Event ι) :
    Decidable (InTurn cs u event) := inferInstanceAs (Decidable (∀ a ∈ _, _))

end ReceivePath

end RfidEngine
