import Mathlib.Data.List.Nodup
import RfidEngine.AsyncSend.Model

/-!
# What a step can do

A step of the system reaches a call in one of five ways, listed by `CallStep`.
The observer list changes at an attach and at a detach only, and holds exactly
the calls whose sender is between the two, each once. The invariants of a call
are read off these facts.
-/

namespace RfidEngine.AsyncSend

variable {ι ρ : Type*}

/-- The sender has attached its observer and not detached it. -/
def Pc.holdsObserver : Pc → Bool
  | .attached | .sent _ | .waiting _ | .woken _ | .leaving _ | .raised .send => true
  | _ => false

/-- The sender has not attached its observer yet. -/
def Pc.beforeAttach : Pc → Bool
  | .notStarted | .launched => true
  | _ => false

/-- The call has ended, by return or by exception. -/
def Pc.ended : Pc → Bool
  | .returned _ | .raised _ => true
  | _ => false

/-- After a notification nobody is blocked. -/
theorem Pc.notifyOne_ne (pc : Pc) (result : Int) : pc.notifyOne ≠ .waiting result := by
  cases pc <;> exact nofun

@[simp] theorem Pc.notifyOne_holdsObserver (pc : Pc) :
    pc.notifyOne.holdsObserver = pc.holdsObserver := by
  cases pc <;> rfl

@[simp] theorem Call.notifyOne_captured (k : Call ρ) : k.notifyOne.captured = k.captured := rfl

@[simp] theorem Call.notifyOne_delivered (k : Call ρ) : k.notifyOne.delivered = k.delivered := rfl

@[simp] theorem Call.notifyOne_pc (k : Call ρ) : k.notifyOne.pc = k.pc.notifyOne := rfl

@[simp] theorem Call.update_captured (cmd : Command ρ) (p : PacketContent) (k : Call ρ) :
    (k.update cmd p).captured = (cmd.judge k.captured p).1 := by
  simp only [Call.update]
  split <;> rfl

@[simp] theorem Call.update_delivered (cmd : Command ρ) (p : PacketContent) (k : Call ρ) :
    (k.update cmd p).delivered = k.delivered ++ [p] := by
  simp only [Call.update]
  split <;> rfl

/-- A packet that ends the wait notifies, any other leaves the sender where it is. -/
theorem Call.update_pc (cmd : Command ρ) (p : PacketContent) (k : Call ρ) :
    (k.update cmd p).pc = if (cmd.judge k.captured p).2 then k.pc.notifyOne else k.pc := by
  simp only [Call.update]
  split <;> rfl

@[simp] theorem Call.update_holdsObserver (cmd : Command ρ) (p : PacketContent) (k : Call ρ) :
    (k.update cmd p).pc.holdsObserver = k.pc.holdsObserver := by
  rw [Call.update_pc]
  split
  · exact k.pc.notifyOne_holdsObserver
  · rfl

/-- What a call has captured is what the packets delivered to it made of it, and none is
delivered before the attach. -/
structure Call.Traced (cmd : Command ρ) (k : Call ρ) : Prop where
  captured_eq : k.captured = Judge.final cmd.judge cmd.captured k.delivered
  fresh : k.pc.beforeAttach = true → k.delivered = []

theorem Pc.beforeAttach_eq_false {pc : Pc} (h : pc.holdsObserver = true) :
    pc.beforeAttach = false := by
  cases pc <;> simp_all [Pc.holdsObserver, Pc.beforeAttach]

@[simp] theorem Pc.notifyOne_beforeAttach (pc : Pc) :
    pc.notifyOne.beforeAttach = pc.beforeAttach := by
  cases pc <;> rfl

@[simp] theorem Call.update_beforeAttach (cmd : Command ρ) (p : PacketContent) (k : Call ρ) :
    (k.update cmd p).pc.beforeAttach = k.pc.beforeAttach := by
  rw [Call.update_pc]
  split
  · exact k.pc.notifyOne_beforeAttach
  · rfl

theorem next_holdsObserver {cmd : Command ρ} {w : WatchDog} {pc pc' : Pc} {move : Move}
    (h : pc.next cmd w move = some pc') :
    pc'.holdsObserver =
      match move with
      | .attach => true
      | .detach => false
      | _ => pc.holdsObserver := by
  unfold Pc.next at h
  split at h <;> grind [Pc.holdsObserver]

theorem next_attach {cmd : Command ρ} {w : WatchDog} {pc pc' : Pc}
    (h : pc.next cmd w .attach = some pc') : pc = .launched ∧ pc' = .attached := by
  unfold Pc.next at h
  split at h <;> simp_all

theorem next_send_count {cmd : Command ρ} {w : WatchDog} {pc pc' : Pc} {nSend : Int}
    (hcmd : cmd.cmd ≠ []) (h : pc.next cmd w (.send (.count nSend)) = some pc') :
    pc = .attached ∧ pc' = .sent nSend := by
  unfold Pc.next at h
  split at h <;> grind

/-- The observer is attached by the step after the launch only. -/
theorem next_of_attached {cmd : Command ρ} {w : WatchDog} {pc pc' : Pc} {move : Move}
    (h : pc.next cmd w move = some pc') (hpc : pc.beforeAttach = false)
    (hholds : pc'.holdsObserver = true) : pc.holdsObserver = true := by
  have hnext := next_holdsObserver h
  cases move with
  | attach =>
      obtain ⟨rfl, -⟩ := next_attach h
      exact absurd hpc nofun
  | detach => exact absurd (hholds.symm.trans hnext) nofun
  | _ => exact hnext.symm.trans hholds

theorem next_beforeAttach {cmd : Command ρ} {w : WatchDog} {pc pc' : Pc} {move : Move}
    (h : pc.next cmd w move = some pc') (hpc : pc'.beforeAttach = true) :
    pc.beforeAttach = true := by
  unfold Pc.next at h
  split at h <;> grind [Pc.beforeAttach]

variable [DecidableEq ι] {cfg : Config ι ρ}

/-- The observer list holds each attached call once and no other. -/
structure WellFormed (cfg : Config ι ρ) (s : Sys ι ρ) : Prop where
  nodup : s.packetQueue.observers.Nodup
  mem_iff : ∀ c, c ∈ s.packetQueue.observers ↔ (s.call c).pc.holdsObserver = true
  traced : ∀ c, (s.call c).Traced (cfg.command c)

/-- The observer list after an action. -/
def observersAfter (observers : List ι) : Action ι → List ι
  | .sender c .attach => observers ++ [c]
  | .sender c .detach => observers.erase c
  | _ => observers

/-- A step of a sender changes its watchdog and the observer list, and may abort. -/
theorem effect_eq (c : ι) (s : Sys ι ρ) (move : Move) :
    ∃ q abort, s.effect cfg c move =
        { s.setWatchDog c ((s.watchDog c).afterMove cfg.enableWatchDog move) with
          packetQueue := q, abort := abort } ∧
      q.queue = s.packetQueue.queue ∧
      q.observers = observersAfter s.packetQueue.observers (.sender c move) := by
  cases move with
  | send outcome =>
      simp only [Sys.effect]
      split
      · exact ⟨_, _, rfl, rfl, rfl⟩
      · exact ⟨_, _, rfl, rfl, rfl⟩
  | detach =>
      simp only [Sys.effect]
      split
      · rename_i q hq
        exact ⟨q, _, rfl, PacketQueue.detach_queue hq, PacketQueue.detach_eq_some hq⟩
      · rename_i hq
        exact ⟨_, _, rfl, rfl, (List.erase_of_not_mem (PacketQueue.detach_eq_none hq)).symm⟩
  | _ => exact ⟨_, _, rfl, rfl, rfl⟩

@[simp] theorem effect_call (c : ι) (s : Sys ι ρ) (move : Move) :
    (s.effect cfg c move).call = s.call := by
  obtain ⟨q, abort, heffect, -⟩ := effect_eq c s move
  rw [heffect]
  rfl

@[simp] theorem effect_watchDog (c : ι) (s : Sys ι ρ) (move : Move) :
    (s.effect cfg c move).watchDog =
      Function.update s.watchDog c ((s.watchDog c).afterMove cfg.enableWatchDog move) := by
  obtain ⟨q, abort, heffect, -⟩ := effect_eq c s move
  rw [heffect]
  rfl

theorem effect_observers (c : ι) (s : Sys ι ρ) (move : Move) :
    (s.effect cfg c move).packetQueue.observers =
      observersAfter s.packetQueue.observers (.sender c move) := by
  obtain ⟨q, abort, heffect, -, hobservers⟩ := effect_eq c s move
  rw [heffect]
  exact hobservers

@[simp] theorem update_observers (s : Sys ι ρ) (p : PacketContent) (c : ι) :
    (s.update cfg p c).packetQueue.observers = s.packetQueue.observers :=
  PacketQueue.pop_observers _

theorem foldl_update_observers (p : PacketContent) (l : List ι) (s : Sys ι ρ) :
    (l.foldl (Sys.update cfg p) s).packetQueue.observers = s.packetQueue.observers := by
  induction l generalizing s with
  | nil => rfl
  | cons c l ih => exact (ih _).trans (update_observers s p c)

theorem foldl_update_watchDog (p : PacketContent) (l : List ι) (s : Sys ι ρ) :
    (l.foldl (Sys.update cfg p) s).watchDog = s.watchDog ∧
      (l.foldl (Sys.update cfg p) s).abort = s.abort := by
  induction l generalizing s with
  | nil => exact ⟨rfl, rfl⟩
  | cons c l ih => exact ih _

/-- Updating a list of distinct observers updates each of them once. -/
theorem foldl_update_call (p : PacketContent) {l : List ι} (hl : l.Nodup) (s : Sys ι ρ) (c : ι) :
    (l.foldl (Sys.update cfg p) s).call c =
      if c ∈ l then (s.call c).update (cfg.command c) p else s.call c := by
  induction l generalizing s with
  | nil => rfl
  | cons d l ih =>
      obtain ⟨hd, hl'⟩ := List.nodup_cons.mp hl
      rw [List.foldl_cons, ih hl']
      obtain rfl | hne := eq_or_ne c d
      · simp [hd, Sys.update, Sys.setCall]
      · simp [hne, Sys.update, Sys.setCall]

@[simp] theorem pushBack_observers (s : Sys ι ρ) (p : PacketContent) :
    (s.pushBack cfg p).packetQueue.observers = s.packetQueue.observers :=
  foldl_update_observers p _ _

@[simp] theorem pushBack_watchDog (s : Sys ι ρ) (p : PacketContent) :
    (s.pushBack cfg p).watchDog = s.watchDog := (foldl_update_watchDog p _ _).1

@[simp] theorem pushBack_abort (s : Sys ι ρ) (p : PacketContent) :
    (s.pushBack cfg p).abort = s.abort := (foldl_update_watchDog p _ _).2

theorem pushBack_call {s : Sys ι ρ} (hs : WellFormed cfg s) (p : PacketContent) (c : ι) :
    (s.pushBack cfg p).call c =
      if (s.call c).pc.holdsObserver then (s.call c).update (cfg.command c) p
      else s.call c := by
  rw [Sys.pushBack, foldl_update_call p hs.nodup]
  simp only [hs.mem_iff]

@[simp] theorem cancelCommandWait_observers (s : Sys ι ρ) (c : ι) :
    (s.cancelCommandWait cfg c).packetQueue.observers = s.packetQueue.observers := by
  simp only [Sys.cancelCommandWait]
  split <;> rfl

/-- A watchdog notifies its addressee and touches no other call. -/
theorem cancelCommandWait_call (s : Sys ι ρ) (c d : ι) :
    (s.cancelCommandWait cfg c).call d =
      if s.addressee cfg c = some d then (s.call d).notifyOne else s.call d := by
  have hreset : Sys.addressee cfg { s with packetQueue := s.packetQueue.reset } c =
      s.addressee cfg c := rfl
  simp only [Sys.cancelCommandWait, hreset]
  cases s.addressee cfg c with
  | none => rfl
  | some target =>
      obtain rfl | hne := eq_or_ne d target
      · simp [Sys.setCall]
      · simp [Sys.setCall, hne, hne.symm]

@[simp] theorem watchDogEffect_watchDog (c : ι) (s : Sys ι ρ) (move : WatchDogMove) :
    (s.watchDogEffect cfg c move).watchDog = s.watchDog := by
  cases move with
  | cancelCommandWait =>
      simp only [Sys.watchDogEffect, Sys.cancelCommandWait]
      split <;> rfl
  | _ => rfl

theorem step_abort {s s' : Sys ι ρ} {a : Action ι} (h : step cfg s a = some s') :
    s.abort = none := by
  unfold step at h
  split at h
  · exact absurd h (by simp)
  · assumption

theorem step_sender {s s' : Sys ι ρ} {c : ι} {move : Move}
    (h : step cfg s (.sender c move) = some s') :
    ∃ pc, (s.call c).pc.next (cfg.command c) (s.watchDog c) move = some pc ∧
      s' = (s.setCall c { s.call c with pc := pc }).effect cfg c move := by
  obtain ⟨pc, hpc, rfl⟩ : ∃ pc, (s.call c).pc.next (cfg.command c) (s.watchDog c) move = some pc ∧
      (s.setCall c { s.call c with pc := pc }).effect cfg c move = s' := by
    simpa [step, step_abort h] using h
  exact ⟨pc, hpc, rfl⟩

theorem step_watchDog {s s' : Sys ι ρ} {c : ι} {move : WatchDogMove}
    (h : step cfg s (.watchDog c move) = some s') :
    ∃ w, (s.watchDog c).next move = some w ∧
      s' = (s.setWatchDog c w).watchDogEffect cfg c move := by
  obtain ⟨w, hw, rfl⟩ : ∃ w, (s.watchDog c).next move = some w ∧
      (s.setWatchDog c w).watchDogEffect cfg c move = s' := by
    simpa [step, step_abort h] using h
  exact ⟨w, hw, rfl⟩

theorem step_pushBack {s s' : Sys ι ρ} {p : PacketContent}
    (h : step cfg s (.pushBack p) = some s') : s' = s.pushBack cfg p := by
  obtain rfl : s.pushBack cfg p = s' := by simpa [step, step_abort h] using h
  rfl

/-- The observer list changes at an attach and at a detach only. -/
theorem step_observers {s s' : Sys ι ρ} {a : Action ι} (h : step cfg s a = some s') :
    s'.packetQueue.observers = observersAfter s.packetQueue.observers a := by
  cases a with
  | sender c move =>
      obtain ⟨pc, -, rfl⟩ := step_sender h
      exact effect_observers c _ move
  | watchDog c move =>
      obtain ⟨w, -, rfl⟩ := step_watchDog h
      cases move with
      | cancelCommandWait => exact cancelCommandWait_observers _ c
      | _ => rfl
  | pushBack p => exact step_pushBack h ▸ pushBack_observers s p

/-- What a step of the system means to the watchdog of `c`. -/
theorem step_watchDog_eq {s s' : Sys ι ρ} {a : Action ι} (h : step cfg s a = some s') (c : ι) :
    s'.watchDog c = s.watchDog c ∨
      (∃ move, a = .sender c move ∧
        s'.watchDog c = (s.watchDog c).afterMove cfg.enableWatchDog move) ∨
      ∃ move, a = .watchDog c move ∧ (s.watchDog c).next move = some (s'.watchDog c) := by
  cases a with
  | sender d move =>
      obtain ⟨pc, -, rfl⟩ := step_sender h
      obtain rfl | hne := eq_or_ne c d
      · exact Or.inr (Or.inl ⟨move, rfl, by simp [Sys.setCall]⟩)
      · exact Or.inl (by simp [Sys.setCall, hne])
  | watchDog d move =>
      obtain ⟨w, hw, rfl⟩ := step_watchDog h
      obtain rfl | hne := eq_or_ne c d
      · exact Or.inr (Or.inr ⟨move, rfl, by simpa [Sys.setWatchDog] using hw⟩)
      · exact Or.inl (by simp [Sys.setWatchDog, hne])
  | pushBack p => exact Or.inl (by rw [step_pushBack h, pushBack_watchDog])

/-- What a step of the system means to the call `c`. -/
inductive CallStep (cfg : Config ι ρ) (s : Sys ι ρ) (c : ι) : Action ι → Call ρ → Prop where
  | moved (move : Move) (pc : Pc)
      (hnext : (s.call c).pc.next (cfg.command c) (s.watchDog c) move = some pc) :
      CallStep cfg s c (.sender c move) { s.call c with pc := pc }
  | updated (p : PacketContent) (hpc : (s.call c).pc.holdsObserver = true) :
      CallStep cfg s c (.pushBack p) ((s.call c).update (cfg.command c) p)
  | missed (p : PacketContent) (hpc : (s.call c).pc.holdsObserver = false) :
      CallStep cfg s c (.pushBack p) (s.call c)
  | notified (d : ι) (htarget : s.addressee cfg d = some c) :
      CallStep cfg s c (.watchDog d .cancelCommandWait) (s.call c).notifyOne
  | unchanged (a : Action ι) (hsender : ∀ move, a ≠ .sender c move)
      (hpush : ∀ p, a ≠ .pushBack p) : CallStep cfg s c a (s.call c)

theorem callStep {s s' : Sys ι ρ} {a : Action ι} (hs : WellFormed cfg s)
    (h : step cfg s a = some s') (c : ι) : CallStep cfg s c a (s'.call c) := by
  cases a with
  | sender d move =>
      obtain ⟨pc, hnext, rfl⟩ := step_sender h
      obtain rfl | hne := eq_or_ne c d
      · simpa [Sys.setCall] using CallStep.moved move pc hnext
      · have hother : ∀ m, Action.sender d move ≠ .sender c m := by simp [hne.symm]
        simpa [Sys.setCall, hne] using CallStep.unchanged (.sender d move) hother (by simp)
  | watchDog d move =>
      obtain ⟨w, -, rfl⟩ := step_watchDog h
      cases move with
      | cancelCommandWait =>
          have hcall := @cancelCommandWait_call ι ρ _ cfg (s.setWatchDog d w) d c
          rw [Sys.watchDogEffect, hcall]
          split
          · rename_i htarget
            exact .notified d htarget
          · exact .unchanged _ (by simp) (by simp)
      | _ => exact .unchanged _ (by simp) (by simp)
  | pushBack p =>
      rw [step_pushBack h, pushBack_call hs]
      split
      · exact .updated p (by assumption)
      · rename_i hpc
        exact .missed p (Bool.not_eq_true _ ▸ hpc)

omit [DecidableEq ι] in
theorem wellFormed_init (cfg : Config ι ρ) : WellFormed cfg (Sys.init cfg) where
  nodup := List.nodup_nil
  mem_iff _ := by simp [Sys.init, Pc.holdsObserver]
  traced _ := ⟨rfl, fun _ => rfl⟩

theorem nodup_step {s s' : Sys ι ρ} {a : Action ι} (hs : WellFormed cfg s)
    (h : step cfg s a = some s') : s'.packetQueue.observers.Nodup := by
  rw [step_observers h]
  unfold observersAfter
  split
  · rename_i c
    obtain ⟨pc, hnext, -⟩ := step_sender h
    have hc : c ∉ s.packetQueue.observers := by
      simp [hs.mem_iff, (next_attach hnext).1, Pc.holdsObserver]
    rw [← List.concat_eq_append]
    exact List.Nodup.concat hc hs.nodup
  · exact hs.nodup.erase _
  · exact hs.nodup

/-- A call gets its observer at its attach and loses it at its detach. -/
theorem CallStep.holdsObserver {s : Sys ι ρ} {c : ι} {a : Action ι} {k : Call ρ}
    (h : CallStep cfg s c a k) :
    k.pc.holdsObserver =
      if a = .sender c .attach then true
      else if a = .sender c .detach then false
      else (s.call c).pc.holdsObserver := by
  cases h with
  | moved move pc hnext =>
      have hpc := next_holdsObserver hnext
      cases move <;> simp_all
  | updated p hpc => simp
  | missed p hpc => simp
  | notified d htarget => simp
  | unchanged a hsender hpush => simp [hsender]

theorem CallStep.mem_iff {s : Sys ι ρ} {c : ι} {a : Action ι} {k : Call ρ}
    (hs : WellFormed cfg s) (h : CallStep cfg s c a k) :
    c ∈ observersAfter s.packetQueue.observers a ↔ k.pc.holdsObserver = true := by
  rw [h.holdsObserver]
  have hmem := hs.mem_iff c
  unfold observersAfter
  split
  · rename_i d
    obtain rfl | hne := eq_or_ne c d
    · simp
    · simpa [hne, hne.symm] using hmem
  · rename_i d
    obtain rfl | hne := eq_or_ne c d
    · simp [hs.nodup.mem_erase_iff]
    · simpa [List.mem_erase_of_ne hne, hne.symm] using hmem
  · rename_i hattach hdetach
    rw [if_neg (hattach c), if_neg (hdetach c)]
    exact hmem

omit [DecidableEq ι] in
theorem CallStep.traced {s : Sys ι ρ} {c : ι} {a : Action ι} {k : Call ρ}
    (hs : WellFormed cfg s) (h : CallStep cfg s c a k) : k.Traced (cfg.command c) := by
  have htraced := hs.traced c
  cases h with
  | moved move pc hnext =>
      exact ⟨htraced.captured_eq, fun hpc => htraced.fresh (next_beforeAttach hnext hpc)⟩
  | updated p hpc =>
      constructor
      · rw [Call.update_captured, Call.update_delivered, Judge.final_snoc, htraced.captured_eq]
      · intro hbefore
        rw [Call.update_beforeAttach, Pc.beforeAttach_eq_false hpc] at hbefore
        exact absurd hbefore Bool.false_ne_true
  | missed p hpc => exact htraced
  | notified d htarget =>
      exact ⟨htraced.captured_eq, fun hpc => htraced.fresh (by simpa using hpc)⟩
  | unchanged a hsender hpush => exact htraced

/-- Every step keeps the system well formed. -/
theorem WellFormed.step {s s' : Sys ι ρ} {a : Action ι} (hs : WellFormed cfg s)
    (h : AsyncSend.step cfg s a = some s') : WellFormed cfg s' where
  nodup := nodup_step hs h
  mem_iff c := step_observers h ▸ (callStep hs h c).mem_iff hs
  traced c := (callStep hs h c).traced hs

theorem wellFormed_of_exec {s t : Sys ι ρ} {acts : List (Action ι)} (hs : WellFormed cfg s)
    (hrun : StepSystem.exec (step cfg) s acts = some t) : WellFormed cfg t :=
  StepSystem.exec_invariant (fun _ _ _ hI h => hI.step h) hs hrun

end RfidEngine.AsyncSend
