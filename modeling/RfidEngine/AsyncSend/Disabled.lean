import RfidEngine.AsyncSend.Release
import RfidEngine.Lib.Simulation

/-!
# AsyncSend without a watchdog

With the setting off the thread object of the watchdog is the default one, and
the join at the end of `AsyncSend` throws. Up to the join the sender, its
observer and the packets do as they do beside a watchdog that does not expire.

## Main results

A run of calls whose watchdogs do not expire is, without the watchdogs' steps,
one of the same calls with the setting off: the same packets are shown to the
callbacks, and each call that returns there throws here. So the two settings
never have the same outcome.
-/

namespace RfidEngine.AsyncSend

open StepSystem

variable {ι ρ : Type*}

/-- The end of a call in a world without watchdogs. -/
def Pc.unjoined : Pc → Pc
  | .returned _ => .raised .join
  | pc => pc

/-- A call beside a watchdog and the same call without one. -/
structure Mirrors (k k' : Call ρ) : Prop where
  pc : k'.pc = k.pc.unjoined
  captured : k'.captured = k.captured
  delivered : k'.delivered = k.delivered

/-- A call returns normally in both states, with the same value and after the same calls of its
callback. -/
structure SameOutcome (s t : Sys ι ρ) (c : ι) : Prop where
  returned : ∃ nSend, (s.call c).pc = .returned nSend ∧ (t.call c).pc = .returned nSend
  captured : (t.call c).captured = (s.call c).captured
  delivered : (t.call c).delivered = (s.call c).delivered

/-- A step of a thread that is there under both settings. -/
def Action.isShared : Action ι → Bool
  | .watchDog _ _ => false
  | _ => true

/-- No watchdog expires in the run. -/
def NoExpiry (acts : List (Action ι)) : Prop := ∀ c, .watchDog c .cancelCommandWait ∉ acts

/-- A system with watchdogs and the same system without them. -/
structure Unwatched (s t : Sys ι ρ) : Prop where
  packetQueue : t.packetQueue = s.packetQueue
  call : ∀ c, Mirrors (s.call c) (t.call c)
  phase : ∀ c, (t.watchDog c).phase = .notStarted
  abort : s.abort = none → t.abort = none

theorem Pc.notifyOne_unjoined (pc : Pc) : pc.unjoined.notifyOne = pc.notifyOne.unjoined := by
  cases pc <;> rfl

theorem Mirrors.update {k k' : Call ρ} (h : Mirrors k k') (cmd : Command ρ) (p : PacketContent) :
    Mirrors (k.update cmd p) (k'.update cmd p) where
  pc := by
    rw [Call.update_pc, Call.update_pc, h.captured, h.pc]
    split
    · exact Pc.notifyOne_unjoined k.pc
    · rfl
  captured := by rw [Call.update_captured, Call.update_captured, h.captured]
  delivered := by rw [Call.update_delivered, Call.update_delivered, h.delivered]

/-- Only the join looks at the watchdog. -/
theorem next_eq_of_ne_join {move : Move} (hmove : move ≠ .join) (cmd : Command ρ)
    (w w' : WatchDog) (pc : Pc) : pc.next cmd w move = pc.next cmd w' move := by
  cases pc <;> cases move <;> first | rfl | exact absurd rfl hmove

/-- Only the join returns, and behind the return there is no step. -/
theorem unjoined_of_ne_join {cmd : Command ρ} {w : WatchDog} {pc pc' : Pc} {move : Move}
    (h : pc.next cmd w move = some pc') (hmove : move ≠ .join) :
    pc.unjoined = pc ∧ pc'.unjoined = pc' := by
  unfold Pc.next at h
  split at h <;> grind [Pc.unjoined]

theorem next_join {cmd : Command ρ} {w : WatchDog} {pc pc' : Pc}
    (h : pc.next cmd w .join = some pc') :
    ∃ result, pc = .cancelSet result ∧ pc'.unjoined = .raised .join := by
  unfold Pc.next at h
  split at h <;> grind [Pc.unjoined]

/-- A step of a sender is also one without a watchdog, and the join is the throw. -/
theorem next_unjoined {cmd : Command ρ} {w w' : WatchDog} {pc pc' : Pc} {move : Move}
    (h : pc.next cmd w move = some pc') (hw : w'.phase = .notStarted) :
    pc.unjoined.next cmd w' move = some pc'.unjoined := by
  by_cases hmove : move = .join
  · subst hmove
    obtain ⟨result, rfl, hraised⟩ := next_join h
    rw [hraised]
    simp [Pc.unjoined, Pc.next, hw]
  · obtain ⟨hpc, hpc'⟩ := unjoined_of_ne_join h hmove
    rw [hpc, hpc', next_eq_of_ne_join hmove cmd w' w pc]
    exact h

namespace Unwatched

variable {s t : Sys ι ρ}

theorem setPacketQueue (h : Unwatched s t) {q q' : PacketQueue ι} (hq : q' = q) :
    Unwatched { s with packetQueue := q } { t with packetQueue := q' } where
  packetQueue := hq
  call := h.call
  phase := h.phase
  abort := h.abort

theorem setAbort (h : Unwatched s t) (abort : Abort) (abort' : Option Abort) :
    Unwatched { s with abort := some abort } { t with abort := abort' } where
  packetQueue := h.packetQueue
  call := h.call
  phase := h.phase
  abort := nofun

variable [DecidableEq ι] {cfg cfg' : Config ι ρ}

theorem setWatchDog (h : Unwatched s t) (c : ι) (w : WatchDog) {w' : WatchDog}
    (hw : w'.phase = .notStarted) : Unwatched (s.setWatchDog c w) (t.setWatchDog c w') where
  packetQueue := h.packetQueue
  call := h.call
  phase d := by
    obtain rfl | hne := eq_or_ne d c
    · simpa [Sys.setWatchDog] using hw
    · simpa [Sys.setWatchDog, hne] using h.phase d
  abort := h.abort

theorem setCall (h : Unwatched s t) (c : ι) {k k' : Call ρ} (hk : Mirrors k k') :
    Unwatched (s.setCall c k) (t.setCall c k') where
  packetQueue := h.packetQueue
  call d := by
    obtain rfl | hne := eq_or_ne d c
    · simpa [Sys.setCall] using hk
    · simpa [Sys.setCall, hne] using h.call d
  phase := h.phase
  abort := h.abort

/-- The update of an observer. -/
theorem update (h : Unwatched s t) (hcommand : cfg'.command = cfg.command) (p : PacketContent)
    (c : ι) : Unwatched (s.update cfg p c) (t.update cfg' p c) := by
  have hcalled := h.setCall c ((h.call c).update (cfg.command c) p)
  have hqueue : t.packetQueue.pop.2 = s.packetQueue.pop.2 := by rw [h.packetQueue]
  simp only [Sys.update, hcommand]
  exact hcalled.setPacketQueue hqueue

theorem foldl_update (hcommand : cfg'.command = cfg.command) (p : PacketContent) (l : List ι)
    {s t : Sys ι ρ} (h : Unwatched s t) :
    Unwatched (l.foldl (Sys.update cfg p) s) (l.foldl (Sys.update cfg' p) t) := by
  induction l generalizing s t with
  | nil => exact h
  | cons c l ih => exact ih (h.update hcommand p c)

theorem pushBack (h : Unwatched s t) (hcommand : cfg'.command = cfg.command)
    (p : PacketContent) : Unwatched (s.pushBack cfg p) (t.pushBack cfg' p) := by
  have hqueued : t.packetQueue.enqueue p = s.packetQueue.enqueue p := by rw [h.packetQueue]
  rw [Sys.pushBack, Sys.pushBack, h.packetQueue]
  exact foldl_update hcommand p _ (h.setPacketQueue (h.packetQueue ▸ hqueued))

/-- What a step of a sender does outside its own place; only with a watchdog can it abort at the
send. -/
theorem effect (h : Unwatched s t) (hwatched : cfg'.enableWatchDog = false) (c : ι)
    (move : Move) : Unwatched (s.effect cfg c move) (t.effect cfg' c move) := by
  have hphase : ((t.watchDog c).afterMove cfg'.enableWatchDog move).phase = .notStarted := by
    rw [hwatched]
    have hnot := h.phase c
    cases move <;> simp [WatchDog.afterMove, hnot]
  have hset := h.setWatchDog c ((s.watchDog c).afterMove cfg.enableWatchDog move) hphase
  cases move with
  | attach => exact hset.setPacketQueue (congrArg (·.attach c) h.packetQueue)
  | send outcome =>
      have hstays : t.effect cfg' c (.send outcome) =
          t.setWatchDog c ((t.watchDog c).afterMove cfg'.enableWatchDog (.send outcome)) :=
        if_neg fun hterminate => hterminate.2 (by simpa [Sys.setWatchDog] using hphase)
      rw [hstays]
      simp only [Sys.effect]
      split
      · exact hset.setAbort .terminate _
      · exact hset
  | detach =>
      have hdetach : t.packetQueue.detach c = s.packetQueue.detach c := by rw [h.packetQueue]
      simp only [Sys.effect, Sys.setWatchDog, hdetach]
      cases s.packetQueue.detach c with
      | some q => exact hset.setPacketQueue rfl
      | none => exact hset.setAbort .undefinedBehaviour _
  | _ => exact hset

/-- A step of a shared thread is taken under both settings. -/
theorem step (h : Unwatched s t) (hcommand : cfg'.command = cfg.command)
    (hwatched : cfg'.enableWatchDog = false) {a : Action ι} (ha : a.isShared = true)
    {s' : Sys ι ρ} (hstep : AsyncSend.step cfg s a = some s') :
    ∃ t', AsyncSend.step cfg' t a = some t' ∧ Unwatched s' t' := by
  have habort := h.abort (step_abort hstep)
  cases a with
  | sender c move =>
      obtain ⟨pc, hnext, rfl⟩ := step_sender hstep
      have hnext' := next_unjoined hnext (h.phase c)
      rw [← (h.call c).pc, ← hcommand] at hnext'
      have hmirrors : Mirrors { s.call c with pc := pc } { t.call c with pc := pc.unjoined } :=
        ⟨rfl, (h.call c).captured, (h.call c).delivered⟩
      refine ⟨_, ?_, (h.setCall c hmirrors).effect hwatched c move⟩
      simp [AsyncSend.step, habort, hnext']
  | watchDog c move => exact absurd ha Bool.false_ne_true
  | pushBack p =>
      rw [step_pushBack hstep]
      exact ⟨t.pushBack cfg' p, by simp [AsyncSend.step, habort], h.pushBack hcommand p⟩

/-- A step of a watchdog that does not expire leaves everything else as it is. -/
theorem skip (h : Unwatched s t) {a : Action ι} (ha : a.isShared = false)
    (hexpiry : ∀ c, a ≠ .watchDog c .cancelCommandWait) {s' : Sys ι ρ}
    (hstep : AsyncSend.step cfg s a = some s') : Unwatched s' t := by
  cases a with
  | watchDog c move =>
      obtain ⟨w, -, rfl⟩ := step_watchDog hstep
      cases move with
      | cancelCommandWait => exact absurd rfl (hexpiry c)
      | _ => exact ⟨h.packetQueue, h.call, h.phase, h.abort⟩
  | _ => exact absurd ha.symm Bool.false_ne_true

end Unwatched

theorem unwatched_init {cfg cfg' : Config ι ρ} (hcommand : cfg'.command = cfg.command) :
    Unwatched (Sys.init cfg) (Sys.init cfg') where
  packetQueue := rfl
  call c := by
    rw [Sys.init, Sys.init, hcommand]
    exact ⟨rfl, rfl, rfl⟩
  phase _ := rfl
  abort := id

variable [DecidableEq ι]

/-- Without the steps of its watchdogs a run in which none expires is one with the setting off. -/
theorem exec_unwatched {cfg cfg' : Config ι ρ} (hcommand : cfg'.command = cfg.command)
    (hwatched : cfg'.enableWatchDog = false) {acts : List (Action ι)} {s : Sys ι ρ}
    (hrun : exec (step cfg) (Sys.init cfg) acts = some s) (hexpiry : NoExpiry acts) :
    ∃ t, exec (step cfg') (Sys.init cfg') (acts.filter Action.isShared) = some t ∧
      Unwatched s t := by
  refine exec_filter_of_simulates (fun _ _ _ _ h ha hstep => h.step hcommand hwatched ha hstep)
    (fun _ _ a _ hmem h ha hstep => h.skip ha (fun c heq => ?_) hstep)
    (unwatched_init hcommand) hrun
  exact hexpiry c (heq ▸ hmem)

/-- With the setting off no watchdog is ever started. -/
theorem phase_of_exec {cfg : Config ι ρ} (hwatched : cfg.enableWatchDog = false)
    {acts : List (Action ι)} {t : Sys ι ρ}
    (hrun : exec (step cfg) (Sys.init cfg) acts = some t) (c : ι) :
    (t.watchDog c).phase = .notStarted := by
  refine exec_invariant (I := fun t : Sys ι ρ => (t.watchDog c).phase = .notStarted)
    (fun s a s' hs h => ?_) rfl hrun
  obtain heq | ⟨move, -, heq⟩ | ⟨move, -, hnext⟩ := step_watchDog_eq h c
  · rw [heq, hs]
  · rw [heq, hwatched]
    cases move <;> simp [WatchDog.afterMove, hs]
  · exact absurd hnext (watchDog_next_eq_none (Or.inl hs) move ▸ (by simp))

/-- With the setting off no call ever returns. -/
theorem not_returned_of_exec {cfg : Config ι ρ} (hwatched : cfg.enableWatchDog = false)
    {acts : List (Action ι)} {t : Sys ι ρ}
    (hrun : exec (step cfg) (Sys.init cfg) acts = some t) (c : ι) (nSend : Int) :
    (t.call c).pc ≠ .returned nSend := by
  intro hpc
  have hjoined := (joined_of_exec hrun).returned nSend hpc
  rw [phase_of_exec hwatched hrun c] at hjoined
  exact Phase.noConfusion hjoined

/-- Whatever the commands, the settings never have the same outcome: with it off no call returns.
Up to that a run in which no watchdog expires has its counterpart, in which the same packets are
shown to the same callbacks and a call that returns throws. -/
theorem setting_changes_outcome (command : ι → Command ρ) :
    (∀ acts t, exec (step ⟨false, command⟩) (Sys.init ⟨false, command⟩) acts = some t →
      ∀ s c, ¬ SameOutcome s t c) ∧
    ∀ acts s, exec (step ⟨true, command⟩) (Sys.init ⟨true, command⟩) acts = some s →
      NoExpiry acts →
      ∃ t, exec (step ⟨false, command⟩) (Sys.init ⟨false, command⟩)
          (acts.filter Action.isShared) = some t ∧
        ∀ c, Mirrors (s.call c) (t.call c) := by
  constructor
  · intro acts t hrun s c hsame
    obtain ⟨nSend, -, hreturned⟩ := hsame.returned
    exact not_returned_of_exec rfl hrun c nSend hreturned
  · intro acts s hrun hexpiry
    obtain ⟨t, ht, hunwatched⟩ :=
      @exec_unwatched ι ρ _ ⟨true, command⟩ ⟨false, command⟩ rfl rfl acts s hrun hexpiry
    exact ⟨t, ht, hunwatched.call⟩

/-- The version query with the setting off. -/
def unwatchedQuery : Config Unit Str := ⟨false, versionQuery.command⟩

/-- The answered query with the steps of its watchdog left out. -/
def answeredUnwatched : List (Action Unit) := answered.filter Action.isShared

theorem setting_changes_answered :
    ¬ SameOutcome (stateAfter versionQuery answered)
        (stateAfter unwatchedQuery answeredUnwatched) () ∧
      ∃ t, exec (step unwatchedQuery) (Sys.init unwatchedQuery) answeredUnwatched = some t ∧
        ∀ c, Mirrors ((stateAfter versionQuery answered).call c) (t.call c) := by
  have hwatched : exec (step versionQuery) (Sys.init versionQuery) answered =
      some (stateAfter versionQuery answered) := rfl
  have hunwatched : exec (step unwatchedQuery) (Sys.init unwatchedQuery) answeredUnwatched =
      some (stateAfter unwatchedQuery answeredUnwatched) := rfl
  have hexpiry : NoExpiry answered := by
    intro c
    cases c
    decide
  have hmain := setting_changes_outcome versionQuery.command
  exact ⟨hmain.1 _ _ hunwatched _ (), hmain.2 answered _ hwatched hexpiry⟩

/-- The answered query returns 3 with a watchdog, and throws at the join without one. -/
theorem answered_throws_unwatched :
    ((stateAfter versionQuery answered).call ()).pc = .returned 3 ∧
      ((stateAfter unwatchedQuery answeredUnwatched).call ()).pc = .raised .join ∧
      ¬ SameOutcome (stateAfter versionQuery answered)
        (stateAfter unwatchedQuery answeredUnwatched) () := by
  have hraised : ((stateAfter unwatchedQuery answeredUnwatched).call ()).pc = .raised .join :=
    rfl
  refine ⟨rfl, hraised, fun h => ?_⟩
  obtain ⟨nSend, -, hreturned⟩ := h.returned
  exact absurd (hraised.symm.trans hreturned) nofun

end RfidEngine.AsyncSend
