import RfidEngine.AsyncSend.Release
import RfidEngine.AsyncSend.Expiry
import RfidEngine.Lib.FairRun

/-!
# What the watchdog gives a call

`wait` has no timeout: the notification of the watchdog is all that ends it when
no packet does. The watchdog fires once. A call whose threads run again and
again ends, or the process aborts, or the one expiry comes where it does not
reach the wait of its own call.
-/

namespace RfidEngine.AsyncSend

open FairRun

variable {ι ρ : Type*}

/-- The steps a sender has before it, each wait counted as one. -/
def Pc.rank : Pc → Nat
  | .notStarted => 9
  | .launched => 8
  | .attached => 7
  | .sent _ => 6
  | .waiting _ => 5
  | .woken _ => 4
  | .leaving _ => 3
  | .detached _ => 2
  | .cancelSet _ => 1
  | .returned _ | .raised _ => 0

/-- The steps a watchdog has before it: two for each round. -/
def Phase.rank : Phase → Nat
  | .notStarted => 1700
  | .sleeping millisec => 2 * (millisec / resolution).toNat + 5
  | .testing millisec => 2 * (millisec / resolution).toNat + 4
  | .triggered => 3
  | .finished => 2
  | .joined => 1

/-- The timer of a watchdog has not been wound up. -/
def Phase.Bounded : Phase → Prop
  | .sleeping millisec | .testing millisec => millisec ≤ timerCount
  | _ => True

theorem Phase.Bounded.rank_lt {phase : Phase} (h : phase.Bounded) : phase.rank < 2000 := by
  cases phase with
  | sleeping millisec | testing millisec =>
      simp only [Phase.Bounded, timerCount] at h
      simp only [Phase.rank, resolution]
      omega
  | _ => decide

/-- Every step of a sender but the first half of a wait leads to a later place. -/
theorem next_rank {cmd : Command ρ} {w : WatchDog} {pc pc' : Pc} {move : Move}
    (h : pc.next cmd w move = some pc') : pc'.rank < pc.rank := by
  unfold Pc.next at h
  split at h <;> grind [Pc.rank]

theorem Pc.notifyOne_rank (pc : Pc) : pc.notifyOne = pc ∨ pc.notifyOne.rank < pc.rank := by
  cases pc with
  | waiting result => exact Or.inr (by decide : 4 < 5)
  | _ => exact Or.inl rfl

theorem WatchDog.next_rank {w w' : WatchDog} {move : WatchDogMove} (h : w.next move = some w') :
    w'.phase.rank < w.phase.rank := by
  unfold WatchDog.next at h
  split at h <;> split at h <;> grind [Phase.rank, resolution]

theorem WatchDog.next_bounded {w w' : WatchDog} {move : WatchDogMove}
    (h : w.next move = some w') (hw : w.phase.Bounded) : w'.phase.Bounded := by
  unfold WatchDog.next at h
  split at h <;> split at h <;> grind [Phase.Bounded, resolution]

/-- The sender has not been woken: its wait is still to come or under way. -/
def Pc.beforeWake : Pc → Bool
  | .notStarted | .launched | .attached | .sent _ | .waiting _ => true
  | _ => false

@[simp] theorem Pc.notifyOne_ended (pc : Pc) : pc.notifyOne.ended = pc.ended := by
  cases pc <;> rfl

theorem Pc.notifyOne_eq_notStarted {pc : Pc} : pc.notifyOne = .notStarted ↔ pc = .notStarted := by
  cases pc <;> simp [Pc.notifyOne]

/-- A notification does not take a sender back before its wait. -/
theorem beforeWake_of_notifyOne {pc pc' : Pc} (h : pc' = pc ∨ pc' = pc.notifyOne)
    (hpc : pc'.beforeWake = true) : pc.beforeWake = true := by
  obtain rfl | rfl := h
  · exact hpc
  · cases pc <;> first | exact hpc | rfl

variable [DecidableEq ι] {cfg : Config ι ρ}

/-- What a step means to the place of a sender and to its watchdog together. -/
theorem step_pair {s s' : Sys ι ρ} {a : Action ι} (hs : WellFormed cfg s)
    (h : step cfg s a = some s') (c : ι) :
    (∃ move, a = .sender c move ∧
      (s.call c).pc.next (cfg.command c) (s.watchDog c) move = some (s'.call c).pc ∧
      s'.watchDog c = (s.watchDog c).afterMove cfg.enableWatchDog move) ∨
    (((s'.call c).pc = (s.call c).pc ∨ (s'.call c).pc = (s.call c).pc.notifyOne) ∧
      (s'.watchDog c = s.watchDog c ∨
        ∃ move, a = .watchDog c move ∧ (s.watchDog c).next move = some (s'.watchDog c))) := by
  by_cases hsender : ∃ move, a = .sender c move
  · obtain ⟨move, rfl⟩ := hsender
    obtain ⟨pc, hnext, rfl⟩ := step_sender h
    exact Or.inl ⟨move, rfl, by simpa [Sys.setCall] using hnext, by simp [Sys.setCall]⟩
  · have hother : ∀ move, a ≠ .sender c move := not_exists.mp hsender
    refine Or.inr ⟨?_, ?_⟩
    · have hcall := callStep hs h c
      generalize s'.call c = k at hcall ⊢
      cases hcall with
      | moved move pc hnext => exact absurd rfl (hother move)
      | updated p hpc =>
          rw [Call.update_pc]
          split
          · exact Or.inr rfl
          · exact Or.inl rfl
      | notified d htarget => exact Or.inr rfl
      | _ => exact Or.inl rfl
    · obtain hsame | ⟨move, rfl, -⟩ | hmove := step_watchDog_eq h c
      · exact Or.inl hsame
      · exact absurd rfl (hother move)
      · exact Or.inr hmove

/-- What is known of a call with a watchdog and of the watchdog at every instant. -/
structure Timed (cfg : Config ι ρ) (c : ι) (s : Sys ι ρ) : Prop where
  wellFormed : WellFormed cfg s
  unstarted : (s.watchDog c).phase = .notStarted ↔ (s.call c).pc = .notStarted
  bounded : (s.watchDog c).phase.Bounded
  joined : (s.watchDog c).phase = .joined → (s.call c).pc.ended = true
  uncancelled : (s.call c).pc.beforeWake = true → (s.watchDog c).cancel = false

omit [DecidableEq ι] in
theorem timed_init (cfg : Config ι ρ) (c : ι) : Timed cfg c (Sys.init cfg) :=
  ⟨wellFormed_init cfg, iff_of_true rfl rfl, trivial, nofun, fun _ => rfl⟩

/-- A step of the sender starts the watchdog at the launch and joins it at the end. -/
theorem next_timed {cmd : Command ρ} {w : WatchDog} {pc pc' : Pc} {move : Move}
    (h : pc.next cmd w move = some pc')
    (hunstarted : w.phase = .notStarted ↔ pc = .notStarted) (hbounded : w.phase.Bounded)
    (hjoined : w.phase = .joined → pc.ended = true)
    (huncancelled : pc.beforeWake = true → w.cancel = false) :
    ((w.afterMove true move).phase = .notStarted ↔ pc' = .notStarted) ∧
      (w.afterMove true move).phase.Bounded ∧
      ((w.afterMove true move).phase = .joined → pc'.ended = true) ∧
      (pc'.beforeWake = true → (w.afterMove true move).cancel = false) := by
  unfold Pc.next at h
  split at h <;>
    grind [WatchDog.afterMove, Phase.Bounded, Pc.ended, Pc.beforeWake, timerCount]

theorem WatchDog.next_timed {w w' : WatchDog} {move : WatchDogMove} (h : w.next move = some w') :
    w.phase ≠ .notStarted ∧ w'.phase ≠ .notStarted ∧ w'.phase ≠ .joined ∧
      w'.cancel = w.cancel := by
  unfold WatchDog.next at h
  split at h <;> split at h <;> grind

theorem Timed.step (henable : cfg.enableWatchDog = true) {c : ι} {s s' : Sys ι ρ} {a : Action ι}
    (hs : Timed cfg c s) (h : AsyncSend.step cfg s a = some s') : Timed cfg c s' := by
  have hwf := hs.wellFormed.step h
  obtain ⟨move, -, hnext, hdog⟩ | ⟨hpc, hdog⟩ := step_pair hs.wellFormed h c
  · rw [henable] at hdog
    obtain ⟨hunstarted, hbounded, hjoined, huncancelled⟩ :=
      next_timed hnext hs.unstarted hs.bounded hs.joined hs.uncancelled
    exact ⟨hwf, hdog ▸ hunstarted, hdog ▸ hbounded, hdog ▸ hjoined, hdog ▸ huncancelled⟩
  · have hstart : (s'.call c).pc = .notStarted ↔ (s.call c).pc = .notStarted := by
      obtain hpc | hpc := hpc
      · rw [hpc]
      · rw [hpc, Pc.notifyOne_eq_notStarted]
    have hended : (s'.call c).pc.ended = (s.call c).pc.ended := by
      obtain hpc | hpc := hpc
      · rw [hpc]
      · rw [hpc, Pc.notifyOne_ended]
    have hbefore : (s'.call c).pc.beforeWake = true → (s.watchDog c).cancel = false :=
      fun h => hs.uncancelled (beforeWake_of_notifyOne hpc h)
    obtain hdog | ⟨move, -, hmove⟩ := hdog
    · exact ⟨hwf, by rw [hdog, hstart, hs.unstarted], hdog ▸ hs.bounded,
        fun hj => hended.trans (hs.joined (hdog ▸ hj)), hdog ▸ hbefore⟩
    · obtain ⟨hstarted, hstarted', hjoined', hcancel⟩ := WatchDog.next_timed hmove
      refine ⟨hwf, ?_, WatchDog.next_bounded hmove hs.bounded, fun hj => absurd hj hjoined',
        fun h => hcancel.trans (hbefore h)⟩
      rw [hstart, ← hs.unstarted]
      exact iff_of_false hstarted' hstarted

/-- The call with its watchdog has this many steps before it. -/
def Sys.rank (c : ι) (s : Sys ι ρ) : Nat :=
  2000 * (s.call c).pc.rank + (s.watchDog c).phase.rank

/-- A step takes the call or its watchdog further, or leaves both where they are. -/
theorem Timed.rank_step (henable : cfg.enableWatchDog = true) {c : ι} {s s' : Sys ι ρ}
    {a : Action ι} (hs : Timed cfg c s) (h : AsyncSend.step cfg s a = some s') :
    s'.rank c < s.rank c ∨
      ((s'.call c).pc = (s.call c).pc ∧ s'.watchDog c = s.watchDog c ∧
        (∀ move, a ≠ .sender c move) ∧ ∀ move, a ≠ .watchDog c move) := by
  have hlater : (s'.call c).pc.rank < (s.call c).pc.rank → s'.rank c < s.rank c := by
    intro hless
    have hbound := (hs.step henable h).bounded.rank_lt
    simp only [Sys.rank]
    omega
  obtain ⟨move, -, hnext, -⟩ | ⟨hpc, hdog⟩ := step_pair hs.wellFormed h c
  · exact Or.inl (hlater (next_rank hnext))
  have hpc' : (s'.call c).pc = (s.call c).pc ∨ (s'.call c).pc.rank < (s.call c).pc.rank := by
    obtain hpc | hpc := hpc
    · exact Or.inl hpc
    · exact hpc ▸ (s.call c).pc.notifyOne_rank
  obtain hsame | hless := hpc'
  · obtain hdog' | ⟨move, -, hmove⟩ := hdog
    · by_cases hown : (∃ move, a = .sender c move) ∨ ∃ move, a = .watchDog c move
      · obtain ⟨move, rfl⟩ | ⟨move, rfl⟩ := hown
        · obtain ⟨pc, hnext, rfl⟩ := step_sender h
          have hless := next_rank hnext
          have hpc : pc = (s.call c).pc := by simpa [Sys.setCall] using hsame
          exact absurd (hpc ▸ hless) (Nat.lt_irrefl _)
        · obtain ⟨w, hw, rfl⟩ := step_watchDog h
          have hless := WatchDog.next_rank hw
          have heq : w = s.watchDog c := by simpa [Sys.setWatchDog] using hdog'
          exact absurd (heq ▸ hless) (Nat.lt_irrefl _)
      · obtain ⟨hsender, hdog⟩ := not_or.mp hown
        exact Or.inr ⟨hsame, hdog', not_exists.mp hsender, not_exists.mp hdog⟩
    · refine Or.inl ?_
      have hless := WatchDog.next_rank hmove
      simp only [Sys.rank, hsame]
      omega
  · exact Or.inl (hlater hless)

/-- Two attempts of the same move; what a send comes back with is up to the device. -/
def Move.Like : Move → Move → Prop
  | .send _, .send _ => True
  | move, move' => move = move'

/-- The threads of `c` run again and again: each comes back to each of its moves. An attempt of a
move that is not the next one of its thread changes nothing. -/
def Fair (c : ι) (sched : Nat → Action ι) : Prop :=
  ∀ n, (∀ move, move ≠ .spuriousWake →
      ∃ k, n ≤ k ∧ ∃ move', Move.Like move move' ∧ sched k = .sender c move') ∧
    ∀ move, ∃ k, n ≤ k ∧ sched k = .watchDog c move

/-- An action that is not possible leaves the system as it is. -/
def Sys.next (cfg : Config ι ρ) (s : Sys ι ρ) (a : Action ι) : Sys ι ρ :=
  (step cfg s a).getD s

/-- The system at an instant. -/
def stateOf (cfg : Config ι ρ) (sched : Nat → Action ι) (n : Nat) : Sys ι ρ :=
  stateAt (Sys.next cfg) sched (Sys.init cfg) n

/-- The call has ended or the process has aborted. -/
def Over (c : ι) (s : Sys ι ρ) : Prop := (s.call c).pc.ended = true ∨ s.abort ≠ none

/-- The watchdog of `c` expires where it does not wake `c`: before the wait, or in the wait while
another observer of the same command id comes first. -/
def Misses (cfg : Config ι ρ) (c : ι) (s : Sys ι ρ) (a : Action ι) : Prop :=
  a = .watchDog c .cancelCommandWait ∧ (s.watchDog c).phase = .triggered ∧ s.abort = none ∧
    (s.call c).pc.beforeWake = true ∧
    ((∃ result, (s.call c).pc = .waiting result) → s.addressee cfg c ≠ some c)

/-- The watchdog has run out and the wait is still to be ended. -/
def Deserted (c : ι) (s : Sys ι ρ) : Prop :=
  (s.watchDog c).phase = .finished ∧ (s.call c).pc.beforeWake = true

/-- The move of the sender that is due, unless it is the watchdog's turn. -/
def Pc.due (phase : Phase) : Pc → Option Move
  | .notStarted => some .launch
  | .launched => some .attach
  | .attached => some (.send .throws)
  | .sent result => some (if 0 ≤ result then .enterWait else .skipWait)
  | .waiting _ => none
  | .woken _ => some .leaveWait
  | .leaving _ => some .detach
  | .detached _ => some .setCancel
  | .cancelSet _ => if phase = .finished then some .join else none
  | .returned _ | .raised _ => none

/-- The move of the watchdog that is due. -/
def Phase.due : Phase → WatchDogMove
  | .sleeping _ => .sleep
  | .testing _ => .test
  | _ => .cancelCommandWait

/-- An attempt of the move that is due. -/
def Helpful (c : ι) (s : Sys ι ρ) (a : Action ι) : Prop :=
  match (s.call c).pc.due (s.watchDog c).phase with
  | some move => ∃ move', Move.Like move move' ∧ a = .sender c move'
  | none => a = .watchDog c (s.watchDog c).phase.due

omit [DecidableEq ι] in
theorem Pc.due_ne_spuriousWake {phase : Phase} {pc : Pc} {move : Move}
    (h : pc.due phase = some move) : move ≠ .spuriousWake := by
  unfold Pc.due at h
  split at h <;> grind

omit [DecidableEq ι] in
/-- A fair schedule comes back to the move that is due. -/
theorem Fair.helpful {c : ι} {sched : Nat → Action ι} (hfair : Fair c sched) (s : Sys ι ρ)
    (n : Nat) : ∃ k, n ≤ k ∧ Helpful c s (sched k) := by
  obtain ⟨hsender, hdog⟩ := hfair n
  unfold Helpful
  cases hdue : (s.call c).pc.due (s.watchDog c).phase with
  | some move => exact hsender move (Pc.due_ne_spuriousWake hdue)
  | none => exact hdog _

omit [DecidableEq ι] in
theorem next_due (cmd : Command ρ) {w : WatchDog} {pc : Pc} {move move' : Move}
    (hdue : pc.due w.phase = some move) (hlike : Move.Like move move') :
    ∃ pc', pc.next cmd w move' = some pc' := by
  cases pc with
  | attached =>
      obtain rfl : Move.send .throws = move := Option.some.inj hdue
      cases move' with
      | send outcome =>
          cases hcmd : cmd.cmd with
          | nil => exact ⟨.sent 0, by simp [Pc.next, hcmd]⟩
          | cons b rest =>
              cases outcome with
              | count nSend => exact ⟨.sent nSend, by simp [Pc.next, hcmd]⟩
              | throws => exact ⟨.raised .send, by simp [Pc.next, hcmd]⟩
      | _ => exact absurd hlike (by simp [Move.Like])
  | sent result =>
      obtain rfl := Option.some.inj hdue
      by_cases hresult : 0 ≤ result
      · rw [if_pos hresult] at hlike
        obtain rfl : .enterWait = move' := by simpa [Move.Like] using hlike
        exact ⟨.waiting result, by simp [Pc.next, hresult]⟩
      · rw [if_neg hresult] at hlike
        obtain rfl : .skipWait = move' := by simpa [Move.Like] using hlike
        exact ⟨.leaving result, by simp [Pc.next, hresult]⟩
  | cancelSet result =>
      by_cases hphase : w.phase = .finished
      · obtain rfl : .join = move := by simpa [Pc.due, hphase] using hdue
        obtain rfl : .join = move' := by simpa [Move.Like] using hlike
        exact ⟨.returned result, by simp [Pc.next, hphase]⟩
      · exact absurd hdue (by simp [Pc.due, hphase])
  | waiting result | returned result | raised fault => exact absurd hdue (by simp [Pc.due])
  | _ =>
      obtain rfl := Option.some.inj hdue
      obtain rfl := hlike
      exact ⟨_, rfl⟩

omit [DecidableEq ι] in
theorem WatchDog.next_due {w : WatchDog} (hstarted : w.phase ≠ .notStarted)
    (hfinished : w.phase ≠ .finished) (hjoined : w.phase ≠ .joined) :
    ∃ w', w.next w.phase.due = some w' := by
  cases hphase : w.phase with
  | sleeping millisec =>
      exact ⟨{ w with phase := .testing millisec }, by simp only [WatchDog.next, Phase.due, hphase]⟩
  | testing millisec =>
      simp only [WatchDog.next, Phase.due, hphase]
      split
      · exact ⟨_, rfl⟩
      · split <;> exact ⟨_, rfl⟩
  | triggered =>
      exact ⟨{ w with phase := .finished, isTriggerred := true },
        by simp only [WatchDog.next, Phase.due, hphase]⟩
  | notStarted => exact absurd hphase hstarted
  | finished => exact absurd hphase hfinished
  | joined => exact absurd hphase hjoined

/-- The due move of a call that is neither over nor deserted is possible. -/
theorem Timed.step_helpful {c : ι} {s : Sys ι ρ} {a : Action ι} (hs : Timed cfg c s)
    (hover : ¬ Over c s) (hdeserted : ¬ Deserted c s) (ha : Helpful c s a) :
    ∃ s', AsyncSend.step cfg s a = some s' := by
  obtain ⟨hended, habort⟩ := not_or.mp hover
  have habort : s.abort = none := not_not.mp habort
  unfold Helpful at ha
  cases hdue : (s.call c).pc.due (s.watchDog c).phase with
  | some move =>
      rw [hdue] at ha
      obtain ⟨move', hlike, rfl⟩ := ha
      obtain ⟨pc', hnext⟩ := next_due (cfg.command c) hdue hlike
      exact ⟨_, by simp only [AsyncSend.step, habort, hnext, Option.map_some]; rfl⟩
  | none =>
      rw [hdue] at ha
      subst ha
      have hplace : (∃ result, (s.call c).pc = .waiting result) ∨
          ((∃ result, (s.call c).pc = .cancelSet result) ∧
            (s.watchDog c).phase ≠ .finished) := by
        unfold Pc.due at hdue
        split at hdue <;> simp_all [Pc.ended]
      have hstarted : (s.watchDog c).phase ≠ .notStarted := by
        intro hphase
        have hpc := hs.unstarted.mp hphase
        obtain ⟨result, hwait⟩ | ⟨⟨result, hset⟩, -⟩ := hplace
        · exact absurd (hpc.symm.trans hwait) (by simp)
        · exact absurd (hpc.symm.trans hset) (by simp)
      have hfinished : (s.watchDog c).phase ≠ .finished := by
        obtain ⟨result, hwait⟩ | ⟨-, hphase⟩ := hplace
        · exact fun hphase => hdeserted ⟨hphase, by rw [hwait]; rfl⟩
        · exact hphase
      obtain ⟨w, hw⟩ := WatchDog.next_due hstarted hfinished fun hj => hended (hs.joined hj)
      exact ⟨_, by simp only [AsyncSend.step, habort, hw, Option.map_some]; rfl⟩

omit [DecidableEq ι] in
/-- No move of a sender ends its watchdog or takes it back before its wait. -/
theorem next_finished {cmd : Command ρ} {w : WatchDog} {enable : Bool} {pc pc' : Pc} {move : Move}
    (h : pc.next cmd w move = some pc') (hphase : (w.afterMove enable move).phase = .finished)
    (hpc : pc'.beforeWake = true) : w.phase = .finished ∧ pc.beforeWake = true := by
  unfold Pc.next at h
  split at h <;> grind [WatchDog.afterMove, Pc.beforeWake]

omit [DecidableEq ι] in
/-- A watchdog that is not cancelled ends with its expiry. -/
theorem WatchDog.next_finished {w w' : WatchDog} {move : WatchDogMove}
    (h : w.next move = some w') (hcancel : w.cancel = false) (hphase : w'.phase = .finished) :
    move = .cancelCommandWait ∧ w.phase = .triggered := by
  unfold WatchDog.next at h
  split at h <;> split at h <;> grind

theorem next_eq_or (cfg : Config ι ρ) (s : Sys ι ρ) (a : Action ι) :
    (∃ s', step cfg s a = some s' ∧ s.next cfg a = s') ∨
      (step cfg s a = none ∧ s.next cfg a = s) := by
  cases hstep : step cfg s a with
  | some s' => exact Or.inl ⟨s', rfl, by simp [Sys.next, hstep]⟩
  | none => exact Or.inr ⟨rfl, by simp [Sys.next, hstep]⟩

theorem Timed.next (henable : cfg.enableWatchDog = true) {c : ι} {s : Sys ι ρ} (a : Action ι)
    (hs : Timed cfg c s) : Timed cfg c (s.next cfg a) := by
  obtain ⟨s', hstep, hnext⟩ | ⟨-, hnext⟩ := next_eq_or cfg s a
  · exact hnext ▸ hs.step henable hstep
  · exact hnext.symm ▸ hs

theorem timed_stateOf (henable : cfg.enableWatchDog = true) (c : ι) (sched : Nat → Action ι)
    (n : Nat) : Timed cfg c (stateOf cfg sched n) :=
  stateAt_invariant (fun n _ hs => hs.next henable (sched n)) (timed_init cfg c) n

/-- A call that is neither over nor deserted comes closer to its end at every due move, and no
other step delays it. -/
theorem Timed.progress (henable : cfg.enableWatchDog = true) {c : ι} {s : Sys ι ρ}
    {a : Action ι} (hs : Timed cfg c s) (hgoal : ¬ (Over c s ∨ Deserted c s)) :
    (s.next cfg a).rank c < s.rank c ∨
      (¬ Helpful c s a ∧ (s.next cfg a).rank c ≤ s.rank c ∧
        ∀ b, Helpful c s b → Helpful c (s.next cfg a) b) := by
  obtain ⟨hover, hdeserted⟩ := not_or.mp hgoal
  obtain ⟨s', hstep, hnext⟩ | ⟨hstep, hnext⟩ := next_eq_or cfg s a
  · rw [hnext]
    obtain hless | ⟨hpc, hdog, hsender, hother⟩ := hs.rank_step henable hstep
    · exact Or.inl hless
    · refine Or.inr ⟨?_, ?_, ?_⟩
      · unfold Helpful
        split
        · rintro ⟨move', -, rfl⟩
          exact hsender move' rfl
        · exact hother _
      · simp only [Sys.rank, hpc, hdog, le_refl]
      · intro b hb
        unfold Helpful at hb ⊢
        rwa [hpc, hdog]
  · rw [hnext]
    refine Or.inr ⟨fun hhelpful => ?_, le_rfl, fun _ hb => hb⟩
    obtain ⟨s', hs'⟩ := hs.step_helpful hover hdeserted hhelpful
    exact absurd (hs'.symm.trans hstep) (by simp)

/-- A call is deserted by the expiry that misses it and by nothing else. -/
theorem Timed.misses_of_deserted {c : ι} {s : Sys ι ρ}
    {a : Action ι} (hs : Timed cfg c s) (hbefore : ¬ Deserted c s)
    (hafter : Deserted c (s.next cfg a)) : Misses cfg c s a := by
  obtain ⟨s', hstep, hnext⟩ | ⟨-, hnext⟩ := next_eq_or cfg s a
  · rw [hnext] at hafter
    obtain ⟨hphase, hpc'⟩ := hafter
    obtain ⟨move, -, hmoved, hdog⟩ | ⟨hpc, hdog⟩ := step_pair hs.wellFormed hstep c
    · rw [hdog] at hphase
      obtain ⟨hphase, hpc⟩ := next_finished hmoved hphase hpc'
      exact absurd ⟨hphase, hpc⟩ hbefore
    · have hpc := beforeWake_of_notifyOne hpc hpc'
      obtain hdog | ⟨move, rfl, hmove⟩ := hdog
      · exact absurd ⟨hdog ▸ hphase, hpc⟩ hbefore
      · obtain ⟨rfl, htriggered⟩ :=
          WatchDog.next_finished hmove (hs.uncancelled hpc) hphase
        refine ⟨rfl, htriggered, step_abort hstep, hpc, ?_⟩
        rintro ⟨result, hwait⟩ htarget
        obtain ⟨w, -, rfl⟩ := step_watchDog hstep
        have hcall := @cancelCommandWait_call ι ρ _ cfg (s.setWatchDog c w) c c
        have htarget' : (s.setWatchDog c w).addressee cfg c = some c := htarget
        rw [if_pos htarget'] at hcall
        have hwoken : (((s.setWatchDog c w).watchDogEffect cfg c .cancelCommandWait).call c).pc =
            .woken result := by
          rw [Sys.watchDogEffect, hcall]
          exact congrArg Pc.notifyOne hwait
        rw [hwoken] at hpc'
        exact absurd hpc' Bool.false_ne_true
  · exact absurd (hnext ▸ hafter) hbefore

/-- A call is deserted only where its expiry missed it. -/
theorem misses_of_deserted (henable : cfg.enableWatchDog = true) {c : ι}
    {sched : Nat → Action ι} {n : Nat} (h : Deserted c (stateOf cfg sched n)) :
    ∃ m, Misses cfg c (stateOf cfg sched m) (sched m) := by
  induction n with
  | zero => exact absurd h.1 (by simp [stateOf, stateAt, Sys.init])
  | succ n ih =>
      by_cases hbefore : Deserted c (stateOf cfg sched n)
      · exact ih hbefore
      · exact ⟨n, (timed_stateOf henable c sched n).misses_of_deserted hbefore h⟩

/-- Under every fair schedule a call with a watchdog ends or the process aborts, if the expiry of
the watchdog does not miss the call. -/
theorem over_or_misses (henable : cfg.enableWatchDog = true) {c : ι} {sched : Nat → Action ι}
    (hfair : Fair c sched) :
    (∃ n, Over c (stateOf cfg sched n)) ∨
      ∃ n, Misses cfg c (stateOf cfg sched n) (sched n) := by
  obtain ⟨n, -, hover | hdeserted⟩ := @eventually_of_rank _ _ (Sys.next cfg) sched (Timed cfg c)
    (fun s => Over c s ∨ Deserted c s) (Sys.rank c) (Helpful c) (fun s a hs => hs.next henable a)
    (fun s a hs hgoal => Or.inr (hs.progress henable hgoal))
    (fun s n => hfair.helpful s n) (Sys.init cfg) (timed_init cfg c) 0
  · exact Or.inl ⟨n, hover⟩
  · exact Or.inr (misses_of_deserted henable hdeserted)

/-- The moves of both threads in turn, with a send of three bytes. -/
def rounds : List (Action Unit) :=
  [.sender () .launch, .sender () .attach, .sender () (.send (.count 3)), .sender () .enterWait,
    .sender () .skipWait, .sender () .leaveWait, .sender () .detach, .sender () .setCancel,
    .sender () .join, .watchDog () .sleep, .watchDog () .test, .watchDog () .cancelCommandWait]

/-- A start and then the rounds. -/
def thenRounds (start : List (Action Unit)) : Nat → Action Unit :=
  followedBy start fun n => rounds.getD (n % 12) (.sender () .launch)

theorem fair_thenRounds (start : List (Action Unit)) : Fair () (thenRounds start) := by
  have hturn : ∀ n i, i < 12 → ∃ k, n ≤ k ∧
      thenRounds start k = rounds.getD i (.sender () .launch) := by
    intro n i hi
    refine ⟨start.length + (12 * n + i), by omega, ?_⟩
    rw [thenRounds, followedBy_add, Nat.mul_add_mod, Nat.mod_eq_of_lt hi]
  have hmove : ∀ n i move move', i < 12 → Move.Like move move' →
      rounds.getD i (.sender () .launch) = .sender () move' →
        ∃ k, n ≤ k ∧ ∃ move', Move.Like move move' ∧ thenRounds start k = .sender () move' := by
    intro n i move move' hi hlike heq
    obtain ⟨k, hk, hsched⟩ := hturn n i hi
    exact ⟨k, hk, move', hlike, hsched.trans heq⟩
  intro n
  constructor
  · intro move hwake
    cases move with
    | launch => exact hmove n 0 _ _ (by decide) rfl rfl
    | attach => exact hmove n 1 _ _ (by decide) rfl rfl
    | send outcome => exact hmove n 2 _ (.send (.count 3)) (by decide) trivial rfl
    | enterWait => exact hmove n 3 _ _ (by decide) rfl rfl
    | skipWait => exact hmove n 4 _ _ (by decide) rfl rfl
    | spuriousWake => exact absurd rfl hwake
    | leaveWait => exact hmove n 5 _ _ (by decide) rfl rfl
    | detach => exact hmove n 6 _ _ (by decide) rfl rfl
    | setCancel => exact hmove n 7 _ _ (by decide) rfl rfl
    | join => exact hmove n 8 _ _ (by decide) rfl rfl
  · intro move
    cases move with
    | sleep => exact hturn n 9 (by decide)
    | test => exact hturn n 10 (by decide)
    | cancelCommandWait => exact hturn n 11 (by decide)

/-- The send does not come back before the watchdog has expired. -/
def slowSend : List (Action Unit) :=
  [.sender () .launch, .sender () .attach] ++ (expire () ++
    [.watchDog () .cancelCommandWait, .sender () (.send (.count 3)), .sender () .enterWait])

/-- A run is followed by a schedule that starts with its actions. -/
theorem foldl_next_of_exec {s t : Sys ι ρ} {acts : List (Action ι)}
    (h : StepSystem.exec (step cfg) s acts = some t) : acts.foldl (Sys.next cfg) s = t := by
  induction acts generalizing s with
  | nil => exact Option.some.inj h
  | cons a acts ih =>
      obtain ⟨s', hs', hrest⟩ := (StepSystem.exec_cons_eq_some _).mp h
      have hnext : s.next cfg a = s' := by simp [Sys.next, hs']
      rw [List.foldl_cons, hnext]
      exact ih hrest

/-- The call waits, its watchdog has run out and the process has not aborted. -/
def Forgotten (s : Sys Unit ρ) : Prop :=
  (s.call ()).pc = .waiting 3 ∧ (s.watchDog ()).phase = .finished ∧ s.abort = none

theorem exec_slowSend : ∃ t, StepSystem.exec (step versionQuery) (Sys.init versionQuery)
    slowSend = some t ∧ Forgotten t := by
  have hstart : StepSystem.exec (step versionQuery) (Sys.init versionQuery)
      [.sender () .launch, .sender () .attach] =
        some (stateAfter versionQuery [.sender () .launch, .sender () .attach]) := rfl
  have hrest : ∃ t, StepSystem.exec (step versionQuery)
      ((stateAfter versionQuery [.sender () .launch, .sender () .attach]).setWatchDog ()
        ⟨.triggered, false, false⟩)
      [.watchDog () .cancelCommandWait, .sender () (.send (.count 3)), .sender () .enterWait] =
        some t ∧ Forgotten t := ⟨_, rfl, rfl, rfl, rfl⟩
  obtain ⟨t, ht, hforgotten⟩ := hrest
  refine ⟨t, ?_, hforgotten⟩
  rw [slowSend, StepSystem.exec_append, hstart, Option.bind_some, exec_expire rfl rfl, ht]

/-- The rounds leave a forgotten call as it is. -/
theorem Forgotten.next {s : Sys Unit Str} (hs : Forgotten s) (n : Nat) :
    Forgotten (s.next versionQuery (rounds.getD (n % 12) (.sender () .launch))) := by
  obtain ⟨hpc, hphase, habort⟩ := hs
  have hblocked : ∀ a ∈ rounds, step versionQuery s a = none := by
    simp [rounds, step, habort, hpc, hphase, Pc.next, WatchDog.next]
  have hmem : rounds.getD (n % 12) (.sender () .launch) ∈ rounds := by
    have hlt : n % 12 < rounds.length := Nat.mod_lt n (by decide)
    rw [List.getD_eq_getElem _ _ hlt]
    exact List.getElem_mem hlt
  have hsame : s.next versionQuery (rounds.getD (n % 12) (.sender () .launch)) = s := by
    simp only [Sys.next, hblocked _ hmem, Option.getD_none]
  rw [hsame]
  exact ⟨hpc, hphase, habort⟩

/-- What is over stays over. -/
theorem Over.next {c : ι} {s : Sys ι ρ} (hs : WellFormed cfg s) (h : Over c s) (a : Action ι) :
    WellFormed cfg (s.next cfg a) ∧ Over c (s.next cfg a) := by
  obtain ⟨s', hstep, hnext⟩ | ⟨-, hnext⟩ := next_eq_or cfg s a
  · rw [hnext]
    refine ⟨hs.step hstep, ?_⟩
    obtain hended | habort := h
    · obtain ⟨move, -, hmoved, -⟩ | ⟨hpc | hpc, -⟩ := step_pair hs hstep c
      · have hless := next_rank hmoved
        unfold Pc.ended at hended
        split at hended <;> simp_all [Pc.rank]
      · exact Or.inl (hpc ▸ hended)
      · exact Or.inl (by rw [hpc, Pc.notifyOne_ended, hended])
    · exact absurd (step_abort hstep) habort
  · exact hnext.symm ▸ ⟨hs, h⟩

theorem forgotten_slowSend :
    ∃ n, ∀ m, n ≤ m → Forgotten (stateOf versionQuery (thenRounds slowSend) m) := by
  obtain ⟨t, hrun, ht⟩ := exec_slowSend
  generalize slowSend = start at hrun ⊢
  refine ⟨start.length, fun m hm => ?_⟩
  refine stateAt_from ?_ (fun k s hk hs => ?_) hm
  · rw [thenRounds, stateAt_followedBy, foldl_next_of_exec hrun]
    exact ht
  · obtain ⟨d, rfl⟩ := Nat.exists_eq_add_of_le hk
    rw [thenRounds, followedBy_add]
    exact hs.next d

/-- A call that is forgotten from some instant on is never over. -/
theorem not_over_of_forgotten {sched : Nat → Action Unit}
    (h : ∃ n, ∀ m, n ≤ m → Forgotten (stateOf versionQuery sched m)) (n : Nat) :
    ¬ Over () (stateOf versionQuery sched n) := by
  obtain ⟨start, hfrom⟩ := h
  intro hover
  have htimed : Timed versionQuery () (stateOf versionQuery sched n) := timed_stateOf rfl () sched n
  have hwf := htimed.wellFormed
  have hlate := (stateAt_from (I := fun s => WellFormed versionQuery s ∧ Over () s)
    ⟨hwf, hover⟩ (fun m s _ hs => hs.2.next hs.1 _) (Nat.le_add_right n start)).2
  obtain ⟨hpc, -, habort⟩ := hfrom (n + start) (Nat.le_add_left start n)
  obtain hended | haborted := hlate
  · have hwaits : ((stateOf versionQuery sched (n + start)).call ()).pc.ended = false := by
      rw [hpc]
      rfl
    exact absurd (hwaits.symm.trans hended) Bool.false_ne_true
  · exact haborted habort

/-- Under every fair schedule a call with a watchdog ends, or the process aborts, or the one expiry
misses the call, before its wait or behind an earlier observer of its command id; and a call that
the expiry has missed can wait for ever. -/
theorem ends_or_missed :
    (∀ (cfg : Config ι ρ) (c : ι) (sched : Nat → Action ι), cfg.enableWatchDog = true →
      Fair c sched → (∃ n, Over c (stateOf cfg sched n)) ∨
        ∃ n, Misses cfg c (stateOf cfg sched n) (sched n)) ∧
    ∃ sched : Nat → Action Unit, Fair () sched ∧
      ∀ n, ¬ Over () (stateOf versionQuery sched n) := by
  refine ⟨fun cfg c sched henable hfair => over_or_misses henable hfair, ?_⟩
  exact ⟨thenRounds slowSend, fair_thenRounds _, not_over_of_forgotten forgotten_slowSend⟩

theorem ends_or_missed_rounds :
    (∃ n, Over () (stateOf versionQuery (thenRounds []) n)) ∨
      ∃ n, Misses versionQuery () (stateOf versionQuery (thenRounds []) n) (thenRounds [] n) :=
  ends_or_missed.1 versionQuery () (thenRounds []) rfl (fair_thenRounds [])

end RfidEngine.AsyncSend
