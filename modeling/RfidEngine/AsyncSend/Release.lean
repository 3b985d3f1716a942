import RfidEngine.AsyncSend.Wakeup

/-!
# What an ended call leaves behind

A call gives its observer back at the detach and its watchdog at the join. An
exception of the send passes both by. The observer list a call should leave is
the one the other calls make of the list it found.
-/

namespace RfidEngine.AsyncSend

open StepSystem

variable {ι ρ : Type*} [DecidableEq ι] {cfg : Config ι ρ}

/-- A step of the sender of `c`. -/
def Action.isSenderOf (c : ι) : Action ι → Bool
  | .sender d _ => d = c
  | _ => false

/-- What the actions of the other calls make of an observer list. -/
def othersAfter (c : ι) (observers : List ι) (acts : List (Action ι)) : List ι :=
  (acts.filter fun a => !a.isSenderOf c).foldl observersAfter observers

/-- The transport fails on the command of `c`; an empty command is not sent. -/
def SendThrows (cfg : Config ι ρ) (c : ι) (acts : List (Action ι)) : Prop :=
  (cfg.command c).cmd ≠ [] ∧ .sender c (.send .throws) ∈ acts

/-- The call has no observer attached and no watchdog running or unjoined. -/
def LeavesNoTrace (c : ι) (observers : List ι) (t : Sys ι ρ) : Prop :=
  t.packetQueue.observers = observers ∧
    ((t.watchDog c).phase = .notStarted ∨ (t.watchDog c).phase = .joined)

theorem othersAfter_snoc (c : ι) (observers : List ι) (acts : List (Action ι)) (a : Action ι) :
    othersAfter c observers (acts ++ [a]) =
      if a.isSenderOf c then othersAfter c observers acts
      else observersAfter (othersAfter c observers acts) a := by
  cases h : a.isSenderOf c <;> simp [othersAfter, List.filter_append, h]

/-- Without its own observer the list changes by the steps of the others. -/
theorem erase_observersAfter {c : ι} {observers : List ι} (hnodup : observers.Nodup)
    {a : Action ι} (hattach : a = .sender c .attach → c ∉ observers) :
    (observersAfter observers a).erase c =
      if a.isSenderOf c then observers.erase c else observersAfter (observers.erase c) a := by
  unfold observersAfter
  split
  · rename_i d
    obtain rfl | hne := eq_or_ne d c
    · have hmem := hattach rfl
      simp [Action.isSenderOf, List.erase_append_right _ hmem, List.erase_of_not_mem hmem]
    · have hnot : c ∉ [d] := by simpa using hne.symm
      rw [if_neg (by simpa [Action.isSenderOf] using hne)]
      by_cases hmem : c ∈ observers
      · exact List.erase_append_left _ hmem
      · rw [List.erase_append_right _ hmem, List.erase_of_not_mem hnot,
          List.erase_of_not_mem hmem]
  · rename_i d
    obtain rfl | hne := eq_or_ne d c
    · have hmem : d ∉ observers.erase d := hnodup.not_mem_erase
      simp [Action.isSenderOf, List.erase_of_not_mem hmem]
    · rw [if_neg (by simpa [Action.isSenderOf] using hne)]
      exact List.erase_comm d c
  · split <;> rfl

/-- The observer list without `c` is what the others made of the one found. -/
theorem observers_erase_of_exec {s t : Sys ι ρ} {c : ι} {acts : List (Action ι)}
    (hs : WellFormed cfg s) (hc : c ∉ s.packetQueue.observers)
    (hrun : exec (step cfg) s acts = some t) :
    t.packetQueue.observers.erase c = othersAfter c s.packetQueue.observers acts := by
  refine exec_history (M := fun as u => u.packetQueue.observers.erase c =
    othersAfter c s.packetQueue.observers as) (List.erase_of_not_mem hc) ?_ hrun
  intro as u a u' hu ih h
  have hwf := wellFormed_of_exec hs hu
  have hattach : a = .sender c .attach → c ∉ u.packetQueue.observers := by
    intro heq
    obtain ⟨pc, hnext, -⟩ := step_sender (heq ▸ h)
    simp [hwf.mem_iff, (next_attach hnext).1, Pc.holdsObserver]
  rw [step_observers h, erase_observersAfter hwf.nodup hattach, othersAfter_snoc, ih]

/-- Only the send raises the send fault. -/
theorem next_eq_raised {cmd : Command ρ} {w : WatchDog} {pc pc' : Pc} {move : Move}
    (h : pc.next cmd w move = some pc') :
    pc ≠ .raised .send ∧ (pc' = .raised .send ↔ cmd.cmd ≠ [] ∧ move = .send .throws) := by
  unfold Pc.next at h
  split at h <;> grind

theorem raised_iff_sendThrows {s t : Sys ι ρ} {c : ι} {acts : List (Action ι)}
    (hs : WellFormed cfg s) (hpc : (s.call c).pc = .notStarted)
    (hrun : exec (step cfg) s acts = some t) :
    (t.call c).pc = .raised .send ↔ SendThrows cfg c acts := by
  refine exec_history (M := fun as u => (u.call c).pc = .raised .send ↔ SendThrows cfg c as)
    ?_ ?_ hrun
  · simp [hpc, SendThrows]
  · intro as u a u' hu ih h
    have hcall := callStep (wellFormed_of_exec hs hu) h c
    have hsnoc : SendThrows cfg c (as ++ [a]) ↔
        SendThrows cfg c as ∨ ((cfg.command c).cmd ≠ [] ∧ a = .sender c (.send .throws)) := by
      simp only [SendThrows, List.mem_append, List.mem_singleton, ← and_or_left, eq_comm]
    have hnotify : ∀ pc : Pc, pc.notifyOne = .raised .send ↔ pc = .raised .send := by
      intro pc
      cases pc <;> simp [Pc.notifyOne]
    rw [hsnoc, ← ih]
    generalize u'.call c = k at hcall ⊢
    cases hcall with
    | moved move pc hnext =>
        obtain ⟨hold, hnew⟩ := next_eq_raised hnext
        simpa [hold] using hnew
    | updated p hpc =>
        rw [Call.update_pc]
        split <;> simp [hnotify]
    | missed p hpc => simp
    | notified d htarget => simp [hnotify]
    | unchanged a hsender hpush => simp [hsender]

/-- A watchdog is joined when its call returns, and none was started when the join raises. -/
structure Joined (c : ι) (s : Sys ι ρ) : Prop where
  returned : ∀ n, (s.call c).pc = .returned n → (s.watchDog c).phase = .joined
  raised : (s.call c).pc = .raised .join → (s.watchDog c).phase = .notStarted

/-- The join ends the call as the watchdog stands. -/
theorem next_eq_ended {cmd : Command ρ} {w : WatchDog} {pc pc' : Pc} {move : Move}
    (enable : Bool) (h : pc.next cmd w move = some pc') :
    (∀ n, pc' = .returned n → (w.afterMove enable move).phase = .joined) ∧
      (pc' = .raised .join → (w.afterMove enable move).phase = .notStarted) := by
  unfold Pc.next at h
  split at h <;> grind [WatchDog.afterMove]

/-- A watchdog that was never started or has been joined does nothing more. -/
theorem watchDog_next_eq_none {w : WatchDog} (h : w.phase = .notStarted ∨ w.phase = .joined)
    (move : WatchDogMove) : w.next move = none := by
  cases move <;> obtain h | h := h <;> simp [WatchDog.next, h]

theorem step_watchDog_stable {s s' : Sys ι ρ} {a : Action ι} {c : ι}
    (h : step cfg s a = some s') (hsender : ∀ move, a ≠ .sender c move)
    (hphase : (s.watchDog c).phase = .notStarted ∨ (s.watchDog c).phase = .joined) :
    s'.watchDog c = s.watchDog c := by
  obtain heq | ⟨move, rfl, -⟩ | ⟨move, -, hnext⟩ := step_watchDog_eq h c
  · exact heq
  · exact absurd rfl (hsender move)
  · exact absurd hnext (watchDog_next_eq_none hphase move ▸ (by simp))

theorem Joined.step {s s' : Sys ι ρ} {a : Action ι} {c : ι} (hs : WellFormed cfg s)
    (hjoined : Joined c s) (h : AsyncSend.step cfg s a = some s') : Joined c s' := by
  have hcall := callStep hs h c
  -- A step that is not the sender's own keeps both the end of the call and the watchdog.
  have hkeep : (∀ move, a ≠ .sender c move) →
      (∀ pc', pc'.ended = true → (s'.call c).pc = pc' → (s.call c).pc = pc') →
      Joined c s' := by
    intro hsender hpc
    constructor
    · intro n hn
      have hphase := hjoined.returned n (hpc _ rfl hn)
      rw [step_watchDog_stable h hsender (Or.inr hphase), hphase]
    · intro hn
      have hphase := hjoined.raised (hpc _ rfl hn)
      rw [step_watchDog_stable h hsender (Or.inl hphase), hphase]
  have hnotify : ∀ pc pc' : Pc, pc'.ended = true → pc.notifyOne = pc' → pc = pc' := by
    intro pc pc' hended heq
    subst heq
    cases pc <;> first | rfl | exact absurd hended Bool.false_ne_true
  generalize hk : s'.call c = k at hcall
  cases hcall with
  | moved move pc hnext =>
      obtain ⟨pc', -, rfl⟩ := step_sender h
      have hw := next_eq_ended cfg.enableWatchDog hnext
      constructor
      · intro n hn
        rw [hk] at hn
        simpa [Sys.setCall] using hw.1 n hn
      · intro hn
        rw [hk] at hn
        simpa [Sys.setCall] using hw.2 hn
  | updated p hpc =>
      apply hkeep (by simp)
      intro pc' hended heq
      rw [hk, Call.update_pc] at heq
      split at heq
      · exact hnotify _ _ hended heq
      · exact heq
  | missed p hpc => exact hkeep (by simp) fun pc' _ heq => hk ▸ heq
  | notified d htarget =>
      apply hkeep (by simp)
      intro pc' hended heq
      rw [hk] at heq
      exact hnotify _ _ hended heq
  | unchanged a hsender hpush => exact hkeep hsender fun pc' _ heq => hk ▸ heq

theorem joined_of_exec {c : ι} {t : Sys ι ρ} {acts : List (Action ι)}
    (hrun : exec (step cfg) (Sys.init cfg) acts = some t) : Joined c t := by
  have hinit : Joined c (Sys.init cfg) := ⟨nofun, nofun⟩
  have hfinal := exec_invariant (I := fun s : Sys ι ρ => WellFormed cfg s ∧ Joined c s)
    (fun s a s' hI h => ⟨hI.1.step h, hI.2.step hI.1 h⟩) ⟨wellFormed_init cfg, hinit⟩ hrun
  exact hfinal.2

/-- An ended call has left the observer list to the others and no watchdog behind exactly
when the transport did not throw on its command. -/
theorem leavesNoTrace_iff {c : ι} {before acts : List (Action ι)} {s t : Sys ι ρ}
    (hbefore : exec (step cfg) (Sys.init cfg) before = some s)
    (hstart : (s.call c).pc = .notStarted) (hrun : exec (step cfg) s acts = some t)
    (hend : (t.call c).pc.ended = true) :
    LeavesNoTrace c (othersAfter c s.packetQueue.observers acts) t ↔ ¬ SendThrows cfg c acts := by
  have hs := wellFormed_of_exec (wellFormed_init cfg) hbefore
  have ht := wellFormed_of_exec hs hrun
  have hc : c ∉ s.packetQueue.observers := by simp [hs.mem_iff, hstart, Pc.holdsObserver]
  have hobs := observers_erase_of_exec hs hc hrun
  have hjoined : Joined c t := joined_of_exec ((exec_append_eq_some _).mpr ⟨s, hbefore, hrun⟩)
  have hmem := ht.mem_iff c
  rw [← raised_iff_sendThrows hs hstart hrun, LeavesNoTrace, ← hobs]
  generalize hpc : (t.call c).pc = pc at hend hmem
  cases pc with
  | returned n =>
      have hnot : c ∉ t.packetQueue.observers := by simp [hmem, Pc.holdsObserver]
      simp [List.erase_of_not_mem hnot, hjoined.returned n hpc]
  | raised fault =>
      cases fault with
      | send =>
          have hin : c ∈ t.packetQueue.observers := hmem.mpr rfl
          have hne : t.packetQueue.observers ≠ t.packetQueue.observers.erase c :=
            fun heq => ht.nodup.not_mem_erase (heq ▸ hin)
          simp [hne]
      | join =>
          have hnot : c ∉ t.packetQueue.observers := by simp [hmem, Pc.holdsObserver]
          simp [List.erase_of_not_mem hnot, hjoined.raised hpc]
  | _ => exact absurd hend Bool.false_ne_true

/-- The reader drops the connection before the command is written. -/
def droppedConnection : List (Action Unit) :=
  [.sender () .launch, .sender () .attach, .sender () (.send .throws)]

/-- The watchdog sees the cancel flag after its first sleep. -/
def answered : List (Action Unit) :=
  slowReply ++ [.sender () .setCancel, .watchDog () .sleep, .watchDog () .test,
    .sender () .join]

theorem leavesNoTrace_answered :
    LeavesNoTrace () [] (stateAfter versionQuery answered) := by
  have hsend : ¬ SendThrows versionQuery () answered := by
    intro h
    exact absurd h.2 (by decide)
  have hstart : exec (step versionQuery) (Sys.init versionQuery) [] =
      some (Sys.init versionQuery) := rfl
  have hrun : exec (step versionQuery) (Sys.init versionQuery) answered =
      some (stateAfter versionQuery answered) := rfl
  exact (leavesNoTrace_iff hstart rfl hrun rfl).mpr hsend

theorem trace_droppedConnection :
    ¬ ∀ (acts : List (Action Unit)) (t : Sys Unit Str),
      exec (step versionQuery) (Sys.init versionQuery) acts = some t →
        (t.call ()).pc.ended = true → LeavesNoTrace () [] t := by
  intro hall
  have htrace := hall droppedConnection (stateAfter versionQuery droppedConnection) rfl rfl
  exact absurd htrace.1 (List.cons_ne_nil _ _)

end RfidEngine.AsyncSend
