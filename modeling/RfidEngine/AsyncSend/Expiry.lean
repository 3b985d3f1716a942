import RfidEngine.AsyncSend.Wakeup

/-!
# The expiry of a watchdog

`send_msg` looks for an observer by command id, in the order of the attaches.
So an expiry reaches the call of its own watchdog exactly when that call is
attached and every call of the same command id that attached before it has
detached.
-/

namespace RfidEngine.AsyncSend

open StepSystem

/-- The calls that attached in a run, in order. -/
def attaches {ι : Type*} (acts : List (Action ι)) : List ι :=
  acts.filterMap fun
    | .sender c .attach => some c
    | _ => none

variable {ι ρ : Type*} [DecidableEq ι] {cfg : Config ι ρ}

/-- Every executed `send_msg` finds the observer of the watchdog's own call. -/
def ExpiriesHitOwn (cfg : Config ι ρ) (acts : List (Action ι)) : Prop :=
  ∀ before c after s, acts = before ++ .watchDog c .cancelCommandWait :: after →
    exec (step cfg) (Sys.init cfg) before = some s →
      c ∈ s.packetQueue.observers ∧ s.addressee cfg c = some c

/-- The call is attached, and those of its command id that attached earlier are not. -/
def AttachedFirst (cfg : Config ι ρ) (c : ι) (before : List (Action ι)) (s : Sys ι ρ) : Prop :=
  (s.call c).pc.holdsObserver = true ∧
    ∃ earlier later, attaches before = earlier ++ c :: later ∧
      ∀ d ∈ earlier, (s.call d).pc.holdsObserver = true →
        (cfg.command d).uiCommandId ≠ (cfg.command c).uiCommandId

omit [DecidableEq ι] in
theorem attaches_snoc_attach (acts : List (Action ι)) (c : ι) :
    attaches (acts ++ [.sender c .attach]) = attaches acts ++ [c] := by
  simp [attaches, List.filterMap_append]

omit [DecidableEq ι] in
theorem attaches_snoc_of_ne {a : Action ι} (h : ∀ c, a ≠ .sender c .attach)
    (acts : List (Action ι)) : attaches (acts ++ [a]) = attaches acts := by
  have hnil : attaches [a] = [] := by
    grind [attaches]
  rw [attaches, List.filterMap_append]
  exact (congrArg _ hnil).trans (List.append_nil _)

/-- A call attaches once. -/
theorem attached_once {c : ι} {acts : List (Action ι)} {t : Sys ι ρ}
    (hrun : exec (step cfg) (Sys.init cfg) acts = some t) (hc : c ∈ attaches acts) :
    (t.call c).pc.beforeAttach = false := by
  revert hc
  refine exec_history (M := fun as u => c ∈ attaches as → (u.call c).pc.beforeAttach = false)
    ?_ ?_ hrun
  · exact nofun
  · intro as u a u' hu ih h hc
    have hcall := callStep (wellFormed_of_exec (wellFormed_init cfg) hu) h c
    by_cases hattach : a = .sender c .attach
    · subst hattach
      obtain ⟨pc, hnext, rfl⟩ := step_sender h
      simp [Sys.setCall, (next_attach hnext).2, Pc.beforeAttach]
    · have hold : (u.call c).pc.beforeAttach = false := by
        apply ih
        by_cases hother : ∃ d, a = .sender d .attach
        · obtain ⟨d, rfl⟩ := hother
          rw [attaches_snoc_attach, List.mem_append, List.mem_singleton] at hc
          exact hc.resolve_right fun heq => hattach (heq ▸ rfl)
        · rwa [attaches_snoc_of_ne (not_exists.mp hother)] at hc
      generalize u'.call c = k at hcall ⊢
      cases hcall with
      | moved move pc hnext =>
          exact Bool.eq_false_iff.mpr fun hpc =>
            absurd (hold.symm.trans (next_beforeAttach hnext hpc)) Bool.false_ne_true
      | updated p hpc => simpa using hold
      | notified d htarget => simpa using hold
      | _ => exact hold

/-- The observer list is the attach order without the calls that have detached. -/
theorem observers_eq_attaches {acts : List (Action ι)} {t : Sys ι ρ}
    (hrun : exec (step cfg) (Sys.init cfg) acts = some t) :
    t.packetQueue.observers = (attaches acts).filter fun c => (t.call c).pc.holdsObserver := by
  refine exec_history (M := fun as u => u.packetQueue.observers =
    (attaches as).filter fun c => (u.call c).pc.holdsObserver) rfl ?_ hrun
  intro as u a u' hu ih h
  have hwf := wellFormed_of_exec (wellFormed_init cfg) hu
  have hholds := fun c => (callStep hwf h c).holdsObserver
  rw [step_observers h]
  unfold observersAfter
  split
  · rename_i c
    obtain ⟨pc, hnext, -⟩ := step_sender h
    have hfresh : ∀ d ∈ attaches as, d ≠ c := by
      intro d hd heq
      have hbefore := attached_once hu (heq ▸ hd)
      rw [(next_attach hnext).1] at hbefore
      exact absurd hbefore (by decide)
    have hrest : (attaches as).filter (fun d => (u'.call d).pc.holdsObserver) =
        (attaches as).filter (fun d => (u.call d).pc.holdsObserver) := by
      apply List.filter_congr
      intro d hd
      simp [hholds, (hfresh d hd).symm]
    simp [attaches_snoc_attach, List.filter_append, hrest, ← ih, hholds c]
  · rename_i c
    rw [attaches_snoc_of_ne (by simp), hwf.nodup.erase_eq_filter, ih, List.filter_filter]
    apply List.filter_congr
    intro d _
    obtain rfl | hne := eq_or_ne d c
    · simp [hholds]
    · simp [hholds, hne, hne.symm]
  · rename_i hattach hdetach
    rw [attaches_snoc_of_ne hattach, ih]
    apply List.filter_congr
    intro d _
    rw [hholds, if_neg (hattach d), if_neg (hdetach d)]

/-- An expiry hits its own call exactly when that call is the first attached of its kind. -/
theorem addressee_eq_self_iff {c : ι} {before : List (Action ι)} {s : Sys ι ρ}
    (hrun : exec (step cfg) (Sys.init cfg) before = some s) :
    c ∈ s.packetQueue.observers ∧ s.addressee cfg c = some c ↔ AttachedFirst cfg c before s := by
  have hwf := wellFormed_of_exec (wellFormed_init cfg) hrun
  rw [hwf.mem_iff, Sys.addressee, PacketQueue.addressee, observers_eq_attaches hrun,
    List.find?_filter, List.find?_eq_some_iff_append, AttachedFirst]
  apply and_congr_right
  intro hc
  simp only [hc, beq_self_eq_true, and_self, decide_true, true_and, Bool.not_eq_true',
    decide_eq_false_iff_not, not_and, beq_iff_eq]
  refine exists₂_congr fun earlier later => and_congr_right fun _ => forall₂_congr fun d _ => ?_
  exact imp_congr_right fun _ => ne_comm

theorem expiriesHitOwn_iff (cfg : Config ι ρ) (acts : List (Action ι)) :
    ExpiriesHitOwn cfg acts ↔
      ∀ before c after s, acts = before ++ .watchDog c .cancelCommandWait :: after →
        exec (step cfg) (Sys.init cfg) before = some s → AttachedFirst cfg c before s := by
  constructor
  · intro h before c after s hsplit hs
    exact (addressee_eq_self_iff hs).mp (h before c after s hsplit hs)
  · intro h before c after s hsplit hs
    exact (addressee_eq_self_iff hs).mpr (h before c after s hsplit hs)

/-- Sleeps after each of which the flag is not set and the timer not run down. -/
def countdown (c : ι) (rounds : Nat) : List (Action ι) :=
  (List.replicate rounds [.watchDog c .sleep, .watchDog c .test]).flatten

/-- The watchdog of `c` runs from its start to the end of its timer. -/
def expire (c : ι) : List (Action ι) :=
  countdown c 800 ++ [.watchDog c .sleep, .watchDog c .test]

omit [DecidableEq ι] in
theorem countdown_succ (c : ι) (rounds : Nat) :
    countdown c (rounds + 1) =
      .watchDog c .sleep :: .watchDog c .test :: countdown c rounds := rfl

theorem setWatchDog_setWatchDog (s : Sys ι ρ) (c : ι) (w w' : WatchDog) :
    (s.setWatchDog c w).setWatchDog c w' = s.setWatchDog c w' := by
  simp [Sys.setWatchDog]

theorem setWatchDog_watchDog (s : Sys ι ρ) (c : ι) (w : WatchDog) :
    (s.setWatchDog c w).watchDog c = w := by
  simp [Sys.setWatchDog]

/-- A move that is not the expiry changes the watchdog alone. -/
theorem step_watchDog_of_next {s : Sys ι ρ} {c : ι} {w : WatchDog} {move : WatchDogMove}
    (habort : s.abort = none) (hmove : move ≠ .cancelCommandWait)
    (hnext : (s.watchDog c).next move = some w) :
    step cfg s (.watchDog c move) = some (s.setWatchDog c w) := by
  cases move with
  | cancelCommandWait => exact absurd rfl hmove
  | _ => simp [step, habort, hnext, Sys.watchDogEffect]

/-- One round leaves the watchdog asleep with less time or past its timer. -/
theorem exec_round {s : Sys ι ρ} {c : ι} {millisec : Int} {b : Bool} (habort : s.abort = none)
    (hw : s.watchDog c = ⟨.sleeping millisec, false, b⟩) (rest : List (Action ι)) :
    exec (step cfg) s (.watchDog c .sleep :: .watchDog c .test :: rest) =
      exec (step cfg) (s.setWatchDog c
        ⟨if millisec - resolution < 0 then .triggered else .sleeping (millisec - resolution),
          false, b⟩) rest := by
  have hsleep : step cfg s (.watchDog c .sleep) =
      some (s.setWatchDog c ⟨.testing millisec, false, b⟩) :=
    step_watchDog_of_next habort (by simp) (by simp [hw, WatchDog.next])
  have htest : step cfg (s.setWatchDog c ⟨.testing millisec, false, b⟩) (.watchDog c .test) =
      some ((s.setWatchDog c ⟨.testing millisec, false, b⟩).setWatchDog c
        ⟨if millisec - resolution < 0 then .triggered else .sleeping (millisec - resolution),
          false, b⟩) := by
    refine step_watchDog_of_next habort (by simp) ?_
    rw [setWatchDog_watchDog]
    simp only [WatchDog.next, Bool.false_eq_true, if_false]
    split <;> rfl
  rw [exec_cons, hsleep, Option.bind_some, exec_cons, htest, Option.bind_some,
    setWatchDog_setWatchDog]

theorem exec_countdown {s : Sys ι ρ} {c : ι} {b : Bool} (rounds : Nat) {left : Int}
    (hleft : 0 ≤ left) (habort : s.abort = none)
    (hw : s.watchDog c = ⟨.sleeping (left + resolution * rounds), false, b⟩)
    (rest : List (Action ι)) :
    exec (step cfg) s (countdown c rounds ++ rest) =
      exec (step cfg) (s.setWatchDog c ⟨.sleeping left, false, b⟩) rest := by
  induction rounds generalizing s with
  | zero =>
      have hself : s.setWatchDog c (s.watchDog c) = s := by simp [Sys.setWatchDog]
      have htime : left + resolution * (0 : Nat) = left := by simp
      rw [htime] at hw
      rw [← hw, hself]
      rfl
  | succ rounds ih =>
      have htime : left + resolution * (rounds + 1 : Nat) - resolution =
          left + resolution * rounds := by
        simp only [resolution]
        omega
      have hlater : ¬ left + resolution * rounds < 0 := by
        simp only [resolution]
        omega
      rw [countdown_succ, List.cons_append, List.cons_append, exec_round habort hw, htime,
        if_neg hlater]
      refine (ih ?_ (setWatchDog_watchDog ..)).trans ?_
      · exact habort
      · rw [setWatchDog_setWatchDog]

/-- A watchdog that is never cancelled expires. -/
theorem exec_expire {s : Sys ι ρ} {c : ι} {b : Bool} (habort : s.abort = none)
    (hw : s.watchDog c = ⟨.sleeping timerCount, false, b⟩) (rest : List (Action ι)) :
    exec (step cfg) s (expire c ++ rest) =
      exec (step cfg) (s.setWatchDog c ⟨.triggered, false, b⟩) rest := by
  have hrounds : timerCount = 0 + resolution * (800 : Nat) := rfl
  rw [hrounds] at hw
  rw [expire, List.append_assoc, exec_countdown 800 (Int.le_refl 0) habort hw]
  refine (exec_round ?_ (setWatchDog_watchDog ..) rest).trans ?_
  · exact habort
  · rw [if_pos (by decide), setWatchDog_setWatchDog]

/-- A call up to its wait. -/
def blockedQuery : List (Action Unit) :=
  [.sender () .launch, .sender () .attach, .sender () (.send (.count 3)), .sender () .enterWait]

theorem exec_blockedQuery_expire {cfg : Config Unit ρ} {s : Sys Unit ρ} {b : Bool}
    (hstart : exec (step cfg) (Sys.init cfg) blockedQuery = some s) (habort : s.abort = none)
    (hw : s.watchDog () = ⟨.sleeping timerCount, false, b⟩) (rest : List (Action Unit)) :
    exec (step cfg) (Sys.init cfg) (blockedQuery ++ (expire () ++ rest)) =
      exec (step cfg) (s.setWatchDog () ⟨.triggered, false, b⟩) rest := by
  rw [exec_append, hstart, Option.bind_some]
  exact exec_expire habort hw rest

/-- The reply comes with the expiry: the sender detaches before the watchdog looks for it. -/
def lateDetach : List (Action Unit) :=
  [.pushBack versionReply, .sender () .leaveWait, .sender () .detach]

/-- The watchdog goes on to its `cancel_command_wait`. -/
def expiryAfterDetach : List (Action Unit) :=
  blockedQuery ++ (expire () ++ lateDetach) ++ [.watchDog () .cancelCommandWait]

/-- The run goes through, and its expiry meets no observer. -/
theorem expiry_after_detach :
    (∃ t, exec (step versionQuery) (Sys.init versionQuery) expiryAfterDetach = some t ∧
      t.abort = some .undefinedBehaviour) ∧
    ¬ ExpiriesHitOwn versionQuery expiryAfterDetach := by
  have hstart : exec (step versionQuery) (Sys.init versionQuery) blockedQuery =
      some (stateAfter versionQuery blockedQuery) := rfl
  have hdetached : (exec (step versionQuery)
      ((stateAfter versionQuery blockedQuery).setWatchDog () ⟨.triggered, false, false⟩)
        lateDetach).map
        (fun s => (s.packetQueue.observers,
          (step versionQuery s (.watchDog () .cancelCommandWait)).map Sys.abort)) =
      some ([], some (some .undefinedBehaviour)) := rfl
  obtain ⟨s, hs, hend⟩ := Option.map_eq_some_iff.mp hdetached
  obtain ⟨hobs, hlast⟩ := Prod.mk.inj hend
  obtain ⟨t, ht, habort⟩ := Option.map_eq_some_iff.mp hlast
  have hrun := (exec_blockedQuery_expire hstart rfl rfl lateDetach).trans hs
  refine ⟨⟨t, exec_snoc hrun ht, habort⟩, fun hall => ?_⟩
  have hhit := hall _ () [] s rfl hrun
  rw [hobs] at hhit
  exact absurd hhit.1 List.not_mem_nil

end RfidEngine.AsyncSend
