import RfidEngine.AsyncSend.Wakeup

/-!
# The window of packets delivered to a call

An observer receives every packet pushed between its attach and its detach.
The window a command asks for ends with the first packet that finishes it. The
two agree exactly when the detach falls between that packet and the next one.
-/

namespace RfidEngine.AsyncSend

open StepSystem

/-- The packets pushed by a run. -/
def pushes {ι : Type*} (acts : List (Action ι)) : List PacketContent :=
  acts.filterMap fun
    | .pushBack p => some p
    | _ => none

variable {ι ρ : Type*} [DecidableEq ι] {cfg : Config ι ρ}

omit [DecidableEq ι] in
@[simp] theorem pushes_append (acts more : List (Action ι)) :
    pushes (acts ++ more) = pushes acts ++ pushes more := List.filterMap_append ..

omit [DecidableEq ι] in
/-- Only a push is counted. -/
theorem pushes_singleton {a : Action ι} (h : ∀ p, a ≠ .pushBack p) : pushes [a] = [] := by
  cases a with
  | pushBack p => exact absurd rfl (h p)
  | _ => rfl

/-- The packets delivered to `c` are those from the attach up to the first that finishes it. -/
def ExactWindow (cfg : Config ι ρ) (c : ι) (acts : List (Action ι)) (t : Sys ι ρ) : Prop :=
  (t.call c).delivered =
    Judge.window (cfg.command c).judge (cfg.command c).captured (pushes acts)

/-- Each packet pushed after the attach finds `c` attached just when no earlier one finished
it. -/
def DetachesOnTime (cfg : Config ι ρ) (c : ι) (s : Sys ι ρ) (acts : List (Action ι)) : Prop :=
  ∀ before p after u, acts = before ++ .pushBack p :: after →
    exec (step cfg) s before = some u →
      ((u.call c).pc.holdsObserver = true ↔ (cfg.command c).finished (pushes before) = false)

omit [DecidableEq ι] in
theorem DetachesOnTime.initial [DecidableEq ι] {c : ι} {s : Sys ι ρ} {acts more : List (Action ι)}
    (h : DetachesOnTime cfg c s (acts ++ more)) : DetachesOnTime cfg c s acts := by
  intro before p after u heq hu
  exact h before p (after ++ more) u (by simp [heq]) hu

/-- What a call attached at the start of a run has seen of the packets pushed. -/
structure Delivering (k : Call ρ) (packets : List PacketContent) : Prop where
  delivered_prefix : k.delivered <+: packets
  attached_eq : k.pc.holdsObserver = true → k.delivered = packets
  attachedOnce : k.pc.beforeAttach = false

theorem Delivering.step {s s' : Sys ι ρ} {a : Action ι} {c : ι} {packets : List PacketContent}
    (hs : WellFormed cfg s) (h : AsyncSend.step cfg s a = some s')
    (hk : Delivering (s.call c) packets) : Delivering (s'.call c) (packets ++ pushes [a]) := by
  have hcall := callStep hs h c
  generalize s'.call c = k at hcall ⊢
  cases hcall with
  | moved move pc hnext =>
      rw [show pushes [Action.sender c move] = [] from rfl, List.append_nil]
      refine ⟨hk.delivered_prefix, fun hpc => ?_, ?_⟩
      · exact hk.attached_eq (next_of_attached hnext hk.attachedOnce hpc)
      · exact Bool.eq_false_iff.mpr fun hpc =>
          absurd (hk.attachedOnce.symm.trans (next_beforeAttach hnext hpc)) Bool.false_ne_true
  | updated p hpc =>
      have hall : ((s.call c).update (cfg.command c) p).delivered = packets ++ [p] := by
        rw [Call.update_delivered, hk.attached_eq hpc]
      exact ⟨hall ▸ List.prefix_rfl, fun _ => hall, by simpa using hk.attachedOnce⟩
  | missed p hpc =>
      refine ⟨hk.delivered_prefix.trans (List.prefix_append _ _), fun hpc' => ?_, hk.attachedOnce⟩
      exact absurd (hpc.symm.trans hpc') Bool.false_ne_true
  | notified d htarget =>
      rw [show pushes [Action.watchDog d .cancelCommandWait] = [] from rfl, List.append_nil]
      exact ⟨hk.delivered_prefix, fun hpc => hk.attached_eq (by simpa using hpc),
        by simpa using hk.attachedOnce⟩
  | unchanged a hsender hpush =>
      rw [pushes_singleton hpush, List.append_nil]
      exact hk

/-- The attach step starts the window. -/
theorem delivering_attach {s s' : Sys ι ρ} {c : ι} (hs : WellFormed cfg s)
    (h : step cfg s (.sender c .attach) = some s') : Delivering (s'.call c) [] := by
  obtain ⟨pc, hnext, rfl⟩ := step_sender h
  obtain ⟨hpc, rfl⟩ := next_attach hnext
  have hnil : (s.call c).delivered = [] := (hs.traced c).fresh (by rw [hpc]; rfl)
  simpa [Sys.setCall, hnil] using Delivering.mk (k := { s.call c with pc := .attached })
    (hnil ▸ List.prefix_rfl) (fun _ => hnil) rfl

/-- A call attached at the start has received a prefix of the packets pushed, and all of
them while it is still attached. -/
theorem delivering_of_exec {s t : Sys ι ρ} {c : ι} {acts : List (Action ι)}
    (hs : WellFormed cfg s) (hc : Delivering (s.call c) [])
    (hrun : exec (step cfg) s acts = some t) : Delivering (t.call c) (pushes acts) := by
  refine exec_history (M := fun as u => Delivering (u.call c) (pushes as)) hc ?_ hrun
  intro as u a u' hu hdel hstep
  rw [pushes_append]
  exact hdel.step (wellFormed_of_exec hs hu) hstep

/-- Nothing is delivered to a call after its detach. -/
theorem delivered_eq_of_detached {s t : Sys ι ρ} {c : ι} {acts : List (Action ι)}
    (hs : WellFormed cfg s) (hpc : (s.call c).pc.holdsObserver = false)
    (hbefore : (s.call c).pc.beforeAttach = false)
    (hrun : exec (step cfg) s acts = some t) : (t.call c).delivered = (s.call c).delivered := by
  have hfinal := exec_invariant (I := fun u : Sys ι ρ => WellFormed cfg u ∧
    (u.call c).pc.holdsObserver = false ∧ (u.call c).pc.beforeAttach = false ∧
      (u.call c).delivered = (s.call c).delivered) ?_ ⟨hs, hpc, hbefore, rfl⟩ hrun
  · exact hfinal.2.2.2
  · intro u a u' hI h
    obtain ⟨hu, hholds, hbef, hdel⟩ := hI
    refine ⟨hu.step h, ?_⟩
    have hcall := callStep hu h c
    generalize u'.call c = k at hcall ⊢
    cases hcall with
    | moved move pc hnext =>
        refine ⟨?_, ?_, hdel⟩
        · exact Bool.eq_false_iff.mpr fun hpc' =>
            absurd (hholds.symm.trans (next_of_attached hnext hbef hpc')) Bool.false_ne_true
        · exact Bool.eq_false_iff.mpr fun hpc' =>
            absurd (hbef.symm.trans (next_beforeAttach hnext hpc')) Bool.false_ne_true
    | updated p hpc' => exact absurd (hholds.symm.trans hpc') Bool.false_ne_true
    | notified d htarget => exact ⟨by simpa using hholds, by simpa using hbef, hdel⟩
    | _ => exact ⟨hholds, hbef, hdel⟩

/-- What has been delivered to a call stays delivered. -/
theorem delivered_prefix_of_exec {s t : Sys ι ρ} {c : ι} {acts : List (Action ι)}
    (hs : WellFormed cfg s) (hrun : exec (step cfg) s acts = some t) :
    (s.call c).delivered <+: (t.call c).delivered := by
  have hfinal := exec_invariant (I := fun u : Sys ι ρ => WellFormed cfg u ∧
    (s.call c).delivered <+: (u.call c).delivered) ?_ ⟨hs, List.prefix_rfl⟩ hrun
  · exact hfinal.2
  · intro u a u' hI h
    refine ⟨hI.1.step h, hI.2.trans ?_⟩
    have hcall := callStep hI.1 h c
    generalize u'.call c = k at hcall ⊢
    cases hcall with
    | updated p hpc => exact Call.update_delivered (cfg.command c) p _ ▸ List.prefix_append _ _
    | _ => exact List.prefix_rfl

/-- A detach on time gives the exact window: the packets pushed so far are the window while
the call is unfinished, and nothing is added to it after. -/
theorem exactWindow_of_onTime {s t : Sys ι ρ} {c : ι} {acts : List (Action ι)}
    (hs : WellFormed cfg s) (hc : Delivering (s.call c) [])
    (hrun : exec (step cfg) s acts = some t) (htime : DetachesOnTime cfg c s acts) :
    ExactWindow cfg c acts t := by
  revert htime
  refine exec_history (M := fun as u => DetachesOnTime cfg c s as → ExactWindow cfg c as u)
    ?_ ?_ hrun
  · intro _
    exact List.prefix_nil.mp hc.delivered_prefix
  · intro as u a u' hu ih hstep htime
    have hwin := ih htime.initial
    have hwf := wellFormed_of_exec hs hu
    have hdel := delivering_of_exec hs hc hu
    have hcall := callStep hwf hstep c
    rw [ExactWindow, pushes_append]
    generalize u'.call c = k at hcall ⊢
    cases hcall with
    | updated p hpc =>
        have hopen := (htime as p [] u rfl hu).mp hpc
        rw [Call.update_delivered, hdel.attached_eq hpc]
        exact (Judge.window_snoc _ hopen p).symm
    | missed p hpc =>
        have hclosed : (cfg.command c).finished (pushes as) = true := by
          by_contra hopen
          have hpc' := (htime as p [] u rfl hu).mpr (Bool.eq_false_iff.mpr hopen)
          exact absurd (hpc.symm.trans hpc') Bool.false_ne_true
        exact hwin.trans (Judge.window_append _ hclosed _).symm
    | unchanged a hsender hpush =>
        rw [pushes_singleton hpush, List.append_nil]
        exact hwin
    | _ => exact hwin.trans (congrArg _ (List.append_nil _).symm)

/-- An exact window leaves no packet delivered after the end and none missed before it: by
the number of packets on either side. -/
theorem onTime_of_exactWindow {s t : Sys ι ρ} {c : ι} {acts : List (Action ι)}
    (hs : WellFormed cfg s) (hc : Delivering (s.call c) [])
    (hrun : exec (step cfg) s acts = some t) (hwin : ExactWindow cfg c acts t) :
    DetachesOnTime cfg c s acts := by
  intro before p after u heq hu
  have hdel := delivering_of_exec hs hc hu
  have hwf := wellFormed_of_exec hs hu
  have hpushes : pushes acts = pushes before ++ p :: pushes after := by
    rw [heq, pushes_append]
    rfl
  obtain ⟨u', hu', hrest⟩ : ∃ u', exec (step cfg) s before = some u' ∧
      exec (step cfg) u' (.pushBack p :: after) = some t :=
    (exec_append_eq_some _).mp (heq ▸ hrun)
  obtain rfl := Option.some.inj (hu.symm.trans hu')
  rw [ExactWindow, hpushes] at hwin
  constructor
  · intro hpc
    by_contra hopen
    have hclosed : (cfg.command c).finished (pushes before) = true := by simpa using hopen
    obtain ⟨v, hv, hlast⟩ := (exec_cons_eq_some _).mp hrest
    have hv' : (v.call c).delivered = pushes before ++ [p] := by
      rw [step_pushBack hv, pushBack_call hwf, if_pos hpc, Call.update_delivered,
        hdel.attached_eq hpc]
    have hgrown := (delivered_prefix_of_exec (c := c) (hwf.step hv) hlast).length_le
    have hshort : (t.call c).delivered.length ≤ (pushes before).length := by
      rw [hwin, Judge.window_append _ hclosed]
      exact (Judge.window_prefix _ _ _).length_le
    rw [hv', List.length_append, List.length_singleton] at hgrown
    omega
  · intro hopen
    by_contra hpc
    have hfrozen := delivered_eq_of_detached hwf (Bool.eq_false_iff.mpr hpc) hdel.attachedOnce hrest
    have hlong := Judge.length_lt_window _ hopen p (pushes after)
    rw [← hwin, hfrozen] at hlong
    have hshort := hdel.delivered_prefix.length_le
    omega

/-- A run from a reachable state in which `c` has just attached its observer. -/
def RunsAfterAttach (cfg : Config ι ρ) (c : ι) (s : Sys ι ρ) (acts : List (Action ι))
    (t : Sys ι ρ) : Prop :=
  ∃ before u, exec (step cfg) (Sys.init cfg) before = some u ∧
    step cfg u (.sender c .attach) = some s ∧ exec (step cfg) s acts = some t

theorem exactWindow_iff {s t : Sys ι ρ} {c : ι} {acts : List (Action ι)}
    (hrun : RunsAfterAttach cfg c s acts t) :
    ExactWindow cfg c acts t ↔ DetachesOnTime cfg c s acts := by
  obtain ⟨before, u, hbefore, hattach, hacts⟩ := hrun
  have hu := wellFormed_of_exec (wellFormed_init cfg) hbefore
  have hc := delivering_attach hu hattach
  exact ⟨onTime_of_exactWindow (hu.step hattach) hc hacts,
    exactWindow_of_onTime (hu.step hattach) hc hacts⟩

theorem RunsAfterAttach.wellFormed {s t : Sys ι ρ} {c : ι} {acts : List (Action ι)}
    (hrun : RunsAfterAttach cfg c s acts t) : WellFormed cfg t := by
  obtain ⟨before, u, hbefore, hattach, hacts⟩ := hrun
  have hu := wellFormed_of_exec (wellFormed_init cfg) hbefore
  exact wellFormed_of_exec (hu.step hattach) hacts

omit [DecidableEq ι] in
/-- A `Send` with an exact window has stored the first packet. -/
theorem response_of_exactWindow {cfg : Config ι Str} {t : Sys ι Str} {c : ι}
    {acts : List (Action ι)} {uiCommandType : Nat} {lpBuf response : Str}
    (hsend : cfg.command c = RfidInterface.sendCommand uiCommandType lpBuf response)
    (ht : WellFormed cfg t) (hwin : ExactWindow cfg c acts t) {p : PacketContent}
    {rest : List PacketContent} (hpushes : pushes acts = p :: rest) :
    (t.call c).captured = p.toString := by
  have hone : (t.call c).delivered = [p] := by
    rw [hwin, hsend, hpushes, Judge.window, RfidInterface.sendCommand_judge]
    rfl
  rw [(ht.traced c).captured_eq, hone, hsend]
  rfl

/-- Every command gets the exact window, and every `Send` the first packet as its response,
in exactly those runs where the call detaches on time. -/
theorem exact_delivery_window :
    (∀ (cfg : Config ι ρ) (c : ι) (s : Sys ι ρ) (acts : List (Action ι)) (t : Sys ι ρ),
      RunsAfterAttach cfg c s acts t →
        (ExactWindow cfg c acts t ↔ DetachesOnTime cfg c s acts)) ∧
    ∀ (cfg : Config ι Str) (c : ι) (s : Sys ι Str) (acts : List (Action ι)) (t : Sys ι Str)
      (uiCommandType : Nat) (lpBuf response : Str),
      cfg.command c = RfidInterface.sendCommand uiCommandType lpBuf response →
      RunsAfterAttach cfg c s acts t →
        ((ExactWindow cfg c acts t ∧
          ∀ p rest, pushes acts = p :: rest → (t.call c).captured = p.toString) ↔
            DetachesOnTime cfg c s acts) := by
  refine ⟨fun cfg c s acts t hrun => exactWindow_iff hrun, ?_⟩
  intro cfg c s acts t uiCommandType lpBuf response hsend hrun
  rw [← exactWindow_iff hrun]
  refine ⟨fun h => h.1, fun hwin => ⟨hwin, fun p rest hpushes => ?_⟩⟩
  exact response_of_exactWindow hsend hrun.wellFormed hwin hpushes

def secondReply : PacketContent := ⟨"\n@END\r\n".toList, .normal⟩

/-- The second packet comes after the detach. -/
def replyApart : List (Action Unit) :=
  [.sender () (.send (.count 3)), .sender () .enterWait, .pushBack versionReply,
    .sender () .leaveWait, .sender () .detach, .pushBack secondReply]

/-- Two packets of one read reach the observer before the sender detaches it. -/
def twoReplies : List (Action Unit) :=
  [.sender () (.send (.count 3)), .sender () .enterWait, .pushBack versionReply,
    .pushBack secondReply]

theorem runsAfterAttach_versionQuery (acts : List (Action Unit))
    (h : exec (step versionQuery)
        (stateAfter versionQuery [.sender () .launch, .sender () .attach]) acts =
      some (stateAfter versionQuery ([.sender () .launch, .sender () .attach] ++ acts))) :
    RunsAfterAttach versionQuery ()
      (stateAfter versionQuery [.sender () .launch, .sender () .attach]) acts
      (stateAfter versionQuery ([.sender () .launch, .sender () .attach] ++ acts)) :=
  ⟨[.sender () .launch], stateAfter versionQuery [.sender () .launch], rfl, rfl, h⟩

theorem exact_delivery_window_replyApart :
    DetachesOnTime versionQuery ()
      (stateAfter versionQuery [.sender () .launch, .sender () .attach]) replyApart :=
  (exact_delivery_window.1 versionQuery () _ _ _
    (runsAfterAttach_versionQuery replyApart rfl)).mp rfl

theorem response_overwritten :
    ¬ ∀ (s : Sys Unit Str) (acts : List (Action Unit)) (t : Sys Unit Str),
      RunsAfterAttach versionQuery () s acts t →
        ExactWindow versionQuery () acts t ∧
          ∀ p rest, pushes acts = p :: rest → (t.call ()).captured = p.toString := by
  intro hall
  have hrun := runsAfterAttach_versionQuery twoReplies rfl
  have hstored := (hall _ _ _ hrun).2 versionReply [secondReply] rfl
  have hlast : (stateAfter versionQuery
      ([.sender () .launch, .sender () .attach] ++ twoReplies)).call () =
      ⟨.woken 3, secondReply.toString, [versionReply, secondReply]⟩ := rfl
  rw [hlast] at hstored
  exact absurd hstored (by decide)

end RfidEngine.AsyncSend
