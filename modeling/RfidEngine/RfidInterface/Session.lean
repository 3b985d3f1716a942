import RfidEngine.AsyncSend.Expiry
import RfidEngine.AsyncSend.Release

/-!
# Requests and answers of a session

`Send` calls are made one after another; the reader answers every command it
receives with one frame, in the order received. A session keeps the commands
that are not answered yet and, for each call, the commands whose answers it has
stored. An answer goes to whatever call is attached when it arrives.
-/

namespace RfidEngine.RfidInterface

open AsyncSend StepSystem

/-- The `Send` calls of a session, the k-th with its arguments, and the reader's answers. -/
structure SessionConfig where
  enableWatchDog : Bool
  uiCommandType : Nat → Nat
  lpBuf : Nat → Str
  response : Nat → Str
  answer : Nat → PacketContent

def SessionConfig.engine (cfg : SessionConfig) : Config Nat Str :=
  ⟨cfg.enableWatchDog, fun k => sendCommand (cfg.uiCommandType k) (cfg.lpBuf k) (cfg.response k)⟩

structure Session where
  sys : Sys Nat Str
  unanswered : List Nat
  storedFrom : Nat → List Nat

/-- A step of a sender or a watchdog, or the reader's next answer. -/
inductive SessionAction where
  | thread (a : Action Nat)
  | answer

/-- The commands the reader receives by a step: a command whose whole text was written. -/
def SessionConfig.received (cfg : SessionConfig) : Action Nat → List Nat
  | .sender k (.send (.count nSend)) =>
      if cfg.lpBuf k ≠ [] ∧ (cfg.lpBuf k).length ≤ nSend then [k] else []
  | _ => []

/-- A call begins when all calls before it have ended; packets come from the reader only. -/
def Session.allows (s : Session) : Action Nat → Bool
  | .sender k .launch => decide (∀ j < k, (s.sys.call j).pc.ended = true)
  | .pushBack _ => false
  | _ => true

def Session.step (cfg : SessionConfig) (s : Session) : SessionAction → Option Session
  | .thread a =>
      if s.allows a then
        (AsyncSend.step cfg.engine s.sys a).map fun sys =>
          { s with sys := sys, unanswered := s.unanswered ++ cfg.received a }
      else none
  | .answer =>
      match s.unanswered with
      | [] => none
      | j :: rest =>
          (AsyncSend.step cfg.engine s.sys (.pushBack (cfg.answer j))).map fun sys =>
            { sys := sys
              unanswered := rest
              storedFrom := fun k =>
                if k ∈ s.sys.packetQueue.observers then s.storedFrom k ++ [j]
                else s.storedFrom k }

def Session.init (cfg : SessionConfig) : Session := ⟨Sys.init cfg.engine, [], fun _ => []⟩

/-- Every call has stored answers to its own command only. -/
def Session.Matched (s : Session) : Prop := ∀ k, ∀ j ∈ s.storedFrom k, j = k

/-- When an answer arrives during a call, no command but that of the call is unanswered. -/
def Session.AnswersOnTime (s : Session) (a : SessionAction) : Prop :=
  a = .answer → ∀ k, (s.sys.call k).pc.holdsObserver = true → ∀ j ∈ s.unanswered, j = k

/-- The send has returned a count. -/
def hasSent : Pc → Bool
  | .sent _ | .waiting _ | .woken _ | .leaving _ | .detached _ | .cancelSet _ | .returned _
  | .raised .join => true
  | _ => false

/-- The calls follow one another, and the unanswered commands are in the order of the calls. -/
structure Session.Ordered (cfg : SessionConfig) (s : Session) : Prop where
  wellFormed : WellFormed cfg.engine s.sys
  sequential : ∀ j k, j < k → (s.sys.call k).pc ≠ .notStarted → (s.sys.call j).pc.ended = true
  sorted : s.unanswered.Pairwise (· < ·)
  sent : ∀ k ∈ s.unanswered, hasSent (s.sys.call k).pc = true
  delivered_eq : ∀ k, (s.sys.call k).delivered = (s.storedFrom k).map cfg.answer

variable {cfg : SessionConfig}

theorem step_thread {s s' : Session} {a : Action Nat} (h : s.step cfg (.thread a) = some s') :
    s.allows a = true ∧ ∃ sys, AsyncSend.step cfg.engine s.sys a = some sys ∧
      s' = { s with sys := sys, unanswered := s.unanswered ++ cfg.received a } := by
  simp only [Session.step] at h
  split at h
  · obtain ⟨sys, hsys, rfl⟩ := Option.map_eq_some_iff.mp h
    exact ⟨by assumption, sys, hsys, rfl⟩
  · exact absurd h (by simp)

theorem step_answer {s s' : Session} (h : s.step cfg .answer = some s') :
    ∃ j rest sys, s.unanswered = j :: rest ∧
      AsyncSend.step cfg.engine s.sys (.pushBack (cfg.answer j)) = some sys ∧ s' =
        { sys := sys
          unanswered := rest
          storedFrom := fun k =>
            if k ∈ s.sys.packetQueue.observers then s.storedFrom k ++ [j]
            else s.storedFrom k } := by
  simp only [Session.step] at h
  split at h
  · exact absurd h (by simp)
  · rename_i j rest hun
    obtain ⟨sys, hsys, rfl⟩ := Option.map_eq_some_iff.mp h
    exact ⟨j, rest, sys, hun, hsys, rfl⟩

/-- How far a call has come, as far as the order of the calls is concerned. -/
structure Progress (pc pc' : Pc) (launched : Prop) : Prop where
  ended : pc.ended = true → pc'.ended = true
  hasSent : hasSent pc = true → hasSent pc' = true
  started : pc' ≠ .notStarted → pc ≠ .notStarted ∨ launched

theorem Progress.refl (pc : Pc) (launched : Prop) : Progress pc pc launched :=
  ⟨id, id, Or.inl⟩

theorem Progress.notifyOne (pc : Pc) (launched : Prop) : Progress pc pc.notifyOne launched := by
  cases pc with
  | waiting result => exact ⟨id, id, fun _ => Or.inl (by simp)⟩
  | _ => exact Progress.refl _ _

theorem Progress.next {cmd : Command Str} {w : WatchDog} {pc pc' : Pc} {move : Move}
    (h : pc.next cmd w move = some pc') : Progress pc pc' (move = .launch) := by
  unfold Pc.next at h
  split at h <;> constructor <;> grind [RfidInterface.hasSent, Pc.ended]

theorem progress_of_callStep {s : Sys Nat Str} {c : Nat} {a : Action Nat} {k : Call Str}
    (h : CallStep cfg.engine s c a k) :
    Progress (s.call c).pc k.pc (a = .sender c .launch) := by
  cases h with
  | moved move pc hnext =>
      have hprogress := Progress.next hnext
      exact ⟨hprogress.ended, hprogress.hasSent, fun hpc =>
        (hprogress.started hpc).imp_right (congrArg (Action.sender c))⟩
  | updated p hpc =>
      rw [Call.update_pc]
      split
      · exact Progress.notifyOne _ _
      · exact Progress.refl _ _
  | notified d htarget => exact Progress.notifyOne _ _
  | _ => exact Progress.refl _ _

/-- A step of the engine that launches a call only after all calls before it keeps their
order. -/
theorem sequential_step {s s' : Sys Nat Str} {a : Action Nat} (hs : WellFormed cfg.engine s)
    (h : AsyncSend.step cfg.engine s a = some s')
    (hseq : ∀ j k, j < k → (s.call k).pc ≠ .notStarted → (s.call j).pc.ended = true)
    (hlaunch : ∀ k, a = .sender k .launch → ∀ j < k, (s.call j).pc.ended = true) :
    ∀ j k, j < k → (s'.call k).pc ≠ .notStarted → (s'.call j).pc.ended = true := by
  intro j k hjk hk
  apply (progress_of_callStep (callStep hs h j)).ended
  obtain hstarted | hlaunched := (progress_of_callStep (callStep hs h k)).started hk
  · exact hseq j k hjk hstarted
  · exact hlaunch k hlaunched j hjk

/-- Only the send of an attached call is received, and it leaves the call sent. -/
theorem received_eq {s s' : Sys Nat Str} {a : Action Nat}
    (h : AsyncSend.step cfg.engine s a = some s') :
    cfg.received a = [] ∨
      ∃ k, cfg.received a = [k] ∧ (s.call k).pc = .attached ∧ hasSent (s'.call k).pc = true := by
  unfold SessionConfig.received
  split
  · rename_i k nSend
    split
    · rename_i hwritten
      obtain ⟨pc, hnext, rfl⟩ := step_sender h
      obtain ⟨hpc, rfl⟩ := next_send_count hwritten.1 hnext
      exact Or.inr ⟨k, rfl, hpc, by simp [Sys.setCall, hasSent]⟩
    · exact Or.inl rfl
  · exact Or.inl rfl

theorem delivered_thread {s s' : Sys Nat Str} {a : Action Nat} (hs : WellFormed cfg.engine s)
    (h : AsyncSend.step cfg.engine s a = some s') (hpush : ∀ p, a ≠ .pushBack p) (k : Nat) :
    (s'.call k).delivered = (s.call k).delivered := by
  have hcall := callStep hs h k
  generalize s'.call k = call at hcall ⊢
  cases hcall with
  | updated p hpc => exact absurd rfl (hpush p)
  | _ => rfl

theorem Session.Ordered.thread {s s' : Session} {a : Action Nat} (hs : s.Ordered cfg)
    (h : s.step cfg (.thread a) = some s') : s'.Ordered cfg := by
  obtain ⟨hallows, sys, hsys, rfl⟩ := step_thread h
  have hkeep : ∀ j ∈ s.unanswered, hasSent (sys.call j).pc = true := fun j hj =>
    (progress_of_callStep (callStep hs.wellFormed hsys j)).hasSent (hs.sent j hj)
  have hpush : ∀ p, a ≠ .pushBack p := by
    intro p heq
    rw [heq] at hallows
    exact absurd hallows Bool.false_ne_true
  constructor
  · exact hs.wellFormed.step hsys
  · apply sequential_step hs.wellFormed hsys hs.sequential
    intro k heq
    rw [heq] at hallows
    simpa [Session.allows] using hallows
  · obtain hnil | ⟨k, hk, hpc, -⟩ := received_eq hsys
    · simpa [hnil] using hs.sorted
    · rw [hk]
      refine List.pairwise_append.mpr ⟨hs.sorted, List.pairwise_singleton _ _, ?_⟩
      intro j hj k' hk'
      obtain rfl := List.mem_singleton.mp hk'
      have hsent := hs.sent j hj
      obtain hlt | rfl | hgt := Nat.lt_trichotomy j k'
      · exact hlt
      · rw [hpc] at hsent
        exact absurd hsent Bool.false_ne_true
      · have hended := hs.sequential k' j hgt fun heq => by simp [heq, hasSent] at hsent
        rw [hpc] at hended
        exact absurd hended Bool.false_ne_true
  · intro j hj
    obtain hold | hnew := List.mem_append.mp hj
    · exact hkeep j hold
    · obtain hnil | ⟨k, hk, -, hsent⟩ := received_eq hsys
      · exact absurd (hnil ▸ hnew) List.not_mem_nil
      · obtain rfl := List.mem_singleton.mp (hk ▸ hnew)
        exact hsent
  · intro k
    exact (delivered_thread hs.wellFormed hsys hpush k).trans (hs.delivered_eq k)

theorem Session.Ordered.answer {s s' : Session} (hs : s.Ordered cfg)
    (h : s.step cfg .answer = some s') : s'.Ordered cfg := by
  obtain ⟨j, rest, sys, hun, hsys, rfl⟩ := step_answer h
  have hsorted := List.pairwise_cons.mp (hun ▸ hs.sorted)
  constructor
  · exact hs.wellFormed.step hsys
  · exact sequential_step hs.wellFormed hsys hs.sequential (by simp)
  · exact hsorted.2
  · intro k hk
    apply (progress_of_callStep (callStep hs.wellFormed hsys k)).hasSent
    exact hs.sent k (hun ▸ List.mem_cons_of_mem j hk)
  · intro k
    rw [AsyncSend.step_pushBack hsys, pushBack_call hs.wellFormed]
    simp only [hs.wellFormed.mem_iff]
    split
    · simp [hs.delivered_eq k]
    · exact hs.delivered_eq k

theorem Session.Ordered.step {s s' : Session} {a : SessionAction} (hs : s.Ordered cfg)
    (h : s.step cfg a = some s') : s'.Ordered cfg := by
  cases a with
  | thread a => exact hs.thread h
  | answer => exact hs.answer h

theorem ordered_init (cfg : SessionConfig) : (Session.init cfg).Ordered cfg where
  wellFormed := wellFormed_init cfg.engine
  sequential _ _ _ h := absurd rfl h
  sorted := List.Pairwise.nil
  sent _ h := absurd h List.not_mem_nil
  delivered_eq _ := rfl

/-- A call that has ended with its observer attached has not sent. -/
theorem hasSent_of_leaked {pc : Pc} (hpc : pc.holdsObserver = true) (hended : pc.ended = true) :
    hasSent pc = false := by
  cases pc with
  | raised fault => cases fault <;> simp_all [Pc.holdsObserver, hasSent]
  | _ => simp_all [Pc.holdsObserver, Pc.ended]

/-- One step stores the answer to another command exactly when an answer arrives during a
call while another command is unanswered. -/
theorem matched_step {s s' : Session} {a : SessionAction} (hs : s.Ordered cfg)
    (hmatched : s.Matched) (h : s.step cfg a = some s') : s'.Matched ↔ s.AnswersOnTime a := by
  cases a with
  | thread a =>
      obtain ⟨-, sys, -, rfl⟩ := step_thread h
      exact iff_of_true hmatched nofun
  | answer =>
      obtain ⟨j, rest, sys, hun, -, rfl⟩ := step_answer h
      have hsorted := List.pairwise_cons.mp (hun ▸ hs.sorted)
      constructor
      · intro hafter _ k hpc i hi
        have hmem : k ∈ s.sys.packetQueue.observers := (hs.wellFormed.mem_iff k).mpr hpc
        obtain rfl : j = k := hafter k j (by simp [hmem])
        obtain rfl | hrest := List.mem_cons.mp (hun ▸ hi)
        · rfl
        · -- A later command is out only when the call of this one has ended.
          have hsent := hs.sent i hi
          have hended := hs.sequential j i (hsorted.1 i hrest) fun heq => by
            simp [heq, hasSent] at hsent
          have hjsent := hs.sent j (hun ▸ List.mem_cons_self)
          exact absurd (hasSent_of_leaked hpc hended ▸ hjsent) Bool.false_ne_true
      · intro htime k i hi
        by_cases hmem : k ∈ s.sys.packetQueue.observers
        · have hi' : i ∈ s.storedFrom k ++ [j] := by simpa [hmem] using hi
          obtain hold | hnew := List.mem_append.mp hi'
          · exact hmatched k i hold
          · obtain rfl := List.mem_singleton.mp hnew
            exact htime rfl k ((hs.wellFormed.mem_iff k).mp hmem) i (hun ▸ List.mem_cons_self)
        · exact hmatched k i (by simpa [hmem] using hi)

/-- A session stores for every command the answer to it and no other exactly when no answer
arrives during a call while another command is unanswered. -/
theorem session_matched_iff {acts : List SessionAction} {t : Session}
    (hrun : exec (Session.step cfg) (Session.init cfg) acts = some t) :
    Always (Session.step cfg) Session.Matched (Session.init cfg) acts ↔
      Along (Session.step cfg) Session.AnswersOnTime (Session.init cfg) acts :=
  always_iff_along (I := fun s => s.Ordered cfg) (fun _ _ _ hs h => hs.step h)
    (fun _ _ _ hs hmatched h => matched_step hs hmatched h) (ordered_init cfg)
    (fun _ _ h => absurd h List.not_mem_nil) hrun

/-- The response of a call is the last answer it has stored. -/
theorem response_eq_answer {acts : List SessionAction} {t : Session} {k j : Nat}
    {before : List Nat} (hrun : exec (Session.step cfg) (Session.init cfg) acts = some t)
    (hstored : t.storedFrom k = before ++ [j]) :
    (t.sys.call k).captured = (cfg.answer j).toString := by
  have ht := exec_invariant (I := fun s => Session.Ordered cfg s) (fun _ _ _ hs h => hs.step h)
    (ordered_init cfg) hrun
  rw [(ht.wellFormed.traced k).captured_eq, ht.delivered_eq, hstored, List.map_append,
    List.map_singleton, Judge.final_snoc]
  rfl

/-- No call attaches while a command is unanswered, and no send throws. -/
def Session.inTurn (s : Session) : SessionAction → Bool
  | .thread (.sender _ .attach) => s.unanswered.isEmpty
  | .thread (.sender _ (.send .throws)) => false
  | _ => true

/-- During a call no command but its own is unanswered, and no observer has leaked. -/
structure Session.Exclusive (cfg : SessionConfig) (s : Session) : Prop where
  ordered : s.Ordered cfg
  own : ∀ k, (s.sys.call k).pc.holdsObserver = true → ∀ j ∈ s.unanswered, j = k
  running : ∀ k, (s.sys.call k).pc ≠ .raised .send

/-- At most one call is attached. -/
theorem Session.Exclusive.attached_unique {s : Session} (hs : s.Exclusive cfg) {j k : Nat}
    (hj : (s.sys.call j).pc.holdsObserver = true) (hk : (s.sys.call k).pc.holdsObserver = true) :
    j = k := by
  have hended : ∀ i, (s.sys.call i).pc.holdsObserver = true → (s.sys.call i).pc.ended = false := by
    intro i hi
    have hrunning := hs.running i
    generalize (s.sys.call i).pc = pc at hi hrunning
    cases pc with
    | raised fault => cases fault <;> simp_all [Pc.holdsObserver]
    | _ => simp_all [Pc.holdsObserver, Pc.ended]
  have hstarted : ∀ i, (s.sys.call i).pc.holdsObserver = true →
      (s.sys.call i).pc ≠ .notStarted := by
    intro i hi heq
    rw [heq] at hi
    exact absurd hi Bool.false_ne_true
  obtain hlt | heq | hgt := Nat.lt_trichotomy j k
  · have h := hs.ordered.sequential j k hlt (hstarted k hk)
    exact absurd ((hended j hj).symm.trans h) Bool.false_ne_true
  · exact heq
  · have h := hs.ordered.sequential k j hgt (hstarted j hj)
    exact absurd ((hended k hk).symm.trans h) Bool.false_ne_true

theorem running_step {s s' : Sys Nat Str} {a : Action Nat} (hs : WellFormed cfg.engine s)
    (h : AsyncSend.step cfg.engine s a = some s') {k : Nat}
    (hk : (s.call k).pc ≠ .raised .send) (ha : a ≠ .sender k (.send .throws)) :
    (s'.call k).pc ≠ .raised .send := by
  have hcall := callStep hs h k
  have hnotify : (s.call k).pc.notifyOne ≠ .raised .send := by
    generalize (s.call k).pc = pc at hk
    cases pc <;> simp_all [Pc.notifyOne]
  generalize s'.call k = call at hcall ⊢
  cases hcall with
  | moved move pc hnext =>
      intro heq
      have hraised := (next_eq_raised hnext).2.mp heq
      exact ha (congrArg (Action.sender k) hraised.2)
  | updated p hpc =>
      rw [Call.update_pc]
      split
      · exact hnotify
      · exact hk
  | notified d htarget => exact hnotify
  | _ => exact hk

theorem Session.Exclusive.step {s s' : Session} {a : SessionAction} (hs : s.Exclusive cfg)
    (hturn : s.inTurn a = true) (h : s.step cfg a = some s') : s'.Exclusive cfg := by
  have hordered := hs.ordered.step h
  cases a with
  | thread a =>
      obtain ⟨-, sys, hsys, rfl⟩ := step_thread h
      have hholds := fun k => (callStep hs.ordered.wellFormed hsys k).holdsObserver
      refine ⟨hordered, fun k hk j hj => ?_, fun k => ?_⟩
      · by_cases hattach : a = .sender k .attach
        · subst hattach
          have hnone : s.unanswered = [] := List.isEmpty_iff.mp hturn
          exact absurd hj (by simp [hnone, SessionConfig.received])
        · have hkold : (s.sys.call k).pc.holdsObserver = true := by
            have hk' := hholds k
            rw [if_neg hattach] at hk'
            split at hk'
            · exact absurd (hk'.symm.trans hk) Bool.false_ne_true
            · exact hk'.symm.trans hk
          obtain hold | hnew := List.mem_append.mp hj
          · exact hs.own k hkold j hold
          · obtain hnil | ⟨i, hi, hpc, -⟩ := received_eq hsys
            · exact absurd (hnil ▸ hnew) List.not_mem_nil
            · obtain rfl := List.mem_singleton.mp (hi ▸ hnew)
              exact hs.attached_unique (by rw [hpc]; rfl) hkold
      · apply running_step hs.ordered.wellFormed hsys (hs.running k)
        intro heq
        rw [heq] at hturn
        exact absurd hturn Bool.false_ne_true
  | answer =>
      obtain ⟨j, rest, sys, hun, hsys, rfl⟩ := step_answer h
      refine ⟨hordered, fun k hk i hi => ?_, fun k => ?_⟩
      · have hholds := (callStep hs.ordered.wellFormed hsys k).holdsObserver
        exact hs.own k (by simpa using hholds.symm.trans hk) i (hun ▸ List.mem_cons_of_mem j hi)
      · exact running_step hs.ordered.wellFormed hsys (hs.running k) (by simp)

/-- In a session in turn every answer arrives on time. -/
theorem answersOnTime_of_inTurn {s : Session} (hs : s.Exclusive cfg) {acts : List SessionAction}
    (hturn : Along (Session.step cfg) (fun s a => s.inTurn a = true) s acts) :
    Along (Session.step cfg) Session.AnswersOnTime s acts := by
  induction acts generalizing s with
  | nil => trivial
  | cons a acts ih =>
      refine ⟨fun _ k hk j hj => hs.own k hk j hj, fun s' h => ?_⟩
      exact ih (hs.step hturn.1 h) (hturn.2 s' h)

theorem exclusive_init (cfg : SessionConfig) : (Session.init cfg).Exclusive cfg :=
  ⟨ordered_init cfg, fun _ h => absurd h nofun, fun _ => nofun⟩

/-- Version queries to a reader whose first answer is a version and whose others are not. -/
def versionSession : SessionConfig where
  enableWatchDog := true
  uiCommandType _ := rfPtReqGetFirmwareVersion
  lpBuf _ := "\nV\r".toList
  response _ := []
  answer
    | 0 => versionReply
    | _ + 1 => ⟨"\nS01\r\n".toList, .normal⟩

/-- The call `k` up to its wait. -/
def asks (k : Nat) : List SessionAction :=
  [.thread (.sender k .launch), .thread (.sender k .attach),
    .thread (.sender k (.send (.count 3))), .thread (.sender k .enterWait)]

/-- The call `k` after its wake-up, with the watchdog's last look at the flag. -/
def leaves (k : Nat) : List SessionAction :=
  [.thread (.sender k .leaveWait), .thread (.sender k .detach), .thread (.sender k .setCancel),
    .thread (.watchDog k .sleep), .thread (.watchDog k .test), .thread (.sender k .join)]

/-- Two calls, each answered while it is attached. -/
def answeredInTurn : List SessionAction :=
  asks 0 ++ [.answer] ++ leaves 0 ++ asks 1 ++ [.answer] ++ leaves 1

theorem session_matched_answeredInTurn :
    Always (Session.step versionSession) Session.Matched (Session.init versionSession)
      answeredInTurn := by
  obtain ⟨t, ht⟩ : ∃ t, exec (Session.step versionSession) (Session.init versionSession)
      answeredInTurn = some t := ⟨_, rfl⟩
  apply (session_matched_iff ht).mpr
  exact answersOnTime_of_inTurn (exclusive_init versionSession) (by decide)

/-- Steps of watchdogs in the engine are steps of the session. -/
theorem exec_watchDogs {s : Session} {sys : Sys Nat Str} {acts : List (Action Nat)}
    (hacts : ∀ a ∈ acts, ∃ c move, a = .watchDog c move)
    (hrun : exec (AsyncSend.step cfg.engine) s.sys acts = some sys)
    (rest : List SessionAction) :
    exec (Session.step cfg) s (acts.map .thread ++ rest) =
      exec (Session.step cfg) { s with sys := sys } rest := by
  induction acts generalizing s with
  | nil =>
      obtain rfl := Option.some.inj hrun
      rfl
  | cons a acts ih =>
      obtain ⟨c, move, rfl⟩ := hacts a List.mem_cons_self
      obtain ⟨u, hu, hrest⟩ := (exec_cons_eq_some _).mp hrun
      have hstep : s.step cfg (.thread (.watchDog c move)) = some { s with sys := u } := by
        simp [Session.step, Session.allows, SessionConfig.received, hu]
      rw [List.map_cons, List.cons_append, exec_cons, hstep, Option.bind_some]
      exact ih (s := { s with sys := u }) (fun a ha => hacts a (List.mem_cons_of_mem _ ha)) hrest

theorem mem_expire {c : Nat} {a : Action Nat} (ha : a ∈ expire c) :
    ∃ d move, a = .watchDog d move := by
  simp only [expire, countdown, List.mem_append, List.mem_flatten, List.mem_replicate,
    List.mem_cons, List.not_mem_nil, or_false] at ha
  obtain ⟨l, ⟨-, rfl⟩, hl⟩ | rfl | rfl := ha
  · obtain rfl | hl := List.mem_cons.mp hl
    · exact ⟨c, .sleep, rfl⟩
    · exact ⟨c, .test, List.mem_singleton.mp hl⟩
  · exact ⟨c, .sleep, rfl⟩
  · exact ⟨c, .test, rfl⟩

/-- The first call is cancelled and its answer comes during the second. -/
def lateAnswer : List SessionAction :=
  [.thread (.watchDog 0 .cancelCommandWait), .thread (.sender 0 .leaveWait),
    .thread (.sender 0 .detach), .thread (.sender 0 .setCancel), .thread (.sender 0 .join)] ++
      asks 1 ++ [.answer]

def firstAsked : Session :=
  (exec (Session.step versionSession) (Session.init versionSession) (asks 0)).getD
    (Session.init versionSession)

theorem answer_to_earlier_command :
    ¬ ∀ (acts : List SessionAction) (t : Session),
      exec (Session.step versionSession) (Session.init versionSession) acts = some t →
        t.Matched := by
  intro hall
  have hstart : exec (Session.step versionSession) (Session.init versionSession) (asks 0) =
      some firstAsked := rfl
  have hexpire : exec (AsyncSend.step versionSession.engine) firstAsked.sys (expire 0 ++ []) =
      some (firstAsked.sys.setWatchDog 0 ⟨.triggered, false, false⟩) :=
    exec_expire rfl rfl []
  rw [List.append_nil] at hexpire
  have hlate : (exec (Session.step versionSession)
      { firstAsked with sys := firstAsked.sys.setWatchDog 0 ⟨.triggered, false, false⟩ }
        lateAnswer).map (fun t => t.storedFrom 1) = some [0] := rfl
  obtain ⟨t, ht, hstored⟩ := Option.map_eq_some_iff.mp hlate
  have hrun : exec (Session.step versionSession) (Session.init versionSession)
      (asks 0 ++ ((expire 0).map .thread ++ lateAnswer)) = some t := by
    rw [exec_append, hstart, Option.bind_some, exec_watchDogs (fun _ => mem_expire) hexpire, ht]
  have hmem : 0 ∈ t.storedFrom 1 := hstored ▸ List.mem_singleton_self 0
  exact absurd (hall _ t hrun 1 0 hmem) (by decide)

end RfidEngine.RfidInterface
