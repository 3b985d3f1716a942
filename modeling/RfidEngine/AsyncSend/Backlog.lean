import RfidEngine.AsyncSend.Consume
import RfidEngine.Lib.Backlog

/-!
# AsyncSend: how long the packet queue gets

Every push puts one packet into the queue, and every observer that is updated
takes one out. A packet that comes between two commands stays, and only the
expiry of a watchdog empties the queue.

## Main result

In every run the queue holds the last packets pushed since it was emptied, as
many as came in the worst last stretch of time in excess of the updates. Where
no two observers are attached together these are as many packets as came
unattended.
-/

namespace RfidEngine.AsyncSend

open StepSystem

variable {ι ρ : Type*} [DecidableEq ι] {cfg : Config ι ρ}

/-- The state with the packets pushed since the queue was last emptied, each with the number of
observers attached then. No step reads them. -/
structure Counted (ι ρ : Type*) where
  sys : Sys ι ρ
  arrivals : List (PacketContent × Nat)

namespace Counted

/-- The packets pushed since the queue was last emptied after an action. -/
def arrivalsAfter (m : Counted ι ρ) : Action ι → List (PacketContent × Nat)
  | .pushBack packet => m.arrivals ++ [(packet, m.sys.packetQueue.observers.length)]
  | .watchDog _ .cancelCommandWait => []
  | _ => m.arrivals

def step (cfg : Config ι ρ) (m : Counted ι ρ) (a : Action ι) : Option (Counted ι ρ) :=
  (AsyncSend.step cfg m.sys a).map fun sys => ⟨sys, m.arrivalsAfter a⟩

def init (cfg : Config ι ρ) : Counted ι ρ := ⟨Sys.init cfg, []⟩

/-- The queue is what the updates have left of the packets. -/
def Follows (m : Counted ι ρ) : Prop := m.sys.packetQueue.queue = Backlog.served m.arrivals

theorem Follows.step {m m' : Counted ι ρ} {a : Action ι} (hm : m.Follows)
    (h : m.step cfg a = some m') : m'.Follows := by
  obtain ⟨sys, hsys, rfl⟩ := Option.map_eq_some_iff.mp h
  have hqueue := step_queue hsys
  unfold Follows at hm ⊢
  rw [hqueue]
  cases a with
  | sender c move => exact hm
  | watchDog c move =>
      cases move with
      | cancelCommandWait => rfl
      | _ => exact hm
  | pushBack packet =>
      rw [arrivalsAfter, Backlog.served_snoc, ← hm]
      rfl

/-- Every run of the system is counted. -/
theorem exists_of_exec {acts : List (Action ι)} {t : Sys ι ρ}
    (hrun : exec (AsyncSend.step cfg) (Sys.init cfg) acts = some t) :
    ∃ arrivals, exec (Counted.step cfg) (Counted.init cfg) acts = some ⟨t, arrivals⟩ := by
  refine exec_history
    (M := fun as u => ∃ arrivals,
      exec (Counted.step cfg) (Counted.init cfg) as = some ⟨u, arrivals⟩) ⟨[], rfl⟩ ?_ hrun
  rintro as u a u' - ⟨arrivals, hcounted⟩ hstep
  refine ⟨arrivalsAfter ⟨u, arrivals⟩ a, exec_snoc hcounted ?_⟩
  rw [Counted.step, hstep, Option.map_some]

end Counted

/-- An observer is attached only when no other is. -/
def AttachesAlone (s : Sys ι ρ) : Action ι → Prop
  | .sender _ .attach => s.packetQueue.observers = []
  | _ => True

instance (s : Sys ι ρ) : ∀ a, Decidable (AttachesAlone s a)
  | .sender _ .attach => inferInstanceAs (Decidable (s.packetQueue.observers = []))
  | .sender _ .launch | .sender _ (.send _) | .sender _ .enterWait | .sender _ .skipWait
  | .sender _ .spuriousWake | .sender _ .leaveWait | .sender _ .detach | .sender _ .setCancel
  | .sender _ .join | .watchDog _ _ | .pushBack _ => isTrue trivial

theorem observers_of_attachesAlone {s s' : Sys ι ρ} {a : Action ι} (h : step cfg s a = some s')
    (halone : AttachesAlone s a) (hs : s.packetQueue.observers.length ≤ 1) :
    s'.packetQueue.observers.length ≤ 1 := by
  rw [step_observers h]
  unfold observersAfter
  split
  · rw [show s.packetQueue.observers = [] from halone]
    exact Nat.le_refl 1
  · exact (List.length_erase_le).trans hs
  · exact hs

/-- Where no two observers are attached together, no packet finds two. -/
theorem arrivals_le_one {acts : List (Action ι)} {m : Counted ι ρ}
    (hrun : exec (Counted.step cfg) (Counted.init cfg) acts = some m)
    (halone : Along (step cfg) AttachesAlone (Sys.init cfg) acts) :
    m.sys.packetQueue.observers.length ≤ 1 ∧ ∀ a ∈ m.arrivals, a.2 ≤ 1 := by
  refine (exec_history (M := fun as u => exec (step cfg) (Sys.init cfg) as = some u.sys ∧
    (Along (step cfg) AttachesAlone (Sys.init cfg) as → u.sys.packetQueue.observers.length ≤ 1 ∧
      ∀ a ∈ u.arrivals, a.2 ≤ 1)) ?_ ?_ hrun).2 halone
  · exact ⟨rfl, fun _ => ⟨Nat.zero_le 1, fun _ h => absurd h List.not_mem_nil⟩⟩
  · rintro as u a u' - ⟨hsys, ih⟩ hstep
    obtain ⟨sys, hturn, rfl⟩ := Option.map_eq_some_iff.mp hstep
    refine ⟨exec_snoc hsys hturn, ?_⟩
    intro hsnoc
    obtain ⟨has, ha⟩ := (along_snoc hsys).mp hsnoc
    obtain ⟨hobservers, harrivals⟩ := ih has
    refine ⟨observers_of_attachesAlone hturn ha hobservers, ?_⟩
    cases a with
    | sender c move => exact harrivals
    | watchDog c move =>
        cases move with
        | cancelCommandWait => exact fun _ h => absurd h List.not_mem_nil
        | _ => exact harrivals
    | pushBack packet =>
        intro arrival harrival
        obtain hold | hnew := List.mem_append.mp harrival
        · exact harrivals arrival hold
        · exact List.mem_singleton.mp hnew ▸ hobservers

/-- In every run the queue holds the last packets since it was emptied, as many as the greatest
excess of packets over updates in a last stretch of time; where no two observers are attached
together, as many as came while none was. -/
theorem queue_length_of_run (cfg : Config ι ρ) (acts : List (Action ι)) (t : Sys ι ρ)
    (hrun : exec (step cfg) (Sys.init cfg) acts = some t) :
    ∃ arrivals, exec (Counted.step cfg) (Counted.init cfg) acts = some ⟨t, arrivals⟩ ∧
      t.packetQueue.queue <:+ arrivals.map Prod.fst ∧
      IsGreatest {e | ∃ s, s <:+ arrivals ∧ e = Backlog.excess s} t.packetQueue.queue.length ∧
      (Along (step cfg) AttachesAlone (Sys.init cfg) acts →
        t.packetQueue.queue.length = arrivals.countP fun a => a.2 == 0) := by
  obtain ⟨arrivals, hcounted⟩ := Counted.exists_of_exec hrun
  have hfollows : t.packetQueue.queue = Backlog.served arrivals := by
    have hstart : (Counted.init cfg).Follows := rfl
    exact exec_invariant (fun _ _ _ hm h => Counted.Follows.step hm h) hstart hcounted
  refine ⟨arrivals, hcounted, ?_, ?_, fun halone => ?_⟩
  · exact hfollows ▸ Backlog.served_suffix arrivals
  · exact hfollows ▸ Backlog.isGreatest_length arrivals
  · rw [hfollows]
    exact Backlog.length_served_of_le_one (arrivals_le_one hcounted halone).2

/-- A packet comes before the query, which is then answered. -/
def strayRun : List (Action Unit) :=
  .pushBack strayPacket :: attachQuery ++ [.pushBack versionReply]

/-- One packet stays behind. -/
theorem queue_length_of_run_strayPacket :
    (stateAfter versionQuery strayRun).packetQueue.queue.length = 1 := by
  obtain ⟨arrivals, hcounted, -, -, hlength⟩ := queue_length_of_run versionQuery strayRun
    (stateAfter versionQuery strayRun) rfl
  have harrivals : arrivals = [(strayPacket, 0), (versionReply, 1)] :=
    (congrArg Counted.arrivals (Option.some.inj hcounted)).symm
  rw [hlength (by decide), harrivals]
  rfl

end RfidEngine.AsyncSend
