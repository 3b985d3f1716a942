import RfidEngine.AsyncSend.Wakeup

/-!
# AsyncSend: which packet an update removes

An update shows its observer the packet that was pushed last and pops the one
at the head of the queue. A packet that came while no observer was attached
stays in the queue and is then removed in place of the packet of a command.

## Main result

The packet shown is the one removed exactly where the queue holds no other
packet. In a run no packet that came unattended is removed by an update exactly
where every packet pushed to an observer finds the queue empty.
-/

namespace RfidEngine.AsyncSend

open StepSystem

variable {ι ρ : Type*} [DecidableEq ι] {cfg : Config ι ρ}

/-- The update of a lone observer takes the packet it has just been shown out of the queue, which
is then as it was before the push. -/
structure ConsumesPushed (cfg : Config ι ρ) (packet : PacketContent) (s : Sys ι ρ) (c : ι) :
    Prop where
  popped : ((s.pushBack cfg packet).call c).delivered.getLast? =
    some (s.packetQueue.enqueue packet).pop.1
  kept : (s.pushBack cfg packet).packetQueue.queue = s.packetQueue.queue

/-- The state with the packets of the queue, each with whether it came while no observer was
attached. No step reads the marks. -/
structure Marked (ι ρ : Type*) where
  sys : Sys ι ρ
  arrived : List (PacketContent × Bool)

namespace Marked

/-- The queue with the packet that is pushed, before the updates. -/
def arrivals (m : Marked ι ρ) (packet : PacketContent) : List (PacketContent × Bool) :=
  m.arrived ++ [(packet, m.sys.packetQueue.observers.isEmpty)]

/-- What the updates of a push remove: one packet for each observer. -/
def removed (m : Marked ι ρ) : Action ι → List (PacketContent × Bool)
  | .pushBack packet => (m.arrivals packet).take m.sys.packetQueue.observers.length
  | _ => []

/-- What an action leaves in the queue; the reset of a watchdog leaves nothing. -/
def left (m : Marked ι ρ) : Action ι → List (PacketContent × Bool)
  | .pushBack packet => (m.arrivals packet).drop m.sys.packetQueue.observers.length
  | .watchDog _ .cancelCommandWait => []
  | _ => m.arrived

def step (cfg : Config ι ρ) (m : Marked ι ρ) (a : Action ι) : Option (Marked ι ρ) :=
  (AsyncSend.step cfg m.sys a).map fun sys => ⟨sys, m.left a⟩

def init (cfg : Config ι ρ) : Marked ι ρ := ⟨Sys.init cfg, []⟩

/-- No packet that came while no observer was attached is removed by an update. -/
def KeepsUnattended (m : Marked ι ρ) (a : Action ι) : Prop :=
  ∀ p ∈ m.removed a, p.2 = false

/-- A packet that is pushed to an observer finds the queue empty. -/
def FindsEmpty (m : Marked ι ρ) : Action ι → Prop
  | .pushBack _ => m.sys.packetQueue.observers ≠ [] → m.sys.packetQueue.queue = []
  | _ => True

end Marked

/-- The queue after an action. -/
def queueAfter (q : PacketQueue ι) : Action ι → List PacketContent
  | .pushBack packet => (q.queue ++ [packet]).drop q.observers.length
  | .watchDog _ .cancelCommandWait => []
  | _ => q.queue

/-- Every update takes one packet from the head. -/
theorem foldl_update_queue (p : PacketContent) (l : List ι) (s : Sys ι ρ) :
    (l.foldl (Sys.update cfg p) s).packetQueue.queue = s.packetQueue.queue.drop l.length := by
  induction l generalizing s with
  | nil => rfl
  | cons c l ih =>
      have hpop : (s.update cfg p c).packetQueue.queue = s.packetQueue.queue.tail :=
        PacketQueue.pop_queue _
      rw [List.foldl_cons, ih, hpop, List.drop_tail, List.length_cons]

theorem pushBack_queue (p : PacketContent) (s : Sys ι ρ) :
    (s.pushBack cfg p).packetQueue.queue =
      (s.packetQueue.queue ++ [p]).drop s.packetQueue.observers.length :=
  foldl_update_queue p _ _

theorem effect_queue (c : ι) (s : Sys ι ρ) (move : Move) :
    (s.effect cfg c move).packetQueue.queue = s.packetQueue.queue := by
  obtain ⟨q, abort, heffect, hqueue, -⟩ := effect_eq c s move
  rw [heffect]
  exact hqueue

theorem step_queue {s s' : Sys ι ρ} {a : Action ι} (h : step cfg s a = some s') :
    s'.packetQueue.queue = queueAfter s.packetQueue a := by
  cases a with
  | sender c move =>
      obtain ⟨pc, -, rfl⟩ := step_sender h
      exact effect_queue c _ move
  | watchDog c move =>
      obtain ⟨w, -, rfl⟩ := step_watchDog h
      cases move with
      | cancelCommandWait =>
          simp only [Sys.watchDogEffect, Sys.cancelCommandWait]
          split <;> rfl
      | _ => rfl
  | pushBack packet =>
      obtain rfl := step_pushBack h
      exact pushBack_queue packet s

/-- An item goes in at the end and one out at the head without a trace exactly where all are
alike. -/
theorem tail_append_singleton_eq_iff {α : Type*} {l : List α} {x : α} :
    (l ++ [x]).tail = l ↔ ∀ y ∈ l, y = x := by
  induction l with
  | nil => simp
  | cons y l ih =>
      rw [List.cons_append, List.tail_cons, List.forall_mem_cons, ← ih]
      cases l with
      | nil => simp [eq_comm]
      | cons z l =>
          rw [List.cons_append, List.tail_cons, List.cons.injEq]
          have hz : l ++ [x] = z :: l → z = x := fun h => ih.mp h z List.mem_cons_self
          constructor
          · rintro ⟨rfl, h⟩
            exact ⟨hz h, h⟩
          · rintro ⟨rfl, h⟩
            exact ⟨hz h, h⟩

/-- The packet shown is the one removed exactly where the queue holds no other packet. -/
theorem consumesPushed_iff {s : Sys ι ρ} {c : ι} (h : s.packetQueue.observers = [c])
    (packet : PacketContent) :
    ConsumesPushed cfg packet s c ↔ ∀ p ∈ s.packetQueue.queue, p = packet := by
  have hqueue : (s.pushBack cfg packet).packetQueue.queue =
      (s.packetQueue.queue ++ [packet]).tail := by
    rw [pushBack_queue, h, List.length_singleton, List.drop_one]
  have hshown : ((s.pushBack cfg packet).call c).delivered.getLast? = some packet := by
    have hcall : (s.pushBack cfg packet).call c =
        (s.call c).update (cfg.command c) packet := by
      rw [Sys.pushBack, h]
      exact Function.update_self c _ _
    rw [hcall, Call.update_delivered, List.getLast?_concat]
  constructor
  · intro hconsumes
    have hkept := hconsumes.kept
    rw [hqueue] at hkept
    exact tail_append_singleton_eq_iff.mp hkept
  · intro hall
    refine ⟨?_, hqueue.trans (tail_append_singleton_eq_iff.mpr hall)⟩
    rw [hshown, PacketQueue.pop, PacketQueue.enqueue]
    cases hq : s.packetQueue.queue with
    | nil => rfl
    | cons p rest =>
        have hp : p = packet := hall p (hq ▸ List.mem_cons_self)
        exact congrArg some hp.symm

namespace Marked

/-- The marks stand beside the packets of the queue, in its order. -/
def Follows (m : Marked ι ρ) : Prop := m.arrived.map Prod.fst = m.sys.packetQueue.queue

theorem step_eq_some {m m' : Marked ι ρ} {a : Action ι} (h : m.step cfg a = some m') :
    AsyncSend.step cfg m.sys a = some m'.sys ∧ m'.arrived = m.left a := by
  obtain ⟨sys, hsys, rfl⟩ := Option.map_eq_some_iff.mp h
  exact ⟨hsys, rfl⟩

theorem Follows.step {m m' : Marked ι ρ} {a : Action ι} (hm : m.Follows)
    (h : m.step cfg a = some m') : m'.Follows := by
  obtain ⟨hsys, harrived⟩ := step_eq_some h
  rw [Follows, harrived, step_queue hsys]
  unfold Follows at hm
  cases a with
  | sender c move => exact hm
  | watchDog c move => cases move <;> first | exact hm | rfl
  | pushBack packet =>
      simp only [left, arrivals, queueAfter, List.map_drop, List.map_append, hm]
      rfl

/-- What the queue holds came while no observer was attached. -/
structure Unattended (m : Marked ι ρ) : Prop where
  follows : m.Follows
  marks : ∀ p ∈ m.arrived, p.2 = true

omit [DecidableEq ι] in
/-- Where the queue holds nothing but unattended packets, an update spares them exactly where
there is none. -/
theorem Unattended.keeps_iff {m : Marked ι ρ} (hm : m.Unattended) (a : Action ι) :
    m.KeepsUnattended a ↔ m.FindsEmpty a := by
  cases a with
  | sender c move => exact iff_of_true (fun p hp => absurd hp List.not_mem_nil) trivial
  | watchDog c move => exact iff_of_true (fun p hp => absurd hp List.not_mem_nil) trivial
  | pushBack packet =>
      simp only [KeepsUnattended, removed, FindsEmpty, arrivals]
      have hqueue := hm.follows
      unfold Follows at hqueue
      cases hobs : m.sys.packetQueue.observers with
      | nil => exact iff_of_true (fun p hp => absurd hp List.not_mem_nil) (fun h => absurd rfl h)
      | cons c observers =>
          cases harrived : m.arrived with
          | nil =>
              rw [harrived] at hqueue
              refine iff_of_true (fun p hp => ?_) fun _ => hqueue.symm
              obtain rfl : p = (packet, false) := by
                simpa using List.mem_of_mem_take hp
              rfl
          | cons p rest =>
              rw [harrived] at hqueue
              refine iff_of_false (fun h => ?_) fun h => ?_
              · have hfirst := h p List.mem_cons_self
                rw [hm.marks p (harrived ▸ List.mem_cons_self)] at hfirst
                exact absurd hfirst.symm Bool.false_ne_true
              · exact absurd (hqueue.trans (h (List.cons_ne_nil _ _))) (List.cons_ne_nil _ _)

/-- Packets that go to an observer are removed at once, the others are unattended. -/
theorem Unattended.step {m m' : Marked ι ρ} {a : Action ι} (hm : m.Unattended)
    (ha : m.KeepsUnattended a) (h : m.step cfg a = some m') : m'.Unattended := by
  refine ⟨hm.follows.step h, ?_⟩
  obtain ⟨-, harrived⟩ := step_eq_some h
  rw [harrived]
  cases a with
  | sender c move => exact hm.marks
  | watchDog c move =>
      cases move with
      | cancelCommandWait => exact fun p hp => absurd hp List.not_mem_nil
      | _ => exact hm.marks
  | pushBack packet =>
      intro p hp
      simp only [left, arrivals] at hp
      cases hobs : m.sys.packetQueue.observers with
      | nil =>
          rw [hobs, List.length_nil, List.drop_zero, List.mem_append] at hp
          cases hp with
          | inl hp => exact hm.marks p hp
          | inr hp =>
              obtain rfl := List.mem_singleton.mp hp
              rfl
      | cons c observers =>
          -- The queue was empty, so that the packet itself has been removed.
          have hempty := (hm.keeps_iff (.pushBack packet)).mp ha (hobs ▸ List.cons_ne_nil _ _)
          have hfollows := hm.follows
          rw [Follows, hempty, List.map_eq_nil_iff] at hfollows
          rw [hobs, hfollows, List.nil_append, List.length_cons, List.drop_succ_cons,
            List.drop_nil] at hp
          exact absurd hp List.not_mem_nil

/-- A run spares the unattended packets exactly where every packet pushed to an observer finds the
queue empty. -/
theorem keepsUnattended_iff (acts : List (Action ι)) :
    Along (Marked.step cfg) KeepsUnattended (init cfg) acts ↔
      Along (Marked.step cfg) FindsEmpty (init cfg) acts :=
  along_congr_of_invariant (fun _ a hm => Unattended.keeps_iff hm a)
    (fun _ _ _ hm ha h => Unattended.step hm ha h)
    ⟨rfl, fun _ hp => absurd hp List.not_mem_nil⟩

end Marked

/-- The packet removed is the one shown exactly where the queue holds no other packet, and a run
removes no unattended packet exactly where every packet pushed to an observer finds the queue
empty. -/
theorem consumed_packet_iff (cfg : Config ι ρ) :
    (∀ (s : Sys ι ρ) (packet : PacketContent) (c : ι), s.packetQueue.observers = [c] →
      (ConsumesPushed cfg packet s c ↔ ∀ p ∈ s.packetQueue.queue, p = packet)) ∧
    ∀ acts : List (Action ι),
      Along (Marked.step cfg) Marked.KeepsUnattended (Marked.init cfg) acts ↔
        Along (Marked.step cfg) Marked.FindsEmpty (Marked.init cfg) acts :=
  ⟨fun _ packet _ h => consumesPushed_iff h packet, Marked.keepsUnattended_iff⟩

/-- A packet that no command waits for. -/
def strayPacket : PacketContent := ⟨"\n@END\r\n".toList, .normal⟩

/-- A query attaches its observer. -/
def attachQuery : List (Action Unit) := [.sender () .launch, .sender () .attach]

/-- Without a stray packet the reply is the packet removed. -/
theorem consumed_packet_sample :
    ConsumesPushed versionQuery versionReply (stateAfter versionQuery attachQuery) () :=
  ((consumed_packet_iff versionQuery).1 _ versionReply () rfl).mpr
    fun _ hp => absurd hp List.not_mem_nil

/-- The reply behind a stray packet removes that packet and stays in the queue. -/
theorem stray_packet_removed :
    (¬ ∀ (s : Sys Unit Str) (packet : PacketContent), s.packetQueue.observers = [()] →
      ConsumesPushed versionQuery packet s ()) ∧
    ¬ ∀ acts : List (Action Unit),
      Along (Marked.step versionQuery) Marked.KeepsUnattended (Marked.init versionQuery) acts := by
  constructor
  · intro hall
    have hconsumes := hall (stateAfter versionQuery (.pushBack strayPacket :: attachQuery))
      versionReply rfl
    exact absurd hconsumes.kept (by decide)
  · intro hall
    have hkeeps := along_iff_split.mp
      (hall (.pushBack strayPacket :: attachQuery ++ [.pushBack versionReply]))
      (.pushBack strayPacket :: attachQuery) (.pushBack versionReply) []
      ⟨stateAfter versionQuery (.pushBack strayPacket :: attachQuery), [(strayPacket, true)]⟩
      rfl rfl
    exact absurd (hkeeps (strayPacket, true) List.mem_cons_self) (by decide)

end RfidEngine.AsyncSend
