import RfidEngine.AsyncSend.Model
import RfidEngine.Lib.IndexWalk
import RfidEngine.Lib.StepSystem

/-!
# Subject: a notification between other calls

`notify` walks the vector of observers by index and updates one of them in each
round of its loop. Between two rounds other threads attach and detach their
observers. Taken without a gap the rounds are the `push_back` of `AsyncSend`,
which is one step there.

## Main result

No observer is skipped as long as no detach moves an observer that is still to
be updated in front of the index.
-/

namespace RfidEngine.AsyncSend

open StepSystem IndexWalk

/-- A subject with the `i` of the notification that is under way. `throughout` are the
observers attached since before the latest packet, `updates` are those made for it. -/
structure Notifier (ι : Type*) where
  packetQueue : PacketQueue ι
  index : Option Nat
  throughout : List ι
  updates : List (ι × PacketContent)
  outOfRange : Bool

inductive NotifyStep (ι : Type*) where
  | attach (observer : ι)
  | detach (observer : ι)
  | pushBack (packet : PacketContent)
  | round

namespace Notifier

variable {ι : Type*}

def initial : Notifier ι := ⟨.empty, none, [], [], false⟩

/-- `observers.at( i )->update( this )`, which reads the state of the subject and pops. -/
def update (s : Notifier ι) (i : Nat) : Notifier ι :=
  match s.packetQueue.observers[i]? with
  | some observer =>
      { s with
        packetQueue := s.packetQueue.pop.2
        index := some (i + 1)
        updates := s.updates ++ [(observer, s.packetQueue.subjectState)] }
  | none => { s with index := none, outOfRange := true }

/-- Each command attaches an observer of its own; packets are pushed by one thread. -/
def step [DecidableEq ι] (s : Notifier ι) : NotifyStep ι → Option (Notifier ι)
  | .attach observer =>
      if observer ∈ s.packetQueue.observers then none
      else some { s with packetQueue := s.packetQueue.attach observer }
  | .detach observer => (s.packetQueue.detach observer).map fun q =>
      { s with packetQueue := q, throughout := s.throughout.erase observer }
  | .pushBack packet =>
      match s.index with
      | some _ => none
      | none => some
          { s with
            packetQueue := s.packetQueue.enqueue packet
            index := some 0
            throughout := s.packetQueue.observers
            updates := [] }
  | .round =>
      match s.index with
      | none => none
      | some i =>
          if i < s.packetQueue.observers.length then some (s.update i)
          else some { s with index := none }

/-- What an observer was given for the latest packet. -/
def received [DecidableEq ι] (s : Notifier ι) (x : ι) : List PacketContent :=
  (s.updates.filter fun u => u.1 = x).map Prod.snd

/-- The index never left the vector, and when `push_back` has returned, every observer that was
attached throughout has received the packet once. -/
def Notified [DecidableEq ι] (s : Notifier ι) : Prop :=
  s.outOfRange = false ∧
    (s.index = none → ∀ x ∈ s.throughout, s.received x = [s.packetQueue.subjectState])

/-- The notification with its index at `i`, as a walk over the observers. -/
def walk (s : Notifier ι) (i : Nat) : Walk ι :=
  ⟨s.packetQueue.observers, i, s.throughout, s.updates.map Prod.fst⟩

/-- The step does not detach an observer that was updated already while the next one to be
updated is one of those that were attached throughout. -/
def Quiet [DecidableEq ι] (s : Notifier ι) : NotifyStep ι → Prop
  | .detach observer => ∀ i, s.index = some i → ¬ (s.walk i).Shifts observer
  | _ => True

/-- The queue after a number of pops. -/
def popped (q : PacketQueue ι) (n : Nat) : PacketQueue ι := (fun q => q.pop.2)^[n] q

theorem popped_succ (q : PacketQueue ι) (n : Nat) : popped q (n + 1) = popped q.pop.2 n := rfl

/-- The rounds update the observers from the index on, one after the other. -/
theorem exec_rounds [DecidableEq ι] {s : Notifier ι} {pre rest : List ι}
    (hobs : s.packetQueue.observers = pre ++ rest) (hindex : s.index = some pre.length) :
    exec step s (List.replicate (rest.length + 1) .round) = some { s with
      packetQueue := popped s.packetQueue rest.length
      index := none
      updates := s.updates ++ rest.map fun x => (x, s.packetQueue.subjectState) } := by
  induction rest generalizing s pre with
  | nil =>
      have hend : ¬ pre.length < s.packetQueue.observers.length := by simp [hobs]
      simp [exec, step, hindex, hend, popped]
  | cons x rest ih =>
      have hlt : pre.length < s.packetQueue.observers.length := by simp [hobs]
      have hx : s.packetQueue.observers[pre.length]? = some x := by simp [hobs]
      have hround : s.step .round = some { s with
          packetQueue := s.packetQueue.pop.2
          index := some (pre.length + 1)
          updates := s.updates ++ [(x, s.packetQueue.subjectState)] } := by
        simp only [step, hindex, if_pos hlt, update, hx]
      have hrest : s.packetQueue.pop.2.observers = (pre ++ [x]) ++ rest := by simp [hobs]
      rw [List.length_cons, List.replicate_succ, exec_cons, hround, Option.bind_some,
        ih hrest (by simp)]
      simp [popped_succ]

/-- `push_back` is the notification whose rounds nothing interrupts. -/
theorem pushBack_eq_rounds [DecidableEq ι] {ρ : Type*} (cfg : Config ι ρ)
    (packet : PacketContent) (sys : Sys ι ρ) {s : Notifier ι}
    (hqueue : s.packetQueue = sys.packetQueue) (hidle : s.index = none) :
    ∃ t, exec step s (.pushBack packet ::
        List.replicate (sys.packetQueue.observers.length + 1) .round) = some t ∧
      sys.pushBack cfg packet = t.updates.foldl (fun sys u => sys.update cfg u.2 u.1)
        { sys with packetQueue := sys.packetQueue.enqueue packet } := by
  have hpush : s.step (.pushBack packet) = some { s with
      packetQueue := sys.packetQueue.enqueue packet
      index := some 0
      throughout := sys.packetQueue.observers
      updates := [] } := by
    simp only [step, hidle, hqueue]
  rw [exec_cons, hpush, Option.bind_some]
  refine ⟨_, exec_rounds (List.nil_append _).symm rfl, ?_⟩
  rw [List.nil_append, List.foldl_map]
  rfl

structure Invariant (s : Notifier ι) : Prop where
  nodup : s.packetQueue.observers.Nodup
  throughout : s.throughout.Sublist s.packetQueue.observers
  packet : ∀ u ∈ s.updates, u.2 = s.packetQueue.subjectState
  inRange : s.outOfRange = false

variable {s s' : Notifier ι}

theorem Invariant.initial : (initial : Notifier ι).Invariant where
  nodup := List.nodup_nil
  throughout := List.Sublist.refl []
  packet := fun _ hu => absurd hu List.not_mem_nil
  inRange := rfl

theorem Invariant.walk (h : s.Invariant) (i : Nat) : (s.walk i).WellFormed :=
  ⟨h.nodup, h.throughout⟩

variable [DecidableEq ι]

theorem step_attach {x : ι} (h : s.step (.attach x) = some s') :
    x ∉ s.packetQueue.observers ∧ s' = { s with packetQueue := s.packetQueue.attach x } := by
  simp only [step] at h
  split at h
  · exact absurd h (by simp)
  · rename_i hnew
    exact ⟨hnew, (Option.some.inj h).symm⟩

theorem step_detach {x : ι} (h : s.step (.detach x) = some s') :
    ∃ q, s.packetQueue.detach x = some q ∧
      s' = { s with packetQueue := q, throughout := s.throughout.erase x } := by
  obtain ⟨q, hq, rfl⟩ := Option.map_eq_some_iff.mp h
  exact ⟨q, hq, rfl⟩

theorem step_pushBack {packet : PacketContent} (h : s.step (.pushBack packet) = some s') :
    s' = { s with
      packetQueue := s.packetQueue.enqueue packet
      index := some 0
      throughout := s.packetQueue.observers
      updates := [] } := by
  simp only [step] at h
  split at h
  · exact absurd h (by simp)
  · exact (Option.some.inj h).symm

/-- A round updates the observer at the index, or ends the loop behind the last one. -/
theorem step_round (h : s.step .round = some s') : ∃ i, s.index = some i ∧
    ((∃ x, s.packetQueue.observers[i]? = some x ∧
        s' = { s with
          packetQueue := s.packetQueue.pop.2
          index := some (i + 1)
          updates := s.updates ++ [(x, s.packetQueue.subjectState)] }) ∨
      (s.packetQueue.observers.length ≤ i ∧ s' = { s with index := none })) := by
  simp only [step] at h
  cases hi : s.index with
  | none =>
      rw [hi] at h
      exact absurd h (by simp)
  | some i =>
      rw [hi] at h
      refine ⟨i, rfl, ?_⟩
      by_cases hlt : i < s.packetQueue.observers.length
      · have hx := List.getElem?_eq_getElem hlt
        refine Or.inl ⟨s.packetQueue.observers[i], hx, ?_⟩
        simp only [if_pos hlt, update, hx] at h
        exact (Option.some.inj h).symm
      · simp only [if_neg hlt] at h
        exact Or.inr ⟨Nat.not_lt.mp hlt, (Option.some.inj h).symm⟩

theorem invariant_step {a : NotifyStep ι} (hI : s.Invariant) (hstep : s.step a = some s') :
    s'.Invariant := by
  cases a with
  | attach x =>
      obtain ⟨hnew, rfl⟩ := step_attach hstep
      have hw := (hI.walk 0).append hnew
      exact ⟨hw.nodup, hw.kept, hI.packet, hI.inRange⟩
  | detach x =>
      obtain ⟨q, hq, rfl⟩ := step_detach hstep
      have hw := (hI.walk 0).erase (a := x)
      refine ⟨?_, ?_, ?_, hI.inRange⟩
      · rw [PacketQueue.detach_eq_some hq]
        exact hw.nodup
      · rw [PacketQueue.detach_eq_some hq]
        exact hw.kept
      · rw [PacketQueue.detach_subjectState hq]
        exact hI.packet
  | pushBack packet =>
      obtain rfl := step_pushBack hstep
      exact ⟨hI.nodup, List.Sublist.refl _, fun _ hu => absurd hu List.not_mem_nil, hI.inRange⟩
  | round =>
      obtain ⟨i, hi, ⟨x, hx, rfl⟩ | ⟨hend, rfl⟩⟩ := step_round hstep
      · refine ⟨?_, ?_, fun u hu => ?_, hI.inRange⟩
        · rw [PacketQueue.pop_observers]
          exact hI.nodup
        · rw [PacketQueue.pop_observers]
          exact hI.throughout
        · rw [PacketQueue.pop_subjectState]
          obtain hold | hnew := List.mem_append.mp hu
          · exact hI.packet u hold
          · rw [List.mem_singleton.mp hnew]
      · exact ⟨hI.nodup, hI.throughout, hI.packet, hI.inRange⟩

/-- Each observer attached throughout was updated once if the index has passed it, and is still
to be updated if not. -/
structure Exact (s : Notifier ι) : Prop where
  walking : ∀ i, s.index = some i → (s.walk i).Exact
  returned : s.index = none → ∀ x ∈ s.throughout, (s.updates.map Prod.fst).count x = 1

theorem Exact.initial : (initial : Notifier ι).Exact where
  walking := fun i hi => absurd hi (by simp [Notifier.initial])
  returned := fun _ x hx => absurd hx List.not_mem_nil

/-- The steps that keep the notification exact are the quiet ones. -/
theorem exact_step_iff {a : NotifyStep ι} (hI : s.Invariant) (hE : s.Exact)
    (hstep : s.step a = some s') : s'.Exact ↔ s.Quiet a := by
  cases a with
  | attach x =>
      obtain ⟨hnew, rfl⟩ := step_attach hstep
      refine iff_of_true ⟨fun i hi => ?_, hE.returned⟩ trivial
      exact (hE.walking i hi).append (hI.walk i) hnew
  | detach x =>
      obtain ⟨q, hq, rfl⟩ := step_detach hstep
      have hwalk : ∀ i, Notifier.walk
          { s with packetQueue := q, throughout := s.throughout.erase x } i =
            (s.walk i).erase x := by
        intro i
        simp [Notifier.walk, Walk.erase, PacketQueue.detach_eq_some hq]
      constructor
      · intro hE' i hi
        have hexact := hE'.walking i hi
        rw [hwalk] at hexact
        exact ((hE.walking i hi).erase_iff (hI.walk i)).mp hexact
      · intro hquiet
        refine ⟨fun i hi => ?_, fun hnone y hy => ?_⟩
        · rw [hwalk]
          exact ((hE.walking i hi).erase_iff (hI.walk i)).mpr (hquiet i hi)
        · exact hE.returned hnone y (List.mem_of_mem_erase hy)
  | pushBack packet =>
      obtain rfl := step_pushBack hstep
      refine iff_of_true ⟨fun i hi => ?_, fun hnone => absurd hnone (by simp)⟩ trivial
      obtain rfl := Option.some.inj hi
      exact Walk.exact_start
  | round =>
      obtain ⟨i, hi, ⟨x, hx, rfl⟩ | ⟨hend, rfl⟩⟩ := step_round hstep
      · refine iff_of_true ⟨fun j hj => ?_, fun hnone => absurd hnone (by simp)⟩ trivial
        obtain rfl := Option.some.inj hj
        have hvisit := (hE.walking i hi).visit (hI.walk i) hx
        simpa [Notifier.walk, Walk.visit] using hvisit
      · refine iff_of_true ⟨fun j hj => absurd hj (by simp), fun _ x hx => ?_⟩ trivial
        exact (hE.walking i hi).count_eq_one (hI.walk i) hend hx

theorem Exact.notified (hI : s.Invariant) (hE : s.Exact) : s.Notified := by
  refine ⟨hI.inRange, fun hnone x hx => ?_⟩
  have hlen : (s.received x).length = 1 := by
    calc
      (s.received x).length = (s.updates.filter fun u => u.1 = x).length := List.length_map _
      _ = (s.updates.map Prod.fst).count x := by
        rw [List.count_eq_countP, List.countP_map, List.countP_eq_length_filter]
        rfl
      _ = 1 := hE.returned hnone x hx
  obtain ⟨packet, hpacket⟩ := List.length_eq_one_iff.mp hlen
  have hmem : packet ∈ s.received x := by
    rw [hpacket]
    exact List.mem_singleton_self packet
  obtain ⟨u, hu, rfl⟩ := List.mem_map.mp hmem
  rw [hpacket, hI.packet u (List.mem_of_mem_filter hu)]

/-- A run is exact in every state exactly when all its steps are quiet. -/
theorem always_exact_iff {steps : List (NotifyStep ι)} {t : Notifier ι}
    (hrun : exec step initial steps = some t) :
    Always step Exact (initial : Notifier ι) steps ↔ Along step Quiet initial steps :=
  always_iff_along (fun _ _ _ hI hstep => invariant_step hI hstep)
    (fun _ _ _ hI hE hstep => exact_step_iff hI hE hstep) .initial .initial hrun

instance decidableQuiet (s : Notifier ι) : ∀ a : NotifyStep ι, Decidable (s.Quiet a)
  | .attach _ | .pushBack _ | .round => isTrue trivial
  | .detach observer =>
      match h : s.index with
      | none => isTrue fun i hi => absurd (h.symm.trans hi) (by simp)
      | some i => decidable_of_iff (¬ (s.walk i).Shifts observer) (by simp [Quiet, h])

instance decidableNotified (s : Notifier ι) : Decidable s.Notified :=
  inferInstanceAs (Decidable (s.outOfRange = false ∧
    (s.index = none → ∀ x ∈ s.throughout, s.received x = [s.packetQueue.subjectState])))

def samplePacket : PacketContent := ⟨"@V1.0".toList, .normal⟩

/-- In a run of quiet steps every observer that is attached from before a `push_back` until it
has returned receives the packet exactly once, and the index stays inside the vector. -/
theorem notification_skips_no_observer (steps : List (NotifyStep ι))
    (hquiet : Along step Quiet (initial : Notifier ι) steps) :
    Always step Notified (initial : Notifier ι) steps :=
  (always_of_along (I := fun s => s.Invariant ∧ s.Exact)
    (fun _ _ _ h hq hstep =>
      ⟨invariant_step h.1 hstep, (exact_step_iff h.1 h.2 hstep).mpr hq⟩)
    ⟨.initial, .initial⟩ hquiet).mono fun _ h => h.2.notified h.1

/-- With two observers the first detaches itself after its update: the second is skipped. -/
theorem second_observer_skipped :
    ¬ Always step Notified (initial : Notifier (Fin 2))
      [.attach 0, .attach 1, .pushBack samplePacket, .round, .detach 0, .round] :=
  not_always_of_exec rfl (by decide)

/-- Observers that come, and go when no one is moved. -/
theorem notification_skips_no_observer_sample :
    Always step Notified (initial : Notifier (Fin 4))
      [.attach 0, .attach 1, .attach 2, .pushBack samplePacket, .round, .detach 2, .attach 3,
        .round, .detach 1, .round, .detach 0] :=
  notification_skips_no_observer _ (by decide)

end Notifier

end RfidEngine.AsyncSend
