import RfidEngine.Lib.Simulation
import RfidEngine.PacketQueue

/-!
# PacketQueue as a list

`peek` asks `at` for the packet at an index, `remove` walks an iterator to it
and counts the index down. On the places of the queue they agree. Behind them
`remove` dereferences the end iterator, and for a negative index its walk ends
before it began, at the oldest packet.
-/

namespace RfidEngine

namespace PacketQueue

variable {ι : Type*}

/-- The bounds check of `at`; a negative index becomes a size that no deque reaches. -/
def queueAt (q : PacketQueue ι) (index : Int) : Option PacketContent :=
  if index < 0 then none else q.queue[index.toNat]?

/-- `peek` catches the exception of `at`. -/
def peek (q : PacketQueue ι) (index : Int) : PacketContent := (q.queueAt index).getD default

/-- The walk of `remove`: the packets that the iterator has passed and those from it on. -/
def walk : List PacketContent → Int → List PacketContent × List PacketContent
  | [], _ => ([], [])
  | packet :: rest, index =>
      if 0 < index then
        let (passed, iter) := walk rest (index - 1)
        (packet :: passed, iter)
      else ([], packet :: rest)

/-- Dereferencing the end iterator is undefined. -/
def remove (q : PacketQueue ι) (index : Int) : Option (PacketContent × PacketQueue ι) :=
  match walk q.queue index with
  | (_, []) => none
  | (passed, p :: rest) => some (p, { q with queue := passed ++ rest })

theorem walk_eq (queue : List PacketContent) (index : Int) :
    walk queue index = (queue.take index.toNat, queue.drop index.toNat) := by
  induction queue generalizing index with
  | nil => simp [walk]
  | cons packet rest ih =>
      rw [walk]
      by_cases hindex : 0 < index
      · have hsucc : index.toNat = (index - 1).toNat + 1 := by omega
        rw [if_pos hindex, ih, hsucc, List.take_succ_cons, List.drop_succ_cons]
      · have hzero : index.toNat = 0 := by omega
        rw [if_neg hindex, hzero, List.take_zero, List.drop_zero]

/-- `remove` takes the packet that the walk ends at, the oldest one where the index is
negative. -/
theorem remove_eq (q : PacketQueue ι) (index : Int) :
    q.remove index = q.queue[index.toNat]?.map fun p =>
      (p, { q with queue := q.queue.eraseIdx index.toNat }) := by
  rw [remove, walk_eq]
  by_cases hlt : index.toNat < q.queue.length
  · rw [List.drop_eq_getElem_cons hlt, List.getElem?_eq_getElem hlt,
      List.eraseIdx_eq_take_drop_succ]
    rfl
  · rw [List.drop_eq_nil_of_le (by omega), List.getElem?_eq_none (by omega)]
    rfl

/-- `pop` is `remove` of the oldest packet where there is one. -/
theorem pop_eq_remove (q : PacketQueue ι) : some q.pop = if 0 < q.queue.length then q.remove 0
    else some (default, q) := by
  obtain ⟨queue, state, observers⟩ := q
  cases queue with
  | nil => rfl
  | cons p rest => rfl

/-- An operation of the queue. What an observer does when it is notified is an operation of its
own. -/
inductive Op where
  | pushBack (packet : PacketContent)
  | pop
  | remove (index : Int)
  | peek (index : Int)
  | reset

/-- The queue's answer and the queue behind it. -/
def step (q : PacketQueue ι) : Op → Option (Option PacketContent × PacketQueue ι)
  | .pushBack packet => some (none, q.enqueue packet)
  | .pop => some (some q.pop.1, q.pop.2)
  | .remove index => (q.remove index).map fun (p, q') => (some p, q')
  | .peek index => some (some (q.peek index), q)
  | .reset => some (none, q.reset)

/-- An index that is a place of the list. -/
def InBounds (queue : List PacketContent) (index : Int) : Prop :=
  0 ≤ index ∧ index < queue.length

instance (queue : List PacketContent) (index : Int) : Decidable (InBounds queue index) :=
  inferInstanceAs (Decidable (_ ∧ _))

/-- The packet at a place of the list, the empty packet elsewhere. -/
def packetAt (queue : List PacketContent) (index : Int) : PacketContent :=
  if InBounds queue index then queue.getD index.toNat default else default

/-- What the operations are for: those of a list with its oldest packet in front. -/
def listStep (queue : List PacketContent) : Op → Option PacketContent × List PacketContent
  | .pushBack packet => (none, queue ++ [packet])
  | .pop => (some (packetAt queue 0), queue.tail)
  | .remove index =>
      (some (packetAt queue index),
        if InBounds queue index then queue.eraseIdx index.toNat else queue)
  | .peek index => (some (packetAt queue index), queue)
  | .reset => (none, [])

/-- The condition on a single operation: no `remove` outside the list. -/
def RemovesInside (queue : List PacketContent) : Op → Prop
  | .remove index => InBounds queue index
  | _ => True

theorem packetAt_of_inBounds {queue : List PacketContent} {index : Int}
    (h : InBounds queue index) : queue[index.toNat]? = some (packetAt queue index) := by
  obtain ⟨hneg, hlt⟩ := h
  have hplace : index.toNat < queue.length := by omega
  rw [packetAt, if_pos ⟨hneg, hlt⟩, List.getElem?_eq_getElem hplace,
    List.getD_eq_getElem _ _ hplace]

/-- `peek` looks at the packet of the list, at every index. -/
theorem peek_eq_packetAt (q : PacketQueue ι) (index : Int) :
    q.peek index = packetAt q.queue index := by
  by_cases h : InBounds q.queue index
  · have hneg : ¬ index < 0 := not_lt.mpr h.1
    rw [peek, queueAt, if_neg hneg, packetAt_of_inBounds h, Option.getD_some]
  · rw [packetAt, if_neg h, peek, queueAt]
    by_cases hneg : index < 0
    · rw [if_pos hneg, Option.getD_none]
    · have hbehind : q.queue.length ≤ index.toNat := by
        unfold InBounds at h
        omega
      rw [if_neg hneg, List.getElem?_eq_none hbehind, Option.getD_none]

theorem pop_eq_packetAt (q : PacketQueue ι) : q.pop.1 = packetAt q.queue 0 := by
  obtain ⟨queue, state, observers⟩ := q
  cases queue with
  | nil => rfl
  | cons p rest => simp [pop, packetAt, InBounds]

/-- `remove` inside the list returns what `peek` would and deletes only that packet. -/
theorem remove_of_inBounds (q : PacketQueue ι) {index : Int} (h : InBounds q.queue index) :
    q.remove index =
      some (q.peek index, { q with queue := q.queue.eraseIdx index.toNat }) := by
  rw [remove_eq, packetAt_of_inBounds h, peek_eq_packetAt, Option.map_some]

/-- A `remove` outside the list that returns has removed a packet all the same. -/
theorem length_of_remove {q q' : PacketQueue ι} {index : Int} {p : PacketContent}
    (h : q.remove index = some (p, q')) : q'.queue.length + 1 = q.queue.length := by
  rw [remove_eq] at h
  obtain ⟨packet, hpacket, heq⟩ := Option.map_eq_some_iff.mp h
  obtain ⟨hplace, -⟩ := List.getElem?_eq_some_iff.mp hpacket
  obtain ⟨-, rfl⟩ := Prod.mk.inj heq
  have hlen := List.length_eraseIdx_of_lt hplace
  simp only
  omega

/-- An operation answers as the list does and leaves its queue exactly when it removes nothing
outside it. -/
theorem step_iff (q : PacketQueue ι) (op : Op) :
    (∃ q', step q op = some ((listStep q.queue op).1, q') ∧
      q'.queue = (listStep q.queue op).2) ↔ RemovesInside q.queue op := by
  cases op with
  | pushBack packet => exact iff_of_true ⟨q.enqueue packet, rfl, rfl⟩ trivial
  | pop =>
      refine iff_of_true ⟨q.pop.2, ?_, pop_queue q⟩ trivial
      rw [step, listStep, pop_eq_packetAt]
  | peek index =>
      refine iff_of_true ⟨q, ?_, rfl⟩ trivial
      rw [step, listStep, peek_eq_packetAt]
  | reset => exact iff_of_true ⟨q.reset, rfl, rfl⟩ trivial
  | remove index =>
      constructor
      · rintro ⟨q', hq', hqueue⟩
        by_contra hout
        obtain ⟨⟨p, q''⟩, hremove, heq⟩ := Option.map_eq_some_iff.mp hq'
        obtain ⟨-, rfl⟩ := Prod.mk.inj heq
        have hkept : q''.queue = q.queue := hqueue.trans (if_neg hout)
        have hlen := length_of_remove hremove
        rw [hkept] at hlen
        omega
      · intro hin
        refine ⟨{ q with queue := q.queue.eraseIdx index.toNat }, ?_, (if_pos hin).symm⟩
        rw [step, listStep, remove_of_inBounds q hin, peek_eq_packetAt]
        rfl

/-- The queue behaves as the list along a sequence of operations, in every answer and every
state, exactly when no `remove` of it is outside the list that it meets. -/
theorem queue_refines_list_iff (q : PacketQueue ι) (ops : List Op) :
    StepSystem.Lockstep (fun (q : PacketQueue ι) l => q.queue = l) step listStep q q.queue ops ↔
      StepSystem.Along (fun l op => some (listStep l op).2) RemovesInside q.queue ops := by
  refine StepSystem.lockstep_iff_along (fun q l op hqueue => ?_) rfl
  obtain rfl := hqueue
  exact step_iff q op

/-- A packet with the text `0`. -/
def zeroPacket : PacketContent := ⟨['0'], .normal⟩

/-- With one packet in the queue, `remove(-1)` takes it and `remove(1)` is undefined. -/
theorem remove_outside_fails :
    ¬ StepSystem.Lockstep (fun (q : PacketQueue Unit) l => q.queue = l) step listStep empty []
        [.pushBack zeroPacket, .remove (-1)] ∧
      ¬ StepSystem.Lockstep (fun (q : PacketQueue Unit) l => q.queue = l) step listStep empty []
        [.pushBack zeroPacket, .remove 1] := by
  have houtside : ∀ index, ¬ InBounds [zeroPacket] index →
      ¬ StepSystem.Lockstep (fun (q : PacketQueue Unit) l => q.queue = l) step listStep empty []
        [.pushBack zeroPacket, .remove index] := by
    rintro index hout ⟨-, q, hpush, -, q', hremove, hqueue⟩
    obtain rfl := (Prod.mk.inj (Option.some.inj hpush)).2
    exact hout ((step_iff _ (.remove index)).mp ⟨q', hremove, hqueue⟩)
  exact ⟨houtside (-1) (by decide), houtside 1 (by decide)⟩

end PacketQueue

end RfidEngine
