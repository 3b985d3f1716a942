import RfidEngine.Common

/-!
# PacketQueue: the queue of packets and its observers

`Subject` keeps the attached observers in a vector and `PacketQueue` the
packets. An observer is named by the call it was made for, which stands for
its address; its `observer_id` is a number that several observers may share.
-/

namespace RfidEngine

structure PacketQueue (ι : Type*) where
  queue : List PacketContent
  subjectState : PacketContent
  observers : List ι

namespace PacketQueue

variable {ι : Type*}

def empty : PacketQueue ι := ⟨[], default, []⟩

def attach (q : PacketQueue ι) (observer : ι) : PacketQueue ι :=
  { q with observers := q.observers ++ [observer] }

/-- `detach` finds the observer by its address; erasing the end iterator is undefined. -/
def detach [DecidableEq ι] (q : PacketQueue ι) (observer : ι) : Option (PacketQueue ι) :=
  if observer ∈ q.observers then some { q with observers := q.observers.erase observer }
  else none

/-- The guarded half of `push_back`; `notify` follows it. -/
def enqueue (q : PacketQueue ι) (packet : PacketContent) : PacketQueue ι :=
  { q with queue := q.queue ++ [packet], subjectState := packet }

def pop (q : PacketQueue ι) : PacketContent × PacketQueue ι :=
  match q.queue with
  | [] => (default, q)
  | p :: rest => (p, { q with queue := rest })

def reset (q : PacketQueue ι) : PacketQueue ι := { q with queue := [] }

/-- The observer `send_msg` calls; dereferencing the end iterator is undefined. -/
def addressee (q : PacketQueue ι) (getObserverId : ι → Nat) (observerId : Nat) : Option ι :=
  q.observers.find? fun p => observerId == getObserverId p

@[simp] theorem empty_observers : (empty : PacketQueue ι).observers = [] := rfl

@[simp] theorem attach_observers (q : PacketQueue ι) (observer : ι) :
    (q.attach observer).observers = q.observers ++ [observer] := rfl

@[simp] theorem enqueue_observers (q : PacketQueue ι) (packet : PacketContent) :
    (q.enqueue packet).observers = q.observers := rfl

@[simp] theorem reset_observers (q : PacketQueue ι) : q.reset.observers = q.observers := rfl

@[simp] theorem pop_observers (q : PacketQueue ι) : q.pop.2.observers = q.observers := by
  obtain ⟨queue, state, observers⟩ := q
  cases queue <;> rfl

@[simp] theorem pop_subjectState (q : PacketQueue ι) : q.pop.2.subjectState = q.subjectState := by
  obtain ⟨queue, state, observers⟩ := q
  cases queue <;> rfl

@[simp] theorem pop_queue (q : PacketQueue ι) : q.pop.2.queue = q.queue.tail := by
  obtain ⟨queue, state, observers⟩ := q
  cases queue <;> rfl

theorem detach_queue [DecidableEq ι] {q q' : PacketQueue ι} {observer : ι}
    (h : q.detach observer = some q') : q'.queue = q.queue := by
  obtain ⟨-, rfl⟩ : observer ∈ q.observers ∧ _ = q' := by simpa [detach] using h
  rfl

theorem detach_subjectState [DecidableEq ι] {q q' : PacketQueue ι} {observer : ι}
    (h : q.detach observer = some q') : q'.subjectState = q.subjectState := by
  obtain ⟨-, rfl⟩ : observer ∈ q.observers ∧ _ = q' := by simpa [detach] using h
  rfl

theorem detach_eq_some [DecidableEq ι] {q q' : PacketQueue ι} {observer : ι}
    (h : q.detach observer = some q') : q'.observers = q.observers.erase observer := by
  obtain ⟨-, rfl⟩ : observer ∈ q.observers ∧ _ = q' := by simpa [detach] using h
  rfl

theorem detach_eq_none [DecidableEq ι] {q : PacketQueue ι} {observer : ι}
    (h : q.detach observer = none) : observer ∉ q.observers := by
  simpa [detach] using h

end PacketQueue

end RfidEngine
