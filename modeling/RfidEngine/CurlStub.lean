import RfidEngine.Common
import RfidEngine.Lib.FairRun
import RfidEngine.Lib.StepSystem

/-!
# CurlStub: log records on their way to the server

Posting puts a record into a queue. A thread of the stub hands the whole queue
to `curl_post` and empties it, as often as the queue is longer than the
threshold, and one last time when the destructor has asked it to end. What
`curl_post` returns is not looked at. Both sides hold the lock of the queue from
beginning to end, so that each is one step.

The thread has no handler: what `dump` throws at a record that is no UTF-8
terminates the process, and `get_cookies` exits it where libcurl cannot list the
cookies.

## Main result

Every record is handed over once and in order, or the process ends with those
that are left in the queue. The destructor returns otherwise, and no record is
left behind then.
-/

namespace RfidEngine

open StepSystem FairRun

/-- Where the background thread is. -/
inductive StubThread where
  | test
  | flush
  | lastFlush
  | ended
  deriving DecidableEq

/-- What ends the process: an exception that leaves the thread, or the `exit( 1 )` of
`get_cookies`. -/
inductive StubEnding (τ : Type*) where
  | terminate
  | exit (transfer : τ)
  deriving DecidableEq

/-- A stub, with the batches that `curl_post` has returned from and what libcurl did with each. -/
structure CurlStub (ε τ : Type*) where
  postDataQueue : List ε
  posted : List (List ε × τ)
  threadExit : Bool
  backgroundThread : StubThread
  destroyed : Bool
  ending : Option (StubEnding τ)
  deriving DecidableEq

/-- Posting after the destructor has begun is undefined. -/
inductive StubAction (ε τ : Type*) where
  | post (postData : ε)
  | destruct
  | background (transfer : τ)
  | join

/-- The batches that `dump` can write, and where `get_cookies` does not return. -/
structure StubHost (ε τ : Type*) where
  dumps : List ε → Bool
  exits : τ → Bool

namespace CurlStub

variable {ε τ : Type*}

def init : CurlStub ε τ := ⟨[], [], false, .test, false, none⟩

def flushQueue (host : StubHost ε τ) (thresh : Int) (transfer : τ) (stub : CurlStub ε τ) :
    CurlStub ε τ :=
  if thresh < toInt stub.postDataQueue.length then
    if host.dumps stub.postDataQueue then
      if host.exits transfer then { stub with ending := some (.exit transfer) }
      else
        { stub with
          postDataQueue := []
          posted := stub.posted ++ [(stub.postDataQueue, transfer)] }
    else { stub with ending := some .terminate }
  else stub

def post (postData : ε) (stub : CurlStub ε τ) : CurlStub ε τ :=
  { stub with postDataQueue := stub.postDataQueue ++ [postData] }

/-- A flush that has ended the process does not return. -/
def goOn (next : StubThread) (stub : CurlStub ε τ) : CurlStub ε τ :=
  match stub.ending with
  | none => { stub with backgroundThread := next }
  | some _ => stub

/-- The next step of `background_thread_func`. -/
def backgroundThreadFunc (host : StubHost ε τ) (threshold : Int) (transfer : τ)
    (stub : CurlStub ε τ) : Option (CurlStub ε τ) :=
  match stub.backgroundThread with
  | .test =>
      some { stub with backgroundThread := if stub.threadExit then .lastFlush else .flush }
  | .flush => some ((stub.flushQueue host threshold transfer).goOn .test)
  | .lastFlush => some ((stub.flushQueue host 0 transfer).goOn .ended)
  | .ended => none

/-- A step of one of the threads. -/
def act (host : StubHost ε τ) (threshold : Int) (stub : CurlStub ε τ) :
    StubAction ε τ → Option (CurlStub ε τ)
  | .post postData => if stub.threadExit then none else some (stub.post postData)
  | .destruct => if stub.threadExit then none else some { stub with threadExit := true }
  | .background transfer => stub.backgroundThreadFunc host threshold transfer
  | .join =>
      if stub.threadExit ∧ stub.backgroundThread = .ended ∧ stub.destroyed = false then
        some { stub with destroyed := true }
      else none

/-- A process that has ended takes no step. -/
def step (host : StubHost ε τ) (threshold : Int) (stub : CurlStub ε τ)
    (action : StubAction ε τ) : Option (CurlStub ε τ) :=
  match stub.ending with
  | none => stub.act host threshold action
  | some _ => none

/-- The calls of `curl_post`; the last one does not return where it exits. -/
def calls (stub : CurlStub ε τ) : List (List ε × τ) :=
  stub.posted ++
    match stub.ending with
    | some (.exit transfer) => [(stub.postDataQueue, transfer)]
    | _ => []

end CurlStub

/-- The records that a run posts. -/
def posts {ε τ : Type*} (acts : List (StubAction ε τ)) : List ε :=
  acts.filterMap fun a =>
    match a with
    | .post postData => some postData
    | _ => none

namespace CurlStub

variable {ε τ : Type*} {host : StubHost ε τ} {threshold : Int} {transfer : τ}
  {stub stub' : CurlStub ε τ} {a : StubAction ε τ} {acts : List (StubAction ε τ)}

/-- A flush of the thread: its threshold, and where the thread goes on. -/
inductive Flushes (threshold : Int) : StubThread → Int → StubThread → Prop where
  | flush : Flushes threshold .flush threshold .test
  | lastFlush : Flushes threshold .lastFlush 0 .ended

/-- What a turn of the thread does. -/
inductive Turn (host : StubHost ε τ) (threshold : Int) (transfer : τ) (stub : CurlStub ε τ) :
    CurlStub ε τ → Prop where
  | tested (h : stub.backgroundThread = .test) : Turn host threshold transfer stub
      { stub with backgroundThread := if stub.threadExit then .lastFlush else .flush }
  | kept {thresh : Int} {next : StubThread}
      (h : Flushes threshold stub.backgroundThread thresh next)
      (hshort : toInt stub.postDataQueue.length ≤ thresh) :
      Turn host threshold transfer stub { stub with backgroundThread := next }
  | posted {thresh : Int} {next : StubThread}
      (h : Flushes threshold stub.backgroundThread thresh next)
      (hlong : thresh < toInt stub.postDataQueue.length)
      (hdumps : host.dumps stub.postDataQueue = true) (hexits : host.exits transfer = false) :
      Turn host threshold transfer stub
        { stub with
          postDataQueue := []
          posted := stub.posted ++ [(stub.postDataQueue, transfer)]
          backgroundThread := next }
  | exited {thresh : Int} {next : StubThread}
      (h : Flushes threshold stub.backgroundThread thresh next)
      (hlong : thresh < toInt stub.postDataQueue.length)
      (hdumps : host.dumps stub.postDataQueue = true) (hexits : host.exits transfer = true) :
      Turn host threshold transfer stub { stub with ending := some (.exit transfer) }
  | terminated {thresh : Int} {next : StubThread}
      (h : Flushes threshold stub.backgroundThread thresh next)
      (hlong : thresh < toInt stub.postDataQueue.length)
      (hdumps : host.dumps stub.postDataQueue = false) :
      Turn host threshold transfer stub { stub with ending := some .terminate }

theorem turn_of_flush {thresh : Int} {next : StubThread}
    (h : Flushes threshold stub.backgroundThread thresh next) (hlive : stub.ending = none) :
    Turn host threshold transfer stub ((stub.flushQueue host thresh transfer).goOn next) := by
  unfold flushQueue
  by_cases hlong : thresh < toInt stub.postDataQueue.length
  · rw [if_pos hlong]
    cases hdumps : host.dumps stub.postDataQueue with
    | false => exact .terminated h hlong hdumps
    | true =>
        rw [if_pos rfl]
        cases hexits : host.exits transfer with
        | true => exact .exited h hlong hdumps hexits
        | false =>
            rw [if_neg Bool.false_ne_true, goOn]
            simp only [hlive]
            exact hlive ▸ .posted h hlong hdumps hexits
  · rw [if_neg hlong, goOn]
    simp only [hlive]
    exact hlive ▸ .kept h (Int.not_lt.mp hlong)

theorem turn_of_background (hlive : stub.ending = none)
    (h : stub.backgroundThreadFunc host threshold transfer = some stub') :
    Turn host threshold transfer stub stub' := by
  cases hthread : stub.backgroundThread with
  | test =>
      rw [backgroundThreadFunc, hthread] at h
      exact Option.some.inj h ▸ .tested hthread
  | flush =>
      rw [backgroundThreadFunc, hthread] at h
      exact Option.some.inj h ▸ turn_of_flush (hthread ▸ .flush) hlive
  | lastFlush =>
      rw [backgroundThreadFunc, hthread] at h
      exact Option.some.inj h ▸ turn_of_flush (hthread ▸ .lastFlush) hlive
  | ended =>
      rw [backgroundThreadFunc, hthread] at h
      exact absurd h (by simp)

/-- A thread that has not ended takes its turn. -/
theorem exists_turn (host : StubHost ε τ) (threshold : Int) (transfer : τ)
    (h : stub.backgroundThread ≠ .ended) :
    ∃ stub', stub.backgroundThreadFunc host threshold transfer = some stub' := by
  cases hthread : stub.backgroundThread with
  | ended => exact absurd hthread h
  | _ => exact ⟨_, by rw [backgroundThreadFunc, hthread]⟩

theorem step_of_live (hlive : stub.ending = none) (a : StubAction ε τ) :
    stub.step host threshold a = stub.act host threshold a := by
  simp only [step, hlive]

theorem step_live (h : stub.step host threshold a = some stub') : stub.ending = none := by
  cases hlive : stub.ending with
  | none => rfl
  | some e => simp [step, hlive] at h

theorem toInt_zero : toInt 0 = 0 := toInt_eq_iff.mpr (by decide)

theorem Flushes.le_thresh {thread next : StubThread} {thresh : Int}
    (h : Flushes threshold thread thresh next) (hthreshold : 0 ≤ threshold) : 0 ≤ thresh := by
  cases h with
  | flush => exact hthreshold
  | lastFlush => exact le_rfl

/-- A queue beyond its threshold has a record. -/
theorem queue_ne_nil {thresh : Int} (hthresh : 0 ≤ thresh) {queue : List ε}
    (hlong : thresh < toInt queue.length) : queue ≠ [] := by
  rintro rfl
  rw [List.length_nil, toInt_zero] at hlong
  exact absurd hlong (Int.not_lt.mpr hthresh)

/-- Nothing is lost or handed over twice, and all batches but the last one are beyond the
threshold. Where the process has ended, the queue is the batch that ended it. -/
structure Conserves (host : StubHost ε τ) (threshold : Int) (acts : List (StubAction ε τ))
    (stub : CurlStub ε τ) : Prop where
  flatten : (stub.posted.map Prod.fst).flatten ++ stub.postDataQueue = posts acts
  returned : ∀ sent ∈ stub.posted, host.dumps sent.1 = true ∧ host.exits sent.2 = false
  beyond : stub.backgroundThread ≠ .ended →
    ∀ sent ∈ stub.posted, threshold < toInt sent.1.length
  exited : stub.backgroundThread = .lastFlush ∨ stub.backgroundThread = .ended →
    stub.threadExit = true
  ended : stub.backgroundThread = .ended →
    toInt stub.postDataQueue.length ≤ 0 ∧
      ∀ sent ∈ stub.posted.dropLast, threshold < toInt sent.1.length
  nonempty : 0 ≤ threshold → ∀ sent ∈ stub.posted, sent.1 ≠ []
  joined : stub.destroyed = true → stub.backgroundThread = .ended
  joins : StubAction.join ∈ acts ↔ stub.destroyed = true
  terminated : stub.ending = some .terminate → host.dumps stub.postDataQueue = false
  exits : ∀ transfer, stub.ending = some (.exit transfer) →
    host.dumps stub.postDataQueue = true ∧ host.exits transfer = true
  unsent : stub.ending ≠ none → stub.backgroundThread ≠ .ended ∧
    (0 ≤ threshold → stub.postDataQueue ≠ [])

theorem posts_snoc (a : StubAction ε τ) : posts (acts ++ [a]) = posts acts ++ posts [a] :=
  List.filterMap_append

theorem posts_snoc_of_ne (h : ∀ postData, a ≠ .post postData) :
    posts (acts ++ [a]) = posts acts := by
  rw [posts_snoc]
  cases a with
  | post postData => exact absurd rfl (h postData)
  | _ => exact List.append_nil _

theorem Conserves.init (host : StubHost ε τ) (threshold : Int) :
    Conserves host threshold [] (init : CurlStub ε τ) where
  flatten := rfl
  returned := by simp [CurlStub.init]
  beyond := by simp [CurlStub.init]
  exited := by simp [CurlStub.init]
  ended := by simp [CurlStub.init]
  nonempty := by simp [CurlStub.init]
  joined := by simp [CurlStub.init]
  joins := by simp [CurlStub.init]
  terminated := by simp [CurlStub.init]
  exits := by simp [CurlStub.init]
  unsent := by simp [CurlStub.init]

theorem joins_snoc_of_ne (hjoins : StubAction.join ∈ acts ↔ stub.destroyed = true)
    (hdestroyed : stub'.destroyed = stub.destroyed) (ha : a ≠ .join) :
    StubAction.join ∈ acts ++ [a] ↔ stub'.destroyed = true := by
  rw [List.mem_append, List.mem_singleton, hdestroyed, hjoins]
  exact or_iff_left ha.symm

theorem Flushes.ne_ended {thread next : StubThread} {thresh : Int}
    (h : Flushes threshold thread thresh next) : thread ≠ .ended := by
  cases h with
  | flush => exact nofun
  | lastFlush => exact nofun

theorem Conserves.background (h : Conserves host threshold acts stub) (hlive : stub.ending = none)
    (hturn : Turn host threshold transfer stub stub') :
    Conserves host threshold (acts ++ [.background transfer]) stub' := by
  have hposts : posts (acts ++ [.background transfer]) = posts acts := posts_snoc_of_ne (by simp)
  have hflatten := h.flatten.trans hposts.symm
  have hno : ∀ ending, stub.ending ≠ some ending := by simp [hlive]
  cases hturn with
  | tested hthread =>
      refine { h with
        flatten := hflatten
        beyond := fun _ => h.beyond (by simp [hthread])
        exited := ?_
        ended := ?_
        joined := fun hd => absurd ((h.joined hd).symm.trans hthread) (by simp)
        joins := joins_snoc_of_ne h.joins rfl (by simp)
        unsent := fun hended => absurd hlive hended }
      · intro hlast
        by_contra hexit
        simp [hexit] at hlast
      · intro hended
        dsimp only at hended
        split at hended <;> exact absurd hended (by simp)
  | kept hflush hshort =>
      have hbefore := h.beyond hflush.ne_ended
      have hjoined := fun hd => hflush.ne_ended (h.joined hd)
      generalize hthread : stub.backgroundThread = thread at hflush
      cases hflush with
      | flush =>
          exact { h with
            flatten := hflatten
            beyond := fun _ => hbefore
            exited := by simp
            ended := by simp
            joined := fun hd => (hjoined hd).elim
            joins := joins_snoc_of_ne h.joins rfl (by simp)
            unsent := fun hended => absurd hlive hended }
      | lastFlush =>
          exact { h with
            flatten := hflatten
            beyond := fun hne => absurd rfl hne
            exited := fun _ => h.exited (.inl hthread)
            ended := fun _ =>
              ⟨hshort, fun sent hs => hbefore sent (List.mem_of_mem_dropLast hs)⟩
            joined := fun _ => rfl
            joins := joins_snoc_of_ne h.joins rfl (by simp)
            unsent := fun hended => absurd hlive hended }
  | posted hflush hlong hdumps hexits =>
      have hbefore := h.beyond hflush.ne_ended
      have hjoined := fun hd => hflush.ne_ended (h.joined hd)
      have hall : ((stub.posted ++ [(stub.postDataQueue, transfer)]).map Prod.fst).flatten ++ [] =
          posts (acts ++ [.background transfer]) := by
        rw [← hflatten]
        simp
      have hreturned : ∀ sent ∈ stub.posted ++ [(stub.postDataQueue, transfer)],
          host.dumps sent.1 = true ∧ host.exits sent.2 = false :=
        List.forall_mem_append.mpr
          ⟨h.returned, List.forall_mem_singleton.mpr ⟨hdumps, hexits⟩⟩
      have hnonempty : 0 ≤ threshold →
          ∀ sent ∈ stub.posted ++ [(stub.postDataQueue, transfer)], sent.1 ≠ [] :=
        fun hthreshold => List.forall_mem_append.mpr ⟨h.nonempty hthreshold,
          List.forall_mem_singleton.mpr (queue_ne_nil (hflush.le_thresh hthreshold) hlong)⟩
      generalize hthread : stub.backgroundThread = thread at hflush
      cases hflush with
      | flush =>
          exact {
            flatten := hall
            returned := hreturned
            beyond := fun _ =>
              List.forall_mem_append.mpr ⟨hbefore, List.forall_mem_singleton.mpr hlong⟩
            exited := by simp
            ended := by simp
            nonempty := hnonempty
            joined := fun hd => (hjoined hd).elim
            joins := joins_snoc_of_ne h.joins rfl (by simp)
            terminated := fun hended => absurd hended (hno _)
            exits := fun _ hended => absurd hended (hno _)
            unsent := fun hended => absurd hlive hended }
      | lastFlush =>
          refine {
            flatten := hall
            returned := hreturned
            beyond := fun hne => absurd rfl hne
            exited := fun _ => h.exited (.inl hthread)
            ended := fun _ => ⟨?_, ?_⟩
            nonempty := hnonempty
            joined := fun _ => rfl
            joins := joins_snoc_of_ne h.joins rfl (by simp)
            terminated := fun hended => absurd hended (hno _)
            exits := fun _ hended => absurd hended (hno _)
            unsent := fun hended => absurd hlive hended }
          · exact (congrArg toInt List.length_nil).trans toInt_zero |>.le
          · rw [List.dropLast_concat]
            exact hbefore
  | exited hflush hlong hdumps hexits =>
      have hjoined := fun hd => hflush.ne_ended (h.joined hd)
      refine { h with
        flatten := hflatten
        joined := fun hd => (hjoined hd).elim
        joins := joins_snoc_of_ne h.joins rfl (by simp)
        terminated := by simp
        exits := ?_
        unsent := fun _ => ⟨hflush.ne_ended, fun hthreshold => ?_⟩ }
      · rintro transfer' heq
        obtain rfl : transfer = transfer' := by simpa using heq
        exact ⟨hdumps, hexits⟩
      · exact queue_ne_nil (hflush.le_thresh hthreshold) hlong
  | terminated hflush hlong hdumps =>
      have hjoined := fun hd => hflush.ne_ended (h.joined hd)
      exact { h with
        flatten := hflatten
        joined := fun hd => (hjoined hd).elim
        joins := joins_snoc_of_ne h.joins rfl (by simp)
        terminated := fun _ => hdumps
        exits := by simp
        unsent := fun _ => ⟨hflush.ne_ended,
          fun hthreshold => queue_ne_nil (hflush.le_thresh hthreshold) hlong⟩ }

theorem Conserves.step (h : Conserves host threshold acts stub)
    (hstep : stub.step host threshold a = some stub') :
    Conserves host threshold (acts ++ [a]) stub' := by
  have hlive := step_live hstep
  rw [step_of_live hlive] at hstep
  cases a with
  | post postData =>
      simp only [act] at hstep
      split at hstep
      · exact absurd hstep (by simp)
      · rename_i hexit
        obtain rfl := Option.some.inj hstep
        have hended : stub.backgroundThread ≠ .ended := fun heq => hexit (h.exited (.inr heq))
        have hno : ∀ ending, stub.ending ≠ some ending := by simp [hlive]
        refine { h with
          flatten := ?_
          ended := fun heq => absurd heq hended
          joins := joins_snoc_of_ne h.joins rfl (by simp)
          terminated := fun hended => absurd hended (hno _)
          exits := fun _ hended => absurd hended (hno _)
          unsent := fun hended => absurd hlive hended }
        rw [posts_snoc, ← h.flatten, post, List.append_assoc]
        rfl
  | destruct =>
      simp only [act] at hstep
      split at hstep
      · exact absurd hstep (by simp)
      · obtain rfl := Option.some.inj hstep
        exact { h with
          flatten := h.flatten.trans (posts_snoc_of_ne (by simp)).symm
          exited := fun _ => rfl
          joins := joins_snoc_of_ne h.joins rfl (by simp) }
  | background transfer =>
      exact h.background hlive (turn_of_background hlive hstep)
  | join =>
      simp only [act] at hstep
      split at hstep
      · rename_i hjoin
        obtain rfl := Option.some.inj hstep
        exact { h with
          flatten := h.flatten.trans (posts_snoc_of_ne (by simp)).symm
          joined := fun _ => hjoin.2.1
          joins := by simp }
      · exact absurd hstep (by simp)

theorem conserves_of_run
    (hrun : exec (CurlStub.step host threshold) CurlStub.init acts = some stub) :
    Conserves host threshold acts stub :=
  exec_history (M := Conserves host threshold) (Conserves.init host threshold)
    (fun _ _ _ _ _ h hstep => h.step hstep) hrun

/-- A queue of no more records than an `int` counts is empty after the last flush. -/
theorem Conserves.empty_of_ended (h : Conserves host threshold acts stub)
    (hended : stub.backgroundThread = .ended) (hcount : (posts acts).length ≤ intMax) :
    stub.postDataQueue = [] := by
  have hle : stub.postDataQueue.length ≤ (posts acts).length := by
    rw [← h.flatten, List.length_append]
    exact Nat.le_add_left _ _
  have hsize : toInt stub.postDataQueue.length = stub.postDataQueue.length :=
    toInt_eq_iff.mpr (by omega)
  have hzero := (h.ended hended).1
  rw [hsize] at hzero
  exact List.eq_nil_of_length_eq_zero (by omega)

/-- A destructor that has returned leaves no record behind. -/
theorem Conserves.all_posted (h : Conserves host threshold acts stub)
    (hdestroyed : stub.destroyed = true) (hcount : (posts acts).length ≤ intMax) :
    stub.ending = none ∧ (stub.posted.map Prod.fst).flatten = posts acts := by
  have hended := h.joined hdestroyed
  have hempty := h.empty_of_ended hended hcount
  have hflatten := h.flatten
  rw [hempty, List.append_nil] at hflatten
  exact ⟨not_not.mp fun hnot => (h.unsent hnot).1 hended, hflatten⟩

theorem calls_of_live (hlive : stub.ending = none) : stub.calls = stub.posted := by
  simp [calls, hlive]

/-- `curl_post` is only entered with a batch that could be dumped. -/
theorem Conserves.dumps_calls (h : Conserves host threshold acts stub) :
    ∀ sent ∈ stub.calls, host.dumps sent.1 = true := by
  intro sent hsent
  obtain hposted | hlast := List.mem_append.mp hsent
  · exact (h.returned sent hposted).1
  · split at hlast
    · rename_i transfer hending
      rw [List.mem_singleton.mp hlast]
      exact (h.exits transfer hending).1
    · exact absurd hlast List.not_mem_nil

/-- An action that is not possible leaves the stub as it is. -/
def next (host : StubHost ε τ) (threshold : Int) (stub : CurlStub ε τ) (a : StubAction ε τ) :
    CurlStub ε τ := (stub.step host threshold a).getD stub

/-- The destructor begins, and both threads go on. -/
def Fair (sched : Nat → StubAction ε τ) : Prop :=
  ∀ n, (∃ k, n ≤ k ∧ sched k = .destruct) ∧
    (∃ k, n ≤ k ∧ ∃ transfer, sched k = .background transfer) ∧ ∃ k, n ≤ k ∧ sched k = .join

/-- The destructor has returned or the process has ended. -/
def Over (stub : CurlStub ε τ) : Prop := stub.destroyed = true ∨ stub.ending ≠ none

/-- How far the destructor has to go. -/
def distance (stub : CurlStub ε τ) : Nat :=
  if stub.threadExit then
    match stub.backgroundThread with
    | .flush => 4
    | .test => 3
    | .lastFlush => 2
    | .ended => 1
  else 5

/-- The action that brings the destructor on. -/
def Helpful (stub : CurlStub ε τ) (a : StubAction ε τ) : Prop :=
  if stub.threadExit then
    if stub.backgroundThread = .ended then a = .join else ∃ transfer, a = .background transfer
  else a = .destruct

/-- Before the destructor has begun it does not matter where the thread is. -/
theorem stays (hexit : stub'.threadExit = stub.threadExit)
    (hthread : stub.threadExit = true → stub'.backgroundThread = stub.backgroundThread) :
    stub'.distance ≤ stub.distance ∧ ∀ b, stub.Helpful b → stub'.Helpful b := by
  unfold distance Helpful
  rw [hexit]
  by_cases hbegun : stub.threadExit = true
  · rw [hthread hbegun]
    exact ⟨le_rfl, fun _ hb => hb⟩
  · simp [hbegun]

theorem Turn.threadExit (h : Turn host threshold transfer stub stub') :
    stub'.threadExit = stub.threadExit := by
  cases h <;> rfl

/-- Once the destructor has begun every turn brings the thread nearer to its end. -/
theorem Turn.distance_lt (h : Turn host threshold transfer stub stub')
    (hbegun : stub.threadExit = true) :
    stub'.ending ≠ none ∨ stub'.distance < stub.distance := by
  cases h with
  | tested hthread =>
      right
      simp [distance, hbegun, hthread]
  | kept hflush hshort =>
      right
      generalize hthread : stub.backgroundThread = thread at hflush
      cases hflush <;> simp [distance, hbegun, hthread]
  | posted hflush hlong hdumps hexits =>
      right
      generalize hthread : stub.backgroundThread = thread at hflush
      cases hflush <;> simp [distance, hbegun, hthread]
  | exited hflush hlong hdumps hexits => exact Or.inl (by simp)
  | terminated hflush hlong hdumps => exact Or.inl (by simp)

theorem progress_background (hlive : stub.ending = none) :
    (stub.next host threshold (.background transfer)).Over ∨
      (stub.next host threshold (.background transfer)).distance < stub.distance ∨
      ¬ stub.Helpful (.background transfer) ∧
        (stub.next host threshold (.background transfer)).distance ≤ stub.distance ∧
        ∀ b, stub.Helpful b → (stub.next host threshold (.background transfer)).Helpful b := by
  rw [next, step_of_live hlive, act]
  by_cases hended : stub.backgroundThread = .ended
  · have hnone : stub.backgroundThreadFunc host threshold transfer = none := by
      rw [backgroundThreadFunc, hended]
    rw [hnone, Option.getD_none]
    exact Or.inr (Or.inr ⟨by simp [Helpful, hended], le_rfl, fun _ hb => hb⟩)
  · obtain ⟨stub', hstep⟩ := exists_turn host threshold transfer hended
    have hturn := turn_of_background hlive hstep
    rw [hstep, Option.getD_some]
    by_cases hbegun : stub.threadExit = true
    · exact (hturn.distance_lt hbegun).imp (fun hover => Or.inr hover) Or.inl
    · refine Or.inr (Or.inr ⟨by simp [Helpful, hbegun], ?_⟩)
      exact stays hturn.threadExit fun h => absurd h hbegun

theorem progress (a : StubAction ε τ) (hover : ¬ stub.Over) :
    (stub.next host threshold a).Over ∨
      (stub.next host threshold a).distance < stub.distance ∨
      ¬ stub.Helpful a ∧ (stub.next host threshold a).distance ≤ stub.distance ∧
        ∀ b, stub.Helpful b → (stub.next host threshold a).Helpful b := by
  have hlive : stub.ending = none := not_not.mp fun h => hover (Or.inr h)
  have hrunning : stub.destroyed = false := Bool.eq_false_iff.mpr fun h => hover (Or.inl h)
  cases a with
  | post postData =>
      have hnot : ¬ stub.Helpful (.post postData) := by
        unfold Helpful
        split
        · split <;> simp
        · simp
      refine Or.inr (Or.inr ⟨hnot, ?_⟩)
      have hnext : stub.next host threshold (.post postData) =
          if stub.threadExit = true then stub else stub.post postData := by
        simp only [next, step_of_live hlive, act]
        split <;> rfl
      rw [hnext]
      split
      · exact ⟨le_rfl, fun _ hb => hb⟩
      · exact stays rfl fun _ => rfl
  | destruct =>
      right
      by_cases hbegun : stub.threadExit = true
      · have hsame : stub.next host threshold .destruct = stub := by
          simp [next, step_of_live hlive, act, hbegun]
        rw [hsame]
        refine Or.inr ⟨?_, le_rfl, fun _ hb => hb⟩
        unfold Helpful
        rw [if_pos hbegun]
        split <;> simp
      · left
        have hnext : stub.next host threshold .destruct = { stub with threadExit := true } := by
          simp [next, step_of_live hlive, act, hbegun]
        rw [hnext]
        cases hthread : stub.backgroundThread <;> simp [distance, hbegun]
  | background transfer => exact progress_background hlive
  | join =>
      by_cases hjoin : stub.threadExit = true ∧ stub.backgroundThread = .ended
      · left
        simp [next, step_of_live hlive, act, Over, hjoin, hrunning]
      · right
        right
        have hsame : stub.next host threshold .join = stub := by
          have hnot : ¬ (stub.threadExit = true ∧ stub.backgroundThread = .ended ∧
              stub.destroyed = false) := fun h => hjoin ⟨h.1, h.2.1⟩
          simp only [next, step_of_live hlive, act, if_neg hnot, Option.getD_none]
        rw [hsame]
        refine ⟨?_, le_rfl, fun _ hb => hb⟩
        unfold Helpful
        split
        · rename_i hbegun
          rw [if_neg fun hended => hjoin ⟨hbegun, hended⟩]
          simp
        · simp

/-- Why the process has ended: its queue cannot be dumped, or libcurl had no list of cookies. -/
def Explained (host : StubHost ε τ) (stub : CurlStub ε τ) : Prop :=
  match stub.ending with
  | none => True
  | some .terminate => host.dumps stub.postDataQueue = false
  | some (.exit transfer) => host.dumps stub.postDataQueue = true ∧ host.exits transfer = true

theorem Conserves.explained (h : Conserves host threshold acts stub) : stub.Explained host := by
  unfold Explained
  split
  · trivial
  · rename_i hended
    exact h.terminated hended
  · rename_i transfer hended
    exact h.exits transfer hended

/-- What holds behind some run holds along a schedule. -/
def Reached (host : StubHost ε τ) (threshold : Int) (stub : CurlStub ε τ) : Prop :=
  ∃ acts, exec (CurlStub.step host threshold) CurlStub.init acts = some stub

theorem Reached.next (h : Reached host threshold stub) (a : StubAction ε τ) :
    Reached host threshold (stub.next host threshold a) := by
  obtain ⟨acts, hrun⟩ := h
  cases hstep : stub.step host threshold a with
  | none => exact ⟨acts, by rw [CurlStub.next, hstep, Option.getD_none, hrun]⟩
  | some stub' =>
      refine ⟨acts ++ [a], ?_⟩
      rw [CurlStub.next, hstep, Option.getD_some]
      exact exec_snoc hrun hstep

end CurlStub

/-- A log record; `app_name` and `app_flags` keep their defaults. -/
structure Ulog where
  loggerId : Str
  logLevel : Int
  msg : Str
  appName : Str
  appFlags : Int
  deriving DecidableEq

/-- The record that is made of a message. -/
def newUlog (machineId timestamp message : Str) (severity : Int) : Ulog where
  loggerId := machineId
  logLevel := severity
  msg := "[".toList ++ timestamp ++ "] ".toList ++ message
  appName := "rfid_engine".toList
  appFlags := 0

/-- What the sink does with the stub it makes: at most one post, then the destructor. -/
def sinkUlogFn {τ : Type*} (logLevel : Int) (ulog : Ulog) : List (StubAction Ulog τ) :=
  (if logLevel ≤ ulog.logLevel then [.post ulog] else []) ++ [.destruct, .join]

/-- The threshold of a stub that is made without one. -/
def defaultThreshold : Int := 10

/-- The thread of the stub has its steps anywhere between those of the sink. -/
def StubAction.ofSink {ε τ : Type*} : StubAction ε τ → Bool
  | .background _ => false
  | _ => true

section Sink

variable {τ : Type*}

theorem posts_filter_ofSink {ε : Type*} (acts : List (StubAction ε τ)) :
    posts (acts.filter StubAction.ofSink) = posts acts := by
  rw [posts, List.filterMap_filter]
  congr 1
  funext a
  cases a <;> rfl

theorem posts_sinkUlogFn (logLevel : Int) (ulog : Ulog) :
    posts (sinkUlogFn logLevel ulog : List (StubAction Ulog τ)) =
      if logLevel ≤ ulog.logLevel then [ulog] else [] := by
  unfold sinkUlogFn
  split <;> rfl

/-- The join is the last step of the sink. -/
theorem eq_sinkUlogFn_of_join {logLevel : Int} {ulog : Ulog} {steps : List (StubAction Ulog τ)}
    (hsteps : steps <+: sinkUlogFn logLevel ulog) (hjoin : StubAction.join ∈ steps) :
    steps = sinkUlogFn logLevel ulog := by
  have hlast : sinkUlogFn logLevel ulog =
      ((if logLevel ≤ ulog.logLevel then [.post ulog] else []) ++ [.destruct]) ++
        [(.join : StubAction Ulog τ)] := by
    simp [sinkUlogFn]
  rw [hlast] at hsteps ⊢
  obtain heq | hprefix := List.prefix_concat_iff.mp hsteps
  · exact heq
  · have hmem := hprefix.subset hjoin
    split at hmem <;> simp at hmem

/-- Batches that are not empty and have at most one element together are at most one. -/
theorem eq_of_flatten_length_le_one {ε : Type*} {batches : List (List ε)}
    (hne : ∀ batch ∈ batches, batch ≠ []) (hlen : batches.flatten.length ≤ 1) :
    batches = if batches.flatten = [] then [] else [batches.flatten] := by
  cases batches with
  | nil => rfl
  | cons batch rest =>
      have hbatch := List.length_pos_iff.mpr (hne batch List.mem_cons_self)
      rw [List.flatten_cons, List.length_append] at hlen
      cases rest with
      | nil => simp [hne batch List.mem_cons_self]
      | cons batch' rest =>
          have hbatch' := List.length_pos_iff.mpr (hne batch' (by simp))
          rw [List.flatten_cons, List.length_append] at hlen
          omega

namespace CurlStub

variable {host : StubHost Ulog τ} {acts : List (StubAction Ulog τ)} {stub : CurlStub Ulog τ}

/-- The batches of a stub that has at most one record. -/
theorem Conserves.batches (h : Conserves host defaultThreshold acts stub)
    (hone : (posts acts).length ≤ 1) :
    stub.posted.map Prod.fst = if (stub.posted.map Prod.fst).flatten = [] then [] else
      [(stub.posted.map Prod.fst).flatten] := by
  have hne : ∀ batch ∈ stub.posted.map Prod.fst, batch ≠ [] :=
    List.forall_mem_map.mpr (h.nonempty (by decide))
  have hlen := congrArg List.length h.flatten
  rw [List.length_append] at hlen
  exact eq_of_flatten_length_le_one hne (by omega)

/-- Where the process has ended, its queue is the one record that was posted. -/
theorem Conserves.queue_of_ended (h : Conserves host defaultThreshold acts stub)
    (hone : (posts acts).length ≤ 1) (hended : stub.ending ≠ none) :
    stub.postDataQueue = posts acts ∧ posts acts ≠ [] ∧ stub.posted = [] := by
  have hqueue := (h.unsent hended).2 (by decide)
  have hpos := List.length_pos_iff.mpr hqueue
  have hlen := congrArg List.length h.flatten
  rw [List.length_append] at hlen
  have hflatten : (stub.posted.map Prod.fst).flatten = [] :=
    List.eq_nil_of_length_eq_zero (by omega)
  have hposted := h.batches hone
  rw [if_pos hflatten, List.map_eq_nil_iff] at hposted
  have hposts := h.flatten
  rw [hflatten, List.nil_append] at hposts
  exact ⟨hposts, hposts ▸ hqueue, hposted⟩

end CurlStub

/-- A message at or beyond the configured level is handed over in a batch of its own exactly if it
can be dumped, and the process is terminated if not; a lower one is not handed over at all. Neither
depends on how the thread of the stub has run. -/
theorem sink_hands_over (host : StubHost Ulog τ) (logLevel severity : Int)
    (machineId timestamp message : Str) (acts : List (StubAction Ulog τ)) (stub : CurlStub Ulog τ)
    (hsink : acts.filter StubAction.ofSink <+:
      sinkUlogFn logLevel (newUlog machineId timestamp message severity))
    (hrun : exec (CurlStub.step host defaultThreshold) CurlStub.init acts = some stub)
    (hover : stub.destroyed = true ∨ stub.ending ≠ none) :
    (stub.calls.map Prod.fst =
      if logLevel ≤ severity ∧ host.dumps [newUlog machineId timestamp message severity] = true then
        [[newUlog machineId timestamp message severity]]
      else []) ∧
    (stub.ending = some .terminate ↔
      logLevel ≤ severity ∧
        host.dumps [newUlog machineId timestamp message severity] = false) := by
  have hconserves := CurlStub.conserves_of_run hrun
  have hlevel : (newUlog machineId timestamp message severity).logLevel = severity := rfl
  generalize newUlog machineId timestamp message severity = ulog at hsink hlevel ⊢
  have hposts : posts acts <+: if logLevel ≤ severity then [ulog] else [] := by
    rw [← posts_filter_ofSink, ← hlevel, ← posts_sinkUlogFn (τ := τ)]
    exact hsink.filterMap _
  have hone : (posts acts).length ≤ 1 := by
    refine hposts.length_le.trans ?_
    split <;> simp
  by_cases hended : stub.ending = none
  · have hdestroyed : stub.destroyed = true := hover.resolve_right fun h => h hended
    have hjoin : StubAction.join ∈ acts.filter StubAction.ofSink :=
      List.mem_filter.mpr ⟨hconserves.joins.mpr hdestroyed, rfl⟩
    have hall : posts acts = if logLevel ≤ severity then [ulog] else [] := by
      rw [← posts_filter_ofSink, eq_sinkUlogFn_of_join hsink hjoin, posts_sinkUlogFn, hlevel]
    have hflatten := (hconserves.all_posted hdestroyed (by rw [intMax]; omega)).2
    have hposted := hconserves.batches hone
    rw [hflatten, hall] at hposted
    rw [CurlStub.calls_of_live hended, hposted, hended]
    by_cases hle : logLevel ≤ severity
    · have hmem : [ulog] ∈ stub.posted.map Prod.fst := by
        rw [hposted]
        simp [hle]
      obtain ⟨sent, hsent, heq⟩ := List.mem_map.mp hmem
      have hdumps : host.dumps [ulog] = true := heq ▸ (hconserves.returned sent hsent).1
      simp [hle, hdumps]
    · simp [hle]
  · obtain ⟨hqueue, hne, hposted⟩ := hconserves.queue_of_ended hone hended
    have hle : logLevel ≤ severity := by
      by_contra hnot
      rw [if_neg hnot] at hposts
      exact hne (List.prefix_nil.mp hposts)
    rw [if_pos hle] at hposts
    have hposts : posts acts = [ulog] := by
      obtain heq | hnil := List.prefix_concat_iff.mp (List.nil_append [ulog] ▸ hposts)
      · exact heq
      · exact absurd (List.prefix_nil.mp hnil) hne
    rw [hposts] at hqueue
    cases hending : stub.ending with
    | none => exact absurd hending hended
    | some ending =>
        cases ending with
        | terminate =>
            have hdumps := hconserves.terminated hending
            rw [hqueue] at hdumps
            simp [CurlStub.calls, hending, hposted, hle, hdumps]
        | exit transfer =>
            have hdumps := (hconserves.exits transfer hending).1
            rw [hqueue] at hdumps
            simp [CurlStub.calls, hending, hposted, hqueue, hle, hdumps]

end Sink

/-- Texts of ASCII characters can be dumped, and libcurl lists its cookies. -/
def asciiHost : StubHost Ulog Unit :=
  ⟨fun batch => batch.all fun log => log.msg.all fun ch => ch.toNat < 128, fun _ => false⟩

/-- The thread looks at the empty queue before the message is posted; a byte of no character
terminates the process. -/
theorem sink_hands_over_late :
    (CurlStub.mk [] [([newUlog ['m'] ['t'] ['x'] 4], ())] true .ended true none).calls.map
        Prod.fst = [[newUlog ['m'] ['t'] ['x'] 4]] ∧
      (CurlStub.mk [newUlog ['m'] ['t'] ['\xff'] 4] [] true .lastFlush false
        (some .terminate) : CurlStub Ulog Unit).calls.map Prod.fst = [] := by
  have hrun : exec (CurlStub.step asciiHost defaultThreshold) CurlStub.init
      [.background (), .background (), .post (newUlog ['m'] ['t'] ['x'] 4), .destruct,
        .background (), .background (), .join] =
        some (CurlStub.mk [] [([newUlog ['m'] ['t'] ['x'] 4], ())] true .ended true none) := by
    decide
  have hfails : exec (CurlStub.step asciiHost defaultThreshold) CurlStub.init
      [.post (newUlog ['m'] ['t'] ['\xff'] 4), .destruct, .background (), .background ()] =
        some (CurlStub.mk [newUlog ['m'] ['t'] ['\xff'] 4] [] true .lastFlush false
          (some .terminate)) := by
    decide
  constructor
  · exact (sink_hands_over asciiHost 3 4 ['m'] ['t'] ['x'] _ _ (List.prefix_refl _) hrun
      (Or.inl rfl)).1
  · exact (sink_hands_over asciiHost 3 4 ['m'] ['t'] ['\xff'] _ _ ⟨[.join], rfl⟩ hfails
      (Or.inr (by simp))).1

/-- The body of a post, with how much of it is left. -/
structure WriteAdapter where
  data : Str
  readptr : Nat
  sizeleft : Nat

/-- What is copied to a buffer of `size * nmemb` bytes; the callback returns its length, and 0
tells the transfer to end. -/
def readCallback (size nmemb : Nat) (wt : WriteAdapter) : Str × WriteAdapter :=
  -- The buffer lies in memory, so that the product of the two `size_t` does not wrap.
  let bufferSize := size * nmemb
  if wt.sizeleft ≠ 0 then
    let copyThisMuch := if bufferSize < wt.sizeleft then bufferSize else wt.sizeleft
    ((wt.data.drop wt.readptr).take copyThisMuch,
      { wt with readptr := wt.readptr + copyThisMuch, sizeleft := wt.sizeleft - copyThisMuch })
  else ([], wt)

/-- The adapter after some calls with buffers of the given shapes. -/
def adapterAt (data : Str) (buffers : Nat → Nat × Nat) : Nat → WriteAdapter
  | 0 => ⟨data, 0, data.length⟩
  | n + 1 => (readCallback (buffers n).1 (buffers n).2 (adapterAt data buffers n)).2

/-- What a call copies. -/
def chunkAt (data : Str) (buffers : Nat → Nat × Nat) (n : Nat) : Str :=
  (readCallback (buffers n).1 (buffers n).2 (adapterAt data buffers n)).1

/-- Where the reading stands after some calls. -/
def placeAt (data : Str) (buffers : Nat → Nat × Nat) : Nat → Nat
  | 0 => 0
  | n + 1 => min (placeAt data buffers n + (buffers n).1 * (buffers n).2) data.length

section ReadCallback

variable {data : Str} {buffers : Nat → Nat × Nat}

theorem placeAt_le (data : Str) (buffers : Nat → Nat × Nat) (n : Nat) :
    placeAt data buffers n ≤ data.length := by
  cases n with
  | zero => exact Nat.zero_le _
  | succ n => exact min_le_right _ _

/-- A call copies as much of the rest as the buffer holds. -/
theorem readCallback_eq {place size nmemb : Nat} (hplace : place ≤ data.length) :
    readCallback size nmemb ⟨data, place, data.length - place⟩ =
      ((data.drop place).take (size * nmemb),
        ⟨data, min (place + size * nmemb) data.length,
          data.length - min (place + size * nmemb) data.length⟩) := by
  unfold readCallback
  by_cases hleft : data.length - place = 0
  · have hend : place = data.length := by omega
    simp [hend]
  · have hrest : (data.drop place).length = data.length - place := List.length_drop
    by_cases hfull : size * nmemb < data.length - place
    · have hmin : min (place + size * nmemb) data.length = place + size * nmemb :=
        min_eq_left (by omega)
      rw [hmin, Nat.sub_add_eq]
      simp only [if_pos hleft, if_pos hfull]
    · have hmin : min (place + size * nmemb) data.length = data.length :=
        min_eq_right (by omega)
      have hall : place + (data.length - place) = data.length := by omega
      rw [hmin, List.take_of_length_le (by omega : (data.drop place).length ≤ size * nmemb)]
      simp only [if_pos hleft, if_neg hfull, hall]
      rw [← hrest, List.take_length, hrest, Nat.sub_self, Nat.sub_self]

theorem adapterAt_eq (n : Nat) : adapterAt data buffers n =
    ⟨data, placeAt data buffers n, data.length - placeAt data buffers n⟩ := by
  induction n with
  | zero => rfl
  | succ n ih => rw [adapterAt, ih, readCallback_eq (placeAt_le data buffers n), placeAt]

theorem chunkAt_eq (n : Nat) : chunkAt data buffers n =
    (data.drop (placeAt data buffers n)).take ((buffers n).1 * (buffers n).2) := by
  rw [chunkAt, adapterAt_eq, readCallback_eq (placeAt_le data buffers n)]

/-- The chunks so far are the data up to where the reading stands. -/
theorem flatten_chunks (n : Nat) :
    ((List.range n).map (chunkAt data buffers)).flatten = data.take (placeAt data buffers n) := by
  induction n with
  | zero => rfl
  | succ n ih =>
      rw [List.range_succ, List.map_append, List.flatten_append, ih, List.map_singleton,
        List.flatten_singleton, chunkAt_eq, ← List.take_add, placeAt, ← List.take_eq_take_min]

theorem length_chunkAt (n : Nat) : (chunkAt data buffers n).length =
    min ((buffers n).1 * (buffers n).2) (data.length - placeAt data buffers n) := by
  rw [chunkAt_eq, List.length_take, List.length_drop]

/-- Non-empty buffers bring the reading on by at least one byte a call. -/
theorem le_placeAt (data : Str) (hbuffers : ∀ n, 0 < (buffers n).1 * (buffers n).2) (n : Nat) :
    min n data.length ≤ placeAt data buffers n := by
  induction n with
  | zero => exact min_le_left _ _
  | succ n ih =>
      have hstep := hbuffers n
      rw [placeAt]
      omega

theorem placeAt_mono (data : Str) (buffers : Nat → Nat × Nat) :
    Monotone (placeAt data buffers) := by
  refine monotone_nat_of_le_succ fun n => ?_
  have hle := placeAt_le data buffers n
  rw [placeAt]
  omega

/-- Whatever non-empty buffers are given, the chunks make up the data, and a call returns 0
exactly from the end of it on. -/
theorem chunks_make_data (data : Str) (buffers : Nat → Nat × Nat)
    (hbuffers : ∀ n, 0 < (buffers n).1 * (buffers n).2) :
    ∃ calls, calls ≤ data.length ∧
      ((List.range calls).map (chunkAt data buffers)).flatten = data ∧
      ∀ n, (chunkAt data buffers n).length ≤ (buffers n).1 * (buffers n).2 ∧
        ((chunkAt data buffers n).length = 0 ↔ calls ≤ n) := by
  have hall : placeAt data buffers data.length = data.length :=
    le_antisymm (placeAt_le data buffers _) (by simpa using le_placeAt data hbuffers data.length)
  have hend : ∃ n, placeAt data buffers n = data.length := ⟨data.length, hall⟩
  have hfound : placeAt data buffers (Nat.find hend) = data.length := Nat.find_spec hend
  refine ⟨Nat.find hend, Nat.find_min' hend hall, ?_, fun n => ⟨?_, ?_⟩⟩
  · rw [flatten_chunks, hfound, List.take_length]
  · rw [length_chunkAt]
    exact min_le_left _ _
  · have hbuffer := hbuffers n
    have hle := placeAt_le data buffers n
    rw [length_chunkAt]
    constructor
    · intro hzero
      exact Nat.find_min' hend (by omega)
    · intro hcalls
      have hmono := placeAt_mono data buffers hcalls
      omega

/-- Buffers of two bytes. -/
theorem chunks_make_data_pairs : ∃ calls, calls ≤ 3 ∧
    ((List.range calls).map (chunkAt ['a', 'b', 'c'] fun _ => (1, 2))).flatten =
      ['a', 'b', 'c'] := by
  obtain ⟨calls, hcalls, hdata, -⟩ :=
    chunks_make_data ['a', 'b', 'c'] (fun _ => (1, 2)) fun _ => by decide
  exact ⟨calls, hcalls, hdata⟩

end ReadCallback

end RfidEngine
