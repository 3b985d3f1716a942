import RfidEngine.Lib.StepSystem

/-!
# CmdHandler: the life cycle of its connection

The life cycle is spread over the thread object, the device type, which the
constructor does not set, and the two pointers to a socket and a serial port. A
run is a sequence of calls, each with what came of it, and of connections lost.

## Main result

The life cycle is sound exactly for the runs in which no connecting fails, and
every stop and the destruction find the port of the latest start connected
before and no other port being read.
-/

namespace RfidEngine

open StepSystem

/-- Whatever is not `SOCKET` is handled as `SERIAL`. -/
inductive ReaderSettingsType where
  | socket
  | serial
  deriving DecidableEq

/-- What the receive thread meets when it connects its socket or opens its serial port. -/
inductive Opening where
  | connected
  | failed
  | throws
  deriving DecidableEq

/-- What comes of a start. -/
inductive StartOutcome where
  | activatedTwice
  | createThreadFailed
  | opened (opening : Opening)
  deriving DecidableEq

/-- After these a handler takes no more calls. -/
inductive Ending where
  | destroyed
  | startHangs
  | stopHangs
  | terminated
  | nullDereferenced
  deriving DecidableEq

/-- The members of `CmdHandler` that belong to its connection; a pointer is set or null. `reads` is
the port that the receive thread waits for in `io_service.run`. `started` tells whether a start has
succeeded and no stop has followed, `refusedRetry` whether a start was rejected while none was. -/
structure LifeCycle where
  deviceType : ReaderSettingsType
  joinable : Bool
  asioSocket : Bool
  asioSerial : Bool
  reads : Option ReaderSettingsType
  started : Bool
  refusedRetry : Bool
  ending : Option Ending
  deriving DecidableEq

/-- The calls; and a read that fails when the connection is lost, at which the receive thread runs
out. -/
inductive LifeCall where
  | startRecvThread (type : ReaderSettingsType) (outcome : StartOutcome)
  | stopRecvThread
  | destroy
  | readFails
  deriving DecidableEq

namespace LifeCycle

/-- The constructor leaves the device type as it finds it in memory. -/
def construct (deviceType : ReaderSettingsType) : LifeCycle :=
  ⟨deviceType, false, false, false, none, false, false, none⟩

def isActive (s : LifeCycle) : Bool := s.joinable

/-- The port of a device type was created. -/
def created (s : LifeCycle) : ReaderSettingsType → Bool
  | .socket => s.asioSocket
  | .serial => s.asioSerial

/-- The port that a thread reads behind the opening of its own. -/
def readsAfter (type : ReaderSettingsType) (opening : Opening) : Option ReaderSettingsType :=
  if opening = .connected then some type else none

/-- `reply_thread_func`, and whether it sets `thread_ready`: after connecting, in any case. -/
def replyThreadFunc (s : LifeCycle) (opening : Opening) : LifeCycle × Bool :=
  ({ s with asioSocket := true, reads := readsAfter .socket opening }, true)

/-- `reply_thread_func_serial` returns at an error before it sets `thread_ready`. -/
def replyThreadFuncSerial (s : LifeCycle) (opening : Opening) : LifeCycle × Bool :=
  ({ s with asioSerial := true, reads := readsAfter .serial opening }, opening == .connected)

/-- The start waits for the thread to be ready and looks at the error of its opening; an
exception in the thread ends the program. -/
def awaitThread (s : LifeCycle) (threadReady : Bool) (opening : Opening) : LifeCycle :=
  match opening with
  | .throws => { s with ending := some .terminated }
  | .connected =>
      if threadReady then { s with started := true } else { s with ending := some .startHangs }
  | .failed => if threadReady then s else { s with ending := some .startHangs }

/-- The common part of the starts: a joinable thread is not replaced. -/
def startThread (threadFunc : LifeCycle → Opening → LifeCycle × Bool) (s : LifeCycle) :
    StartOutcome → Option LifeCycle
  | .activatedTwice =>
      if s.joinable then some { s with refusedRetry := s.refusedRetry || !s.started } else none
  | .createThreadFailed => if s.joinable then none else some s
  | .opened opening =>
      if s.joinable then none
      else
        let (s, threadReady) := threadFunc { s with joinable := true } opening
        some (s.awaitThread threadReady opening)

def startRecvThreadWithSocket : LifeCycle → StartOutcome → Option LifeCycle :=
  startThread replyThreadFunc

def startRecvThreadWithSerial : LifeCycle → StartOutcome → Option LifeCycle :=
  startThread replyThreadFuncSerial

/-- The device type is set before anything is checked. -/
def startRecvThread (s : LifeCycle) (type : ReaderSettingsType) :
    StartOutcome → Option LifeCycle :=
  match type with
  | .socket => startRecvThreadWithSocket { s with deviceType := .socket }
  | .serial => startRecvThreadWithSerial { s with deviceType := .serial }

/-- Closing the port of the device type ends the receive thread, or it reads none. -/
def Closes (s : LifeCycle) : Prop := s.reads = none ∨ s.reads = some s.deviceType

instance (s : LifeCycle) : Decidable s.Closes := inferInstanceAs (Decidable (_ ∨ _))

/-- The port of the device type is closed through its pointer; joining a thread that reads the
other port waits for it, and joining one that is not joinable throws an exception, which is
caught. -/
def stopRecvThread (s : LifeCycle) : LifeCycle :=
  if s.created s.deviceType then
    if s.Closes then { s with joinable := false, reads := none, started := false }
    else { s with started := false, ending := some .stopHangs }
  else { s with ending := some .nullDereferenced }

def step (s : LifeCycle) (call : LifeCall) : Option LifeCycle :=
  match s.ending with
  | some _ => none
  | none =>
      match call with
      | .startRecvThread type outcome => s.startRecvThread type outcome
      | .stopRecvThread => some s.stopRecvThread
      | .destroy =>
          let stopped := s.stopRecvThread
          some { stopped with ending := stopped.ending.or (some .destroyed) }
      | .readFails => if s.reads.isSome then some { s with reads := none } else none

/-- There is a handler to ask, also beside a call that hangs. -/
def Alive (s : LifeCycle) : Prop :=
  s.ending = none ∨ s.ending = some .startHangs ∨ s.ending = some .stopHangs

instance (s : LifeCycle) : Decidable s.Alive := inferInstanceAs (Decidable (_ ∨ _))

/-- No null pointer was dereferenced, the handler is active exactly when a start has succeeded
and no stop has followed, and no start was rejected otherwise. -/
structure Sound (s : LifeCycle) : Prop where
  pointers : s.ending ≠ some .nullDereferenced
  active : s.Alive → s.isActive = s.started
  retried : s.refusedRetry = false

instance (s : LifeCycle) : Decidable s.Sound :=
  decidable_of_iff
    (s.ending ≠ some .nullDereferenced ∧ (s.Alive → s.isActive = s.started) ∧
      s.refusedRetry = false)
    ⟨fun h => ⟨h.1, h.2.1, h.2.2⟩, fun h => ⟨h.pointers, h.active, h.retried⟩⟩

variable {s s' : LifeCycle} {type t : ReaderSettingsType}

/-- The state after an opening that did not throw or hang. -/
def afterOpening (s : LifeCycle) (type : ReaderSettingsType) (opening : Opening) : LifeCycle :=
  match type with
  | .socket =>
      { s with
        deviceType := .socket, joinable := true, asioSocket := true,
        reads := readsAfter .socket opening }
  | .serial =>
      { s with
        deviceType := .serial, joinable := true, asioSerial := true,
        reads := readsAfter .serial opening }

section AfterOpening

variable {opening : Opening}

@[simp] theorem afterOpening_deviceType : (s.afterOpening type opening).deviceType = type := by
  cases type <;> rfl

@[simp] theorem afterOpening_joinable : (s.afterOpening type opening).joinable = true := by
  cases type <;> rfl

@[simp] theorem afterOpening_reads :
    (s.afterOpening type opening).reads = readsAfter type opening := by
  cases type <;> rfl

@[simp] theorem afterOpening_started : (s.afterOpening type opening).started = s.started := by
  cases type <;> rfl

@[simp] theorem afterOpening_refusedRetry :
    (s.afterOpening type opening).refusedRetry = s.refusedRetry := by
  cases type <;> rfl

@[simp] theorem afterOpening_ending : (s.afterOpening type opening).ending = s.ending := by
  cases type <;> rfl

@[simp] theorem afterOpening_created :
    (s.afterOpening type opening).created t = (s.created t || decide (t = type)) := by
  cases type <;> cases t <;> simp [created, afterOpening]

end AfterOpening

theorem startThread_cases {threadFunc : LifeCycle → Opening → LifeCycle × Bool}
    {outcome : StartOutcome} (h : startThread threadFunc s outcome = some s') :
    (outcome = .activatedTwice ∧ s.joinable = true ∧
      s' = { s with refusedRetry := s.refusedRetry || !s.started }) ∨
    (outcome = .createThreadFailed ∧ s.joinable = false ∧ s' = s) ∨
    (∃ opening, outcome = .opened opening ∧ s.joinable = false ∧
      s' = (threadFunc { s with joinable := true } opening).1.awaitThread
        (threadFunc { s with joinable := true } opening).2 opening) := by
  cases hjoinable : s.joinable with
  | true =>
      cases outcome with
      | activatedTwice => exact Or.inl ⟨rfl, rfl, by simpa [startThread, hjoinable] using h.symm⟩
      | _ => exact absurd h (by simp [startThread, hjoinable])
  | false =>
      cases outcome with
      | activatedTwice => exact absurd h (by simp [startThread, hjoinable])
      | createThreadFailed =>
          exact Or.inr (Or.inl ⟨rfl, rfl, by simpa [startThread, hjoinable] using h.symm⟩)
      | opened opening =>
          exact Or.inr (Or.inr ⟨opening, rfl, rfl, by
            simpa [startThread, hjoinable] using h.symm⟩)

theorem startThread_opened {threadFunc : LifeCycle → Opening → LifeCycle × Bool}
    {opening : Opening} (h : startThread threadFunc s (.opened opening) = some s') :
    s' = (threadFunc { s with joinable := true } opening).1.awaitThread
      (threadFunc { s with joinable := true } opening).2 opening := by
  obtain ⟨hopened, -⟩ | ⟨hopened, -⟩ | ⟨_, hopened, -, rfl⟩ := startThread_cases h
  · exact absurd hopened (by simp)
  · exact absurd hopened (by simp)
  · obtain rfl := StartOutcome.opened.inj hopened
    rfl

/-- A start sets the device type. It is rejected, or fails to create the thread, or opens the
port: the failing of a serial port hangs it, an exception ends the program. -/
theorem startRecvThread_cases {outcome : StartOutcome}
    (h : s.startRecvThread type outcome = some s') :
    (outcome = .activatedTwice ∧ s.joinable = true ∧
      s' = { s with deviceType := type, refusedRetry := s.refusedRetry || !s.started }) ∨
    (outcome = .createThreadFailed ∧ s.joinable = false ∧ s' = { s with deviceType := type }) ∨
    (outcome = .opened .connected ∧ s.joinable = false ∧
      s' = { s.afterOpening type .connected with started := true }) ∨
    (outcome = .opened .failed ∧ s.joinable = false ∧
      ∃ ending, (ending = s.ending ∨ ending = some .startHangs) ∧
        s' = { s.afterOpening type .failed with ending := ending }) ∨
    (outcome = .opened .throws ∧ s.joinable = false ∧
      s' = { s.afterOpening type .throws with ending := some .terminated }) := by
  cases type with
  | socket =>
      change startThread replyThreadFunc { s with deviceType := .socket } outcome = some s' at h
      obtain ⟨rfl, hj, rfl⟩ | ⟨rfl, hj, rfl⟩ | ⟨opening, rfl, hj, rfl⟩ := startThread_cases h
      · exact Or.inl ⟨rfl, hj, rfl⟩
      · exact Or.inr (Or.inl ⟨rfl, hj, rfl⟩)
      · cases opening with
        | connected => exact Or.inr (Or.inr (Or.inl ⟨rfl, hj, rfl⟩))
        | failed => exact Or.inr (Or.inr (Or.inr (Or.inl ⟨rfl, hj, _, Or.inl rfl, rfl⟩)))
        | throws => exact Or.inr (Or.inr (Or.inr (Or.inr ⟨rfl, hj, rfl⟩)))
  | serial =>
      change startThread replyThreadFuncSerial { s with deviceType := .serial } outcome =
        some s' at h
      obtain ⟨rfl, hj, rfl⟩ | ⟨rfl, hj, rfl⟩ | ⟨opening, rfl, hj, rfl⟩ := startThread_cases h
      · exact Or.inl ⟨rfl, hj, rfl⟩
      · exact Or.inr (Or.inl ⟨rfl, hj, rfl⟩)
      · cases opening with
        | connected => exact Or.inr (Or.inr (Or.inl ⟨rfl, hj, rfl⟩))
        | failed => exact Or.inr (Or.inr (Or.inr (Or.inl ⟨rfl, hj, _, Or.inr rfl, rfl⟩)))
        | throws => exact Or.inr (Or.inr (Or.inr (Or.inr ⟨rfl, hj, rfl⟩)))

theorem ending_of_step {c : LifeCall} (h : s.step c = some s') : s.ending = none := by
  unfold step at h
  cases hending : s.ending with
  | none => rfl
  | some ending =>
      rw [hending] at h
      exact absurd h (by simp)

theorem step_startRecvThread {outcome : StartOutcome}
    (h : s.step (.startRecvThread type outcome) = some s') :
    s.startRecvThread type outcome = some s' := by
  have hnone := ending_of_step h
  rwa [step, hnone] at h

theorem step_readFails (h : s.step .readFails = some s') :
    s.reads.isSome = true ∧ s' = { s with reads := none } := by
  have hnone := ending_of_step h
  simp only [step, hnone] at h
  split at h
  · rename_i hreads
    refine ⟨hreads, ?_⟩
    rw [hnone]
    exact (Option.some.inj h).symm
  · exact absurd h (by simp)

/-- A stop or the destruction closes the port of the device type, or dereferences null; it comes
back if the port that is read is closed. -/
theorem stop_cases {c : LifeCall} (hc : c = .stopRecvThread ∨ c = .destroy)
    (h : s.step c = some s') :
    (s.created s.deviceType = true ∧ s.Closes ∧
      ∃ ending, (ending = none ∨ ending = some .destroyed) ∧
        s' = { s with joinable := false, reads := none, started := false, ending := ending }) ∨
    (s.created s.deviceType = true ∧ ¬ s.Closes ∧
      s' = { s with started := false, ending := some .stopHangs }) ∨
    (s.created s.deviceType = false ∧ s' = { s with ending := some .nullDereferenced }) := by
  have hnone := ending_of_step h
  unfold step at h
  rw [hnone] at h
  cases hcreated : s.created s.deviceType with
  | true =>
      by_cases hcloses : s.Closes
      · refine Or.inl ⟨rfl, hcloses, ?_⟩
        obtain rfl | rfl := hc
        · exact ⟨none, Or.inl rfl, by
            simpa [stopRecvThread, hcreated, hcloses, hnone] using h.symm⟩
        · exact ⟨some .destroyed, Or.inr rfl, by
            simpa [stopRecvThread, hcreated, hcloses, hnone] using h.symm⟩
      · refine Or.inr (Or.inl ⟨rfl, hcloses, ?_⟩)
        obtain rfl | rfl := hc
        · simpa [stopRecvThread, hcreated, hcloses] using h.symm
        · simpa [stopRecvThread, hcreated, hcloses] using h.symm
  | false =>
      refine Or.inr (Or.inr ⟨rfl, ?_⟩)
      obtain rfl | rfl := hc
      · simpa [stopRecvThread, hcreated] using h.symm
      · simpa [stopRecvThread, hcreated] using h.symm

/-- What a call must not meet for the life cycle to stay sound: a failing of the connecting, a port
of the device type that was not created, or a thread that reads the other port. -/
def Allowed (s : LifeCycle) : LifeCall → Prop
  | .startRecvThread _ outcome => outcome ≠ .opened .failed
  | .stopRecvThread | .destroy => s.created s.deviceType = true ∧ s.Closes
  | .readFails => True

/-- A thread that reads has not been joined. -/
def Reading (s : LifeCycle) : Prop := s.reads.isSome = true → s.joinable = true

theorem Reading.step {c : LifeCall} (hs : s.Reading) (h : s.step c = some s') : s'.Reading := by
  have hstop : c = .stopRecvThread ∨ c = .destroy → s'.Reading := by
    intro hc
    obtain ⟨-, -, ending, -, rfl⟩ | ⟨-, -, rfl⟩ | ⟨-, rfl⟩ := stop_cases hc h
    · exact nofun
    · exact hs
    · exact hs
  cases c with
  | stopRecvThread => exact hstop (Or.inl rfl)
  | destroy => exact hstop (Or.inr rfl)
  | readFails =>
      obtain ⟨-, rfl⟩ := step_readFails h
      exact nofun
  | startRecvThread type outcome =>
      obtain ⟨-, -, rfl⟩ | ⟨-, -, rfl⟩ | ⟨-, -, rfl⟩ | ⟨-, -, ending, -, rfl⟩ | ⟨-, -, rfl⟩ :=
        startRecvThread_cases (step_startRecvThread h)
      · exact hs
      · exact hs
      · exact fun _ => afterOpening_joinable
      · exact fun _ => afterOpening_joinable
      · exact fun _ => afterOpening_joinable

theorem sound_construct (uninitialised : ReaderSettingsType) : (construct uninitialised).Sound :=
  ⟨by simp [construct], fun _ => rfl, rfl⟩

theorem sound_start_iff {outcome : StartOutcome} (hs : s.Sound) (hnone : s.ending = none)
    (h : s.startRecvThread type outcome = some s') :
    s'.Sound ↔ outcome ≠ .opened .failed := by
  have hactive : s.joinable = s.started := hs.active (Or.inl hnone)
  have hretried := hs.retried
  obtain ⟨rfl, hj, rfl⟩ | ⟨rfl, hj, rfl⟩ | ⟨rfl, hj, rfl⟩ | ⟨rfl, hj, ending, hending, rfl⟩ |
    ⟨rfl, hj, rfl⟩ := startRecvThread_cases h
  · have hstarted : s.started = true := hactive.symm.trans hj
    refine iff_of_true ⟨by simp [hnone], fun _ => hactive, ?_⟩ (by simp)
    simp [hretried, hstarted]
  · exact iff_of_true ⟨by simp [hnone], fun _ => hactive, hretried⟩ (by simp)
  · refine iff_of_true ⟨by simp [hnone], fun _ => ?_, by simpa using hretried⟩ (by simp)
    simp [isActive]
  · refine iff_of_false (fun hsound => ?_) (by simp)
    have halive : Alive { s.afterOpening type .failed with ending := ending } := by
      obtain hsame | hhangs := hending
      · exact Or.inl (hsame.trans hnone)
      · exact Or.inr (Or.inl hhangs)
    have hopen := hsound.active halive
    have hstarted : s.started = false := hactive.symm.trans hj
    simp [isActive, hstarted] at hopen
  · exact iff_of_true ⟨by simp, fun hopen => by simp [Alive] at hopen, by simpa using hretried⟩
      (by simp)

/-- A call keeps the life cycle sound exactly when it is allowed. -/
theorem sound_step_iff {c : LifeCall} (hread : s.Reading) (hs : s.Sound)
    (h : s.step c = some s') : s'.Sound ↔ s.Allowed c := by
  have hnone := ending_of_step h
  have hstop : c = .stopRecvThread ∨ c = .destroy →
      (s'.Sound ↔ s.created s.deviceType = true ∧ s.Closes) := by
    intro hc
    obtain ⟨hcreated, hcloses, ending, hending, rfl⟩ | ⟨hcreated, hother, rfl⟩ | ⟨hnull, rfl⟩ :=
      stop_cases hc h
    · refine iff_of_true ⟨?_, fun _ => rfl, hs.retried⟩ ⟨hcreated, hcloses⟩
      obtain rfl | rfl := hending
      · exact nofun
      · exact nofun
    · refine iff_of_false (fun hsound => ?_) fun hboth => hother hboth.2
      -- The thread that is joined still reads, and is active after its stop.
      have hreads : s.reads.isSome = true :=
        Option.isSome_iff_ne_none.mpr fun hnone => hother (Or.inl hnone)
      have hactive : s.joinable = false := hsound.active (Or.inr (Or.inr rfl))
      rw [hread hreads] at hactive
      exact absurd hactive (by decide)
    · exact iff_of_false (fun hsound => hsound.pointers rfl) (by simp [hnull])
  cases c with
  | startRecvThread type outcome => exact sound_start_iff hs hnone (step_startRecvThread h)
  | stopRecvThread => exact hstop (Or.inl rfl)
  | destroy => exact hstop (Or.inr rfl)
  | readFails =>
      obtain ⟨-, rfl⟩ := step_readFails h
      exact iff_of_true ⟨hs.pointers, hs.active, hs.retried⟩ trivial

end LifeCycle

/-- The device type that a start sets. -/
def LifeCall.startType : LifeCall → Option ReaderSettingsType
  | .startRecvThread type _ => some type
  | _ => none

/-- The device type of the latest start, rejected or not. -/
def latestType (calls : List LifeCall) : Option ReaderSettingsType :=
  (calls.filterMap LifeCall.startType).getLast?

/-- The port that the receive thread reads behind a call. -/
def LifeCall.reads (port : Option ReaderSettingsType) : LifeCall → Option ReaderSettingsType
  | .startRecvThread type (.opened opening) => LifeCycle.readsAfter type opening
  | .startRecvThread _ _ => port
  | .stopRecvThread | .destroy | .readFails => none

/-- The port of the latest connecting, if no stop and no loss of the connection has followed. -/
def readPort (calls : List LifeCall) : Option ReaderSettingsType :=
  calls.foldl LifeCall.reads none

/-- No connecting fails; before every stop and the destruction there was a start, one with the
device type of the latest has connected, and no port of another type is read. -/
structure Orderly (calls : List LifeCall) : Prop where
  connects : ∀ type, .startRecvThread type (.opened .failed) ∉ calls
  stops : ∀ pre c post, calls = pre ++ c :: post → c = .stopRecvThread ∨ c = .destroy →
    ∃ type, latestType pre = some type ∧ .startRecvThread type (.opened .connected) ∈ pre ∧
      (readPort pre = none ∨ readPort pre = some type)

namespace LifeCycle

/-- What the state tells of the calls made. -/
structure Remembers (calls : List LifeCall) (s : LifeCycle) : Prop where
  deviceType : ∀ type, latestType calls = some type → s.deviceType = type
  created : ∀ type, s.created type = true ↔
    ∃ opening, .startRecvThread type (.opened opening) ∈ calls
  throws : s.ending = none → ∀ type, .startRecvThread type (.opened .throws) ∉ calls
  reads : s.ending = none → s.reads = readPort calls

variable {s s' : LifeCycle} {calls : List LifeCall}

theorem latestType_start (type : ReaderSettingsType) (outcome : StartOutcome) :
    latestType (calls ++ [.startRecvThread type outcome]) = some type := by
  simp [latestType, LifeCall.startType]

theorem latestType_of_startType {c : LifeCall} (hc : c.startType = none) :
    latestType (calls ++ [c]) = latestType calls := by
  simp [latestType, hc]

theorem readPort_snoc (calls : List LifeCall) (c : LifeCall) :
    readPort (calls ++ [c]) = c.reads (readPort calls) := by
  simp [readPort]

theorem exists_latestType {type : ReaderSettingsType} {outcome : StartOutcome}
    (h : .startRecvThread type outcome ∈ calls) : ∃ t, latestType calls = some t := by
  have hmem : type ∈ calls.filterMap LifeCall.startType := List.mem_filterMap.mpr ⟨_, h, rfl⟩
  exact Option.isSome_iff_exists.mp (List.getLast?_isSome.mpr (List.ne_nil_of_mem hmem))

theorem remembers_construct (uninitialised : ReaderSettingsType) :
    Remembers [] (construct uninitialised) where
  deviceType := fun type h => absurd h (by simp [latestType])
  created := fun type => by cases type <;> simp [construct, LifeCycle.created]
  throws := fun _ type h => absurd h List.not_mem_nil
  reads := fun _ => rfl

/-- A start that opens no port. -/
theorem Remembers.start_unopened (h : Remembers calls s) {type : ReaderSettingsType}
    {outcome : StartOutcome} (hunopened : ∀ opening, outcome ≠ .opened opening)
    (hdevice : s'.deviceType = type) (hcreated : ∀ t, s'.created t = s.created t)
    (hreads : s'.reads = s.reads) (hending : s'.ending = none → s.ending = none) :
    Remembers (calls ++ [.startRecvThread type outcome]) s' where
  deviceType := fun t ht => by
    rw [latestType_start] at ht
    exact hdevice.trans (Option.some.inj ht)
  created := fun t => by
    have hne : ∀ opening, ¬ .opened opening = outcome := fun opening heq =>
      hunopened opening heq.symm
    simp [hcreated, h.created, hne]
  throws := fun hnone t hmem => by
    have hne : ¬ .opened .throws = outcome := fun heq => hunopened .throws heq.symm
    exact h.throws (hending hnone) t (by simpa [hne] using hmem)
  reads := fun hnone => by
    have hsame : LifeCall.reads (readPort calls) (.startRecvThread type outcome) =
        readPort calls := by
      cases outcome with
      | opened opening => exact absurd rfl (hunopened opening)
      | _ => rfl
    rw [readPort_snoc, hsame, hreads]
    exact h.reads (hending hnone)

/-- A start that opens a port. -/
theorem Remembers.start_opened (h : Remembers calls s) {type : ReaderSettingsType}
    {opening : Opening} (hdevice : s'.deviceType = type)
    (hcreated : ∀ t, s'.created t = (s.created t || decide (t = type)))
    (hreads : s'.reads = readsAfter type opening)
    (hending : s'.ending = none → s.ending = none ∧ opening ≠ .throws) :
    Remembers (calls ++ [.startRecvThread type (.opened opening)]) s' where
  deviceType := fun t ht => by
    rw [latestType_start] at ht
    exact hdevice.trans (Option.some.inj ht)
  created := fun t => by
    simp [hcreated, h.created, exists_or]
  throws := fun hnone t hmem => by
    obtain ⟨hnone', hthrows⟩ := hending hnone
    have hne : ¬ .throws = opening := fun heq => hthrows heq.symm
    exact h.throws hnone' t (by simpa [hne] using hmem)
  reads := fun _ => by
    rw [readPort_snoc, hreads]
    rfl

/-- A stop, the destruction, or the loss of the connection. -/
theorem Remembers.unstarted (h : Remembers calls s) {c : LifeCall} (hc : c.startType = none)
    (hdevice : s'.deviceType = s.deviceType) (hcreated : ∀ t, s'.created t = s.created t)
    (hreads : s'.ending = none → s'.reads = none) (hnone : s.ending = none) :
    Remembers (calls ++ [c]) s' where
  deviceType := fun t ht => by
    rw [latestType_of_startType hc] at ht
    exact hdevice.trans (h.deviceType t ht)
  created := fun t => by
    rw [hcreated, h.created]
    cases c with
    | startRecvThread type outcome => exact absurd hc (by simp [LifeCall.startType])
    | _ => simp
  throws := fun _ t hmem => by
    refine h.throws hnone t ?_
    cases c with
    | startRecvThread type outcome => exact absurd hc (by simp [LifeCall.startType])
    | _ => simpa using hmem
  reads := fun hnone' => by
    rw [readPort_snoc, hreads hnone']
    cases c with
    | startRecvThread type outcome => exact absurd hc (by simp [LifeCall.startType])
    | _ => rfl

theorem remembers_step {c : LifeCall} (h : Remembers calls s) (hstep : s.step c = some s') :
    Remembers (calls ++ [c]) s' := by
  have hnone := ending_of_step hstep
  have hstop : c = .stopRecvThread ∨ c = .destroy → Remembers (calls ++ [c]) s' := by
    intro hc
    have hstart : c.startType = none := by
      obtain rfl | rfl := hc
      · rfl
      · rfl
    obtain ⟨-, -, ending, -, rfl⟩ | ⟨-, -, rfl⟩ | ⟨-, rfl⟩ := stop_cases hc hstep
    · exact h.unstarted hstart rfl (fun t => by cases t <;> rfl) (fun _ => rfl) hnone
    · exact h.unstarted hstart rfl (fun t => by cases t <;> rfl) nofun hnone
    · exact h.unstarted hstart rfl (fun t => by cases t <;> rfl) nofun hnone
  cases c with
  | stopRecvThread => exact hstop (Or.inl rfl)
  | destroy => exact hstop (Or.inr rfl)
  | readFails =>
      obtain ⟨-, rfl⟩ := step_readFails hstep
      exact h.unstarted rfl rfl (fun t => by cases t <;> rfl) (fun _ => rfl) hnone
  | startRecvThread type outcome =>
      obtain ⟨rfl, hj, rfl⟩ | ⟨rfl, hj, rfl⟩ | ⟨rfl, hj, rfl⟩ | ⟨rfl, hj, ending, hending, rfl⟩ |
        ⟨rfl, hj, rfl⟩ := startRecvThread_cases (step_startRecvThread hstep)
      · exact h.start_unopened (by simp) rfl (fun t => by cases t <;> rfl) rfl fun _ => hnone
      · exact h.start_unopened (by simp) rfl (fun t => by cases t <;> rfl) rfl fun _ => hnone
      · exact h.start_opened afterOpening_deviceType (fun t => afterOpening_created)
          afterOpening_reads fun _ => ⟨hnone, by simp⟩
      · exact h.start_opened afterOpening_deviceType (fun t => afterOpening_created)
          afterOpening_reads fun _ => ⟨hnone, by simp⟩
      · exact h.start_opened afterOpening_deviceType (fun t => afterOpening_created)
          afterOpening_reads fun hopen => absurd hopen (by simp)

theorem remembers_run {uninitialised : ReaderSettingsType}
    (hrun : exec step (construct uninitialised) calls = some s) : Remembers calls s :=
  exec_history (M := Remembers) (remembers_construct uninitialised)
    (fun _ _ _ _ _ h hstep => remembers_step h hstep) hrun

/-- The calls of a run are allowed one by one exactly when they are orderly. -/
theorem along_allowed_iff {uninitialised : ReaderSettingsType}
    (hrun : exec step (construct uninitialised) calls = some s) :
    Along step Allowed (construct uninitialised) calls ↔ Orderly calls := by
  -- Every call of the run is made in a state, which remembers the calls before it.
  have hat : ∀ pre c post, calls = pre ++ c :: post →
      ∃ u, exec step (construct uninitialised) pre = some u ∧ u.ending = none := by
    intro pre c post hsplit
    rw [hsplit] at hrun
    obtain ⟨u, hu, hrest⟩ := (exec_append_eq_some step).mp hrun
    obtain ⟨u', hu', -⟩ := (exec_cons_eq_some step).mp hrest
    exact ⟨u, hu, ending_of_step hu'⟩
  rw [along_iff_split]
  constructor
  · intro hallowed
    have hconnects : ∀ type, .startRecvThread type (.opened .failed) ∉ calls := by
      intro type hmem
      obtain ⟨pre, post, hsplit⟩ := List.append_of_mem hmem
      obtain ⟨u, hu, -⟩ := hat pre _ post hsplit
      exact hallowed pre _ post u hsplit hu rfl
    refine ⟨hconnects, fun pre c post hsplit hc => ?_⟩
    obtain ⟨u, hu, hnone⟩ := hat pre c post hsplit
    have hmem := remembers_run hu
    have hstop : u.created u.deviceType = true ∧ u.Closes := by
      have hallow := hallowed pre c post u hsplit hu
      obtain rfl | rfl := hc
      · exact hallow
      · exact hallow
    obtain ⟨hcreated, hcloses⟩ := hstop
    obtain ⟨opening, hopened⟩ := (hmem.created u.deviceType).mp hcreated
    obtain ⟨type, hlatest⟩ := exists_latestType hopened
    have hdevice := hmem.deviceType type hlatest
    rw [Closes, hmem.reads hnone, hdevice] at hcloses
    refine ⟨type, hlatest, ?_, hcloses⟩
    cases opening with
    | connected => exact hdevice ▸ hopened
    | failed =>
        have hfailed : .startRecvThread u.deviceType (.opened .failed) ∈ calls := by
          rw [hsplit]
          exact List.mem_append_left _ hopened
        exact absurd hfailed (hconnects u.deviceType)
    | throws => exact absurd hopened (hmem.throws hnone u.deviceType)
  · rintro ⟨hconnects, hstops⟩ pre c post u hsplit hu
    have hmem := remembers_run hu
    have hstop : c = .stopRecvThread ∨ c = .destroy →
        u.created u.deviceType = true ∧ u.Closes := by
      intro hc
      obtain ⟨u', hu', hnone⟩ := hat pre c post hsplit
      obtain rfl := Option.some.inj (hu.symm.trans hu')
      obtain ⟨type, hlatest, hconnected, hport⟩ := hstops pre c post hsplit hc
      rw [Closes, hmem.reads hnone, hmem.deviceType type hlatest]
      exact ⟨(hmem.created type).mpr ⟨.connected, hconnected⟩, hport⟩
    cases c with
    | startRecvThread type outcome =>
        rintro rfl
        exact hconnects type (by simp [hsplit])
    | stopRecvThread => exact hstop (Or.inl rfl)
    | destroy => exact hstop (Or.inr rfl)
    | readFails => trivial

/-- The life cycle of a handler is sound exactly when no connecting fails and every stop and the
destruction follow a start that connected with the device type of the latest start, and find no
port of the other type being read. -/
theorem life_cycle_sound_iff (uninitialised : ReaderSettingsType) (calls : List LifeCall)
    (s : LifeCycle) (hrun : exec step (construct uninitialised) calls = some s) :
    Always step Sound (construct uninitialised) calls ↔ Orderly calls := by
  rw [← along_allowed_iff hrun]
  exact always_iff_along (I := Reading) (fun _ _ _ hs hstep => hs.step hstep)
    (fun _ _ _ hread hs hstep => sound_step_iff hread hs hstep) nofun (sound_construct _) hrun

/-- The calls that a reboot makes on the handler of its interface. -/
def rebootCalls : List LifeCall :=
  [.startRecvThread .socket (.opened .connected), .stopRecvThread,
    .startRecvThread .socket (.opened .connected), .destroy]

theorem life_cycle_sound_reboot :
    Always step Sound (construct .serial) rebootCalls ↔ Orderly rebootCalls :=
  life_cycle_sound_iff .serial rebootCalls _ rfl

/-- A serial port is read when a start with a socket is rejected and the socket of an earlier
connection closed. -/
def wrongPortClosed : List LifeCall :=
  [.startRecvThread .socket (.opened .connected), .stopRecvThread,
    .startRecvThread .serial (.opened .connected), .startRecvThread .socket .activatedTwice,
    .stopRecvThread]

/-- A handler that was never started dereferences null when it is destroyed, after a connection
that was refused it is active and rejects a retry, and a stop that closes the port of a rejected
start waits for the thread that reads the other one. -/
theorem unstarted_and_refused_unsound :
    ¬ Always step Sound (construct .socket) [.destroy] ∧
      ¬ Always step Sound (construct .socket)
        [.startRecvThread .socket (.opened .failed), .startRecvThread .socket .activatedTwice] ∧
      ¬ Always step Sound (construct .socket) wrongPortClosed :=
  ⟨not_always_of_exec rfl (by decide), not_always_of_exec rfl (by decide),
    not_always_of_exec rfl (by decide)⟩

end LifeCycle

end RfidEngine
