import RfidEngine.Lib.FairRun
import RfidEngine.LifeCycle

/-!
# CmdHandler: the handshake of a start

A start creates the receive thread and sleeps until the thread has set
`thread_ready`; then it looks at the error code that the thread has filled in.
The code is a variable of the start, and the thread of a socket looks at it
again after it has set the flag. An action is one step of one of the threads.

## Main result

The receive thread never ends without setting the flag, and the start comes
back under every fair schedule and reports an error, exactly for a device that
opens and for a socket whose connecting fails with an error code.
-/

namespace RfidEngine

open FairRun

/-- Where the start is. -/
inductive StarterPc where
  | entry
  | waiting
  | testing
  | returned (ret : Bool)
  deriving DecidableEq

/-- Where the receive thread is. -/
inductive ReceiverPc where
  | notCreated
  | opening
  | opened
  | signalled
  | configured
  | running
  | returned
  deriving DecidableEq

/-- The steps that the start has in front of it. -/
def StarterPc.rank : StarterPc → Nat
  | .entry => 3
  | .waiting => 2
  | .testing => 1
  | .returned _ => 0

/-- The steps that the receive thread has in front of the flag. -/
def ReceiverPc.rank : ReceiverPc → Nat
  | .notCreated | .opening => 3
  | .opened => 2
  | .configured => 1
  | .signalled | .running | .returned => 0

structure Handshake where
  starter : StarterPc
  receiver : ReceiverPc
  threadReady : Bool
  ec : Bool
  terminated : Bool
  deriving DecidableEq

/-- A step of a thread, with whether the receive thread can be created, or with what the receive
thread finds where the error code of a start that has returned was. -/
inductive HandshakeAction where
  | starter (threadCreated : Bool)
  | receiver (stale : Bool)
  | runEnds
  deriving DecidableEq

namespace Handshake

/-- The start is entered on a handler without a thread. -/
def init (threadReady : Bool) : Handshake := ⟨.entry, .notCreated, threadReady, false, false⟩

/-- The starts for sockets and serial ports, which differ in the thread only. -/
def startRecvThread (threadCreated : Bool) (s : Handshake) : Handshake :=
  match s.starter with
  | .entry =>
      if threadCreated then
        { s with starter := .waiting, receiver := .opening, threadReady := false }
      else { s with starter := .returned false, threadReady := false }
  | .waiting => if s.threadReady then { s with starter := .testing } else s
  | .testing => { s with starter := .returned (!s.ec) }
  | .returned _ => s

/-- An exception in the receive thread ends the program. -/
def terminate (s : Handshake) : Handshake := { s with terminated := true }

def replyThreadFunc (opening : Opening) (stale : Bool) (s : Handshake) : Handshake :=
  match s.receiver with
  | .opening =>
      if opening = .throws then s.terminate
      else { s with receiver := .opened, ec := opening == .failed }
  | .opened => { s with receiver := .signalled, threadReady := true }
  | .signalled =>
      let error := match s.starter with
        | .returned _ => stale
        | _ => s.ec
      { s with receiver := if error then .returned else .running }
  | _ => s

/-- The flag is set behind the options of the port, which may throw. -/
def replyThreadFuncSerial (opening : Opening) (s : Handshake) : Handshake :=
  match s.receiver with
  | .opening => { s with receiver := .opened, ec := opening == .failed }
  | .opened =>
      if s.ec then { s with receiver := .returned }
      else if opening = .throws then s.terminate
      else { s with receiver := .configured }
  | .configured => { s with receiver := .running, threadReady := true }
  | _ => s

/-- `io_service::run` comes back when the connection is closed. -/
def runEnds (s : Handshake) : Handshake :=
  match s.receiver with
  | .running => { s with receiver := .returned }
  | _ => s

/-- A thread that has no step leaves the state as it is, and so does an ended program. -/
def next (type : ReaderSettingsType) (opening : Opening) (s : Handshake)
    (action : HandshakeAction) : Handshake :=
  if s.terminated then s
  else
    match action with
    | .starter threadCreated => s.startRecvThread threadCreated
    | .receiver stale =>
        match type with
        | .socket => s.replyThreadFunc opening stale
        | .serial => s.replyThreadFuncSerial opening
    | .runEnds => s.runEnds

/-- The state of a start at an instant of a schedule. -/
def stateOf (type : ReaderSettingsType) (opening : Opening) (threadReady : Bool)
    (sched : Nat → HandshakeAction) (n : Nat) : Handshake :=
  stateAt (next type opening) sched (init threadReady) n

/-- Both threads get steps again and again. -/
def Fair (sched : Nat → HandshakeAction) : Prop :=
  ∀ n, (∃ k, n ≤ k ∧ ∃ threadCreated, sched k = .starter threadCreated) ∧
    ∃ k, n ≤ k ∧ ∃ stale, sched k = .receiver stale

/-- The receive thread never ends without the flag, a start returns under every fair schedule, and
it returns `true` exactly if the receive thread was created and has opened the device. -/
structure ComesBack (type : ReaderSettingsType) (opening : Opening) (threadReady : Bool) :
    Prop where
  signals : ∀ sched n, ¬ ((stateOf type opening threadReady sched n).receiver = .returned ∧
    (stateOf type opening threadReady sched n).threadReady = false)
  returns : ∀ sched, Fair sched →
    ∃ n ret, (stateOf type opening threadReady sched n).starter = .returned ret
  reports : ∀ sched n ret, (stateOf type opening threadReady sched n).starter = .returned ret →
    (ret = true ↔ opening = .connected ∧
      (stateOf type opening threadReady sched n).receiver ≠ .notCreated)

/-- A device that opens, or a socket whose connecting fails with an error code. -/
def Signalling (type : ReaderSettingsType) (opening : Opening) : Prop :=
  opening = .connected ∨ (type = .socket ∧ opening = .failed)

variable {type : ReaderSettingsType} {opening : Opening}

/-- The receive thread is behind the flag. -/
def Behind (receiver : ReceiverPc) : Prop :=
  receiver = .signalled ∨ receiver = .running ∨ receiver = .returned

/-- The states of a start that comes back. -/
inductive Coming (type : ReaderSettingsType) (opening : Opening) : Handshake → Prop where
  | entry (threadReady : Bool) :
      Coming type opening ⟨.entry, .notCreated, threadReady, false, false⟩
  | refused : Coming type opening ⟨.returned false, .notCreated, false, false, false⟩
  | opening : Coming type opening ⟨.waiting, .opening, false, false, false⟩
  | opened : Coming type opening ⟨.waiting, .opened, false, opening == .failed, false⟩
  | configured (serial : type = .serial) :
      Coming type opening ⟨.waiting, .configured, false, opening == .failed, false⟩
  | signalled (starter : StarterPc) (receiver : ReceiverPc)
      (hstarter : starter = .waiting ∨ starter = .testing ∨
        starter = .returned (!(opening == .failed)))
      (hreceiver : Behind receiver) :
      Coming type opening ⟨starter, receiver, true, opening == .failed, false⟩

theorem Signalling.ne_throws (h : Signalling type opening) : opening ≠ .throws := by
  rintro rfl
  obtain h | ⟨-, h⟩ := h
  · exact absurd h (by decide)
  · exact absurd h (by decide)

theorem Signalling.serial (h : Signalling type opening) (hserial : type = .serial) :
    opening = .connected := by
  obtain h | ⟨hsocket, -⟩ := h
  · exact h
  · exact absurd (hserial.symm.trans hsocket) (by decide)

/-- Behind the flag a thread goes on or ends by the error code, and changes nothing but its own
place. -/
theorem replyThreadFunc_behind {starter : StarterPc} {receiver : ReceiverPc} {ec : Bool}
    (hreceiver : Behind receiver) (stale : Bool) :
    ∃ receiver', Behind receiver' ∧
      replyThreadFunc opening stale ⟨starter, receiver, true, ec, false⟩ =
        ⟨starter, receiver', true, ec, false⟩ := by
  have hends : ∀ error : Bool, Behind (if error then .returned else .running) := by
    intro error
    cases error with
    | true => exact Or.inr (Or.inr rfl)
    | false => exact Or.inr (Or.inl rfl)
  obtain rfl | rfl | rfl := hreceiver
  · exact ⟨_, hends _, rfl⟩
  · exact ⟨_, Or.inr (Or.inl rfl), rfl⟩
  · exact ⟨_, Or.inr (Or.inr rfl), rfl⟩

theorem replyThreadFuncSerial_behind {starter : StarterPc} {receiver : ReceiverPc} {ec : Bool}
    (hreceiver : Behind receiver) :
    replyThreadFuncSerial opening ⟨starter, receiver, true, ec, false⟩ =
      ⟨starter, receiver, true, ec, false⟩ := by
  obtain rfl | rfl | rfl := hreceiver
  · rfl
  · rfl
  · rfl

theorem runEnds_behind {starter : StarterPc} {receiver : ReceiverPc} {ec : Bool}
    (hreceiver : Behind receiver) :
    ∃ receiver', Behind receiver' ∧
      runEnds ⟨starter, receiver, true, ec, false⟩ = ⟨starter, receiver', true, ec, false⟩ := by
  obtain rfl | rfl | rfl := hreceiver
  · exact ⟨_, Or.inl rfl, rfl⟩
  · exact ⟨_, Or.inr (Or.inr rfl), rfl⟩
  · exact ⟨_, Or.inr (Or.inr rfl), rfl⟩

theorem Coming.replyThreadFunc {s : Handshake} (hs : Coming .socket opening s)
    (hthrows : opening ≠ .throws) (stale : Bool) :
    Coming .socket opening (s.replyThreadFunc opening stale) := by
  cases hs with
  | entry threadReady => exact .entry threadReady
  | refused => exact .refused
  | opening =>
      have hopened : Handshake.replyThreadFunc opening stale
          ⟨.waiting, .opening, false, false, false⟩ =
            ⟨.waiting, .opened, false, opening == .failed, false⟩ := if_neg hthrows
      rw [hopened]
      exact .opened
  | opened => exact .signalled _ _ (Or.inl rfl) (Or.inl rfl)
  | configured serial => exact absurd serial (by decide)
  | signalled starter receiver hstarter hreceiver =>
      obtain ⟨receiver', hreceiver', heq⟩ := replyThreadFunc_behind hreceiver stale
      rw [heq]
      exact .signalled _ _ hstarter hreceiver'

theorem Coming.replyThreadFuncSerial {s : Handshake} (hs : Coming .serial .connected s) :
    Coming .serial .connected (s.replyThreadFuncSerial .connected) := by
  cases hs with
  | entry threadReady => exact .entry threadReady
  | refused => exact .refused
  | opening => exact .opened
  | opened => exact .configured rfl
  | configured serial => exact .signalled _ _ (Or.inl rfl) (Or.inr (Or.inl rfl))
  | signalled starter receiver hstarter hreceiver =>
      rw [replyThreadFuncSerial_behind hreceiver]
      exact .signalled _ _ hstarter hreceiver

theorem Coming.startRecvThread {s : Handshake} (hs : Coming type opening s)
    (threadCreated : Bool) : Coming type opening (s.startRecvThread threadCreated) := by
  cases hs with
  | entry threadReady =>
      cases threadCreated with
      | true => exact .opening
      | false => exact .refused
  | refused => exact .refused
  | opening => exact .opening
  | opened => exact .opened
  | configured serial => exact .configured serial
  | signalled starter receiver hstarter hreceiver =>
      obtain rfl | rfl | rfl := hstarter
      · exact .signalled _ _ (Or.inr (Or.inl rfl)) hreceiver
      · exact .signalled _ _ (Or.inr (Or.inr rfl)) hreceiver
      · exact .signalled _ _ (Or.inr (Or.inr rfl)) hreceiver

theorem Coming.runEnds {s : Handshake} (hs : Coming type opening s) :
    Coming type opening s.runEnds := by
  cases hs with
  | entry threadReady => exact .entry threadReady
  | refused => exact .refused
  | opening => exact .opening
  | opened => exact .opened
  | configured serial => exact .configured serial
  | signalled starter receiver hstarter hreceiver =>
      obtain ⟨receiver', hreceiver', heq⟩ := runEnds_behind hreceiver
      rw [heq]
      exact .signalled _ _ hstarter hreceiver'

theorem Coming.not_terminated {s : Handshake} (hs : Coming type opening s) :
    s.terminated = false := by
  cases hs <;> rfl

/-- Every step of such a start leads to a state of such a start. -/
theorem Coming.next (h : Signalling type opening) {s : Handshake} (hs : Coming type opening s)
    (action : HandshakeAction) : Coming type opening (s.next type opening action) := by
  unfold Handshake.next
  rw [if_neg (by simp [hs.not_terminated])]
  cases action with
  | starter threadCreated => exact hs.startRecvThread threadCreated
  | runEnds => exact hs.runEnds
  | receiver stale =>
      cases type with
      | socket => exact hs.replyThreadFunc h.ne_throws stale
      | serial =>
          obtain rfl := h.serial rfl
          exact hs.replyThreadFuncSerial

theorem Coming.stateOf (h : Signalling type opening) (threadReady : Bool)
    (sched : Nat → HandshakeAction) (n : Nat) :
    Coming type opening (stateOf type opening threadReady sched n) :=
  stateAt_invariant (fun n _ hs => hs.next h (sched n)) (.entry threadReady) n

def rank (s : Handshake) : Nat := s.starter.rank + s.receiver.rank

/-- The start waits for the receive thread. -/
def Waits (s : Handshake) : Prop := s.starter = .waiting ∧ s.threadReady = false

/-- A step of the thread whose turn it is. -/
def Helpful (s : Handshake) : HandshakeAction → Prop
  | .starter _ => ¬ s.Waits
  | .receiver _ => s.Waits
  | .runEnds => False

/-- A start has returned. -/
def Returned (s : Handshake) : Prop := ∃ ret, s.starter = .returned ret

/-- A fair schedule comes back to the thread whose turn it is. -/
theorem Fair.helpful {sched : Nat → HandshakeAction} (hfair : Fair sched) (s : Handshake)
    (n : Nat) : ∃ k, n ≤ k ∧ s.Helpful (sched k) := by
  obtain ⟨⟨k, hk, threadCreated, hstarter⟩, ⟨l, hl, stale, hreceiver⟩⟩ := hfair n
  by_cases hwaits : s.Waits
  · refine ⟨l, hl, ?_⟩
    rw [hreceiver]
    exact hwaits
  · refine ⟨k, hk, ?_⟩
    rw [hstarter]
    exact hwaits

/-- Behind the flag only the start changes what counts for its return. -/
theorem next_behind {starter : StarterPc} {receiver : ReceiverPc} {ec : Bool}
    (hreceiver : Behind receiver) {action : HandshakeAction}
    (haction : ∀ threadCreated, action ≠ .starter threadCreated) :
    ∃ receiver', Behind receiver' ∧
      next type opening ⟨starter, receiver, true, ec, false⟩ action =
        ⟨starter, receiver', true, ec, false⟩ := by
  cases action with
  | starter threadCreated => exact absurd rfl (haction threadCreated)
  | runEnds => exact runEnds_behind hreceiver
  | receiver stale =>
      cases type with
      | socket => exact replyThreadFunc_behind hreceiver stale
      | serial => exact ⟨receiver, hreceiver, replyThreadFuncSerial_behind hreceiver⟩

theorem Behind.rank_eq {receiver : ReceiverPc} (h : Behind receiver) : receiver.rank = 0 := by
  obtain rfl | rfl | rfl := h
  · rfl
  · rfl
  · rfl

/-- A step of the thread whose turn it is brings the return closer, and a step of the other thread
does not put it off. -/
def Progresses (s s' : Handshake) (action : HandshakeAction) : Prop :=
  s'.Returned ∨ s'.rank < s.rank ∨
    (¬ s.Helpful action ∧ s'.rank ≤ s.rank ∧ ∀ b, s.Helpful b → s'.Helpful b)

theorem progresses_self {s : Handshake} {action : HandshakeAction} (h : ¬ s.Helpful action) :
    Progresses s s action :=
  Or.inr (Or.inr ⟨h, le_rfl, fun _ hb => hb⟩)

theorem progresses_of_rank {s s' : Handshake} {action : HandshakeAction} (h : s'.rank < s.rank) :
    Progresses s s' action := Or.inr (Or.inl h)

/-- Behind the flag it is the turn of the start, which no other step takes. -/
theorem progresses_behind {starter : StarterPc} {receiver : ReceiverPc} {ec : Bool}
    (hreceiver : Behind receiver) {action : HandshakeAction}
    (haction : ∀ threadCreated, action ≠ .starter threadCreated) :
    Progresses ⟨starter, receiver, true, ec, false⟩
      (next type opening ⟨starter, receiver, true, ec, false⟩ action) action := by
  have hnot : ∀ receiver, ¬ Waits ⟨starter, receiver, true, ec, false⟩ :=
    fun _ hwaits => absurd hwaits.2.symm Bool.false_ne_true
  obtain ⟨receiver', hreceiver', heq⟩ := next_behind hreceiver haction
  rw [heq]
  refine Or.inr (Or.inr ⟨?_, ?_, ?_⟩)
  · cases action with
    | starter threadCreated => exact absurd rfl (haction threadCreated)
    | receiver stale => exact hnot _
    | runEnds => exact id
  · simp only [rank, hreceiver.rank_eq, hreceiver'.rank_eq, le_refl]
  · intro b hb
    cases b with
    | starter threadCreated => exact hnot _
    | receiver stale => exact absurd hb (hnot _)
    | runEnds => exact hb

theorem Coming.progresses (h : Signalling type opening) {s : Handshake}
    (hs : Coming type opening s) (action : HandshakeAction) (hreturned : ¬ s.Returned) :
    Progresses s (s.next type opening action) action := by
  have hthrows := h.ne_throws
  cases hs with
  | entry threadReady =>
      cases action with
      | starter threadCreated =>
          cases threadCreated with
          | true => exact progresses_of_rank (Nat.lt_succ_self 5)
          | false => exact Or.inl ⟨false, rfl⟩
      | receiver stale =>
          have hne : StarterPc.entry ≠ .waiting := by decide
          have hnot : ¬ Waits ⟨.entry, .notCreated, threadReady, false, false⟩ :=
            fun hwaits => hne hwaits.1
          cases type with
          | socket => exact progresses_self hnot
          | serial => exact progresses_self hnot
      | runEnds => exact progresses_self id
  | refused => exact absurd ⟨false, rfl⟩ hreturned
  | opening =>
      cases action with
      | starter threadCreated => exact progresses_self fun h => h ⟨rfl, rfl⟩
      | runEnds => exact progresses_self id
      | receiver stale =>
          cases type with
          | socket =>
              have hopened : Handshake.next .socket opening
                  ⟨.waiting, .opening, false, false, false⟩ (.receiver stale) =
                    ⟨.waiting, .opened, false, opening == .failed, false⟩ := if_neg hthrows
              rw [hopened]
              exact progresses_of_rank (Nat.lt_succ_self 4)
          | serial => exact progresses_of_rank (Nat.lt_succ_self 4)
  | opened =>
      cases action with
      | starter threadCreated => exact progresses_self fun h => h ⟨rfl, rfl⟩
      | runEnds => exact progresses_self id
      | receiver stale =>
          cases type with
          | socket => exact progresses_of_rank (by omega : 2 < 4)
          | serial =>
              obtain rfl := h.serial rfl
              exact progresses_of_rank (Nat.lt_succ_self 3)
  | configured serial =>
      subst serial
      cases action with
      | starter threadCreated => exact progresses_self fun h => h ⟨rfl, rfl⟩
      | runEnds => exact progresses_self id
      | receiver stale => exact progresses_of_rank (Nat.lt_succ_self 2)
  | signalled starter receiver hstarter hreceiver =>
      cases action with
      | receiver stale => exact progresses_behind hreceiver fun _ heq => by cases heq
      | runEnds => exact progresses_behind hreceiver fun _ heq => by cases heq
      | starter threadCreated =>
          obtain rfl | rfl | rfl := hstarter
          · exact progresses_of_rank (Nat.add_lt_add_right (Nat.lt_succ_self 1) _)
          · exact Or.inl ⟨_, rfl⟩
          · exact absurd ⟨_, rfl⟩ hreturned

/-- A device that opens, or a socket whose connecting fails, lets the start come back. -/
theorem comesBack_of_signalling (h : Signalling type opening) (threadReady : Bool) :
    ComesBack type opening threadReady where
  signals := by
    intro sched n hended
    have hcoming := Coming.stateOf h threadReady sched n
    revert hended
    generalize stateOf type opening threadReady sched n = s at hcoming
    rintro ⟨hreturned, hready⟩
    cases hcoming with
    | signalled starter receiver hstarter hreceiver =>
        exact absurd hready.symm Bool.false_ne_true
    | _ => exact absurd hreturned (by simp)
  returns := by
    intro sched hfair
    obtain ⟨n, -, hreturned⟩ := eventually_of_rank Returned (I := Coming type opening)
      (fun s action hs => hs.next h action)
      (fun s action hs hreturned => hs.progresses h action hreturned)
      (fun s n => hfair.helpful s n) (.entry threadReady) 0
    exact ⟨n, hreturned⟩
  reports := by
    intro sched n ret hret
    have hcoming := Coming.stateOf h threadReady sched n
    generalize stateOf type opening threadReady sched n = s at hcoming hret
    cases hcoming with
    | refused =>
        obtain rfl : false = ret := StarterPc.returned.inj hret
        exact iff_of_false Bool.false_ne_true fun hopened => hopened.2 rfl
    | signalled starter receiver hstarter hreceiver =>
        have hcreated : receiver ≠ .notCreated := by
          rintro rfl
          obtain h | h | h := hreceiver <;> exact absurd h (by decide)
        obtain rfl | rfl | rfl := hstarter
        · exact absurd hret (by simp)
        · exact absurd hret (by simp)
        · obtain rfl : (!(opening == .failed)) = ret := StarterPc.returned.inj hret
          rw [and_iff_left hcreated]
          have hthrows := h.ne_throws
          cases opening with
          | connected => exact iff_of_true rfl rfl
          | failed => exact iff_of_false Bool.false_ne_true (by decide)
          | throws => exact absurd rfl hthrows
    | _ => exact absurd hret (by simp)

/-- The steps of the threads in turn. -/
def inTurn (n : Nat) : HandshakeAction :=
  if n % 2 = 0 then .starter true else .receiver false

theorem fair_inTurn : Fair inTurn := by
  intro n
  refine ⟨⟨2 * n, by omega, true, ?_⟩, ⟨2 * n + 1, by omega, false, ?_⟩⟩
  · rw [inTurn, if_pos (by omega)]
  · rw [inTurn, if_neg (by omega)]

/-- A serial port that cannot be opened ends the receive thread before it sets the flag. -/
theorem serial_failed_ends (threadReady : Bool) :
    stateOf .serial .failed threadReady inTurn 4 = ⟨.waiting, .returned, false, true, false⟩ := rfl

theorem not_comesBack_serial_failed (threadReady : Bool) :
    ¬ ComesBack .serial .failed threadReady := by
  intro h
  apply h.signals inTurn 4
  rw [serial_failed_ends]
  exact ⟨rfl, rfl⟩

/-- The states of a start whose receive thread throws an exception. -/
inductive Throwing (type : ReaderSettingsType) : Handshake → Prop where
  | entry (threadReady : Bool) : Throwing type ⟨.entry, .notCreated, threadReady, false, false⟩
  | opening (terminated : Bool) : Throwing type ⟨.waiting, .opening, false, false, terminated⟩
  | opened (serial : type = .serial) (terminated : Bool) :
      Throwing type ⟨.waiting, .opened, false, false, terminated⟩

theorem Throwing.next {s : Handshake} (hs : Throwing type s) (n : Nat) :
    Throwing type (s.next type .throws (inTurn n)) := by
  have hturn : inTurn n = .starter true ∨ inTurn n = .receiver false := by
    unfold inTurn
    split
    · exact Or.inl rfl
    · exact Or.inr rfl
  obtain hstarter | hreceiver := hturn
  · rw [hstarter]
    cases hs with
    | entry threadReady => exact .opening false
    | opening terminated => cases terminated <;> exact .opening _
    | opened serial terminated => cases terminated <;> exact .opened serial _
  · rw [hreceiver]
    cases type with
    | socket =>
        cases hs with
        | entry threadReady => exact .entry threadReady
        | opening terminated => cases terminated <;> exact .opening true
        | opened serial terminated => exact absurd serial (by decide)
    | serial =>
        cases hs with
        | entry threadReady => exact .entry threadReady
        | opening terminated =>
            cases terminated with
            | true => exact .opening true
            | false => exact .opened rfl false
        | opened serial terminated => cases terminated <;> exact .opened rfl true

theorem not_comesBack_throws (type : ReaderSettingsType) (threadReady : Bool) :
    ¬ ComesBack type .throws threadReady := by
  intro h
  obtain ⟨n, ret, hret⟩ := h.returns inTurn fair_inTurn
  have hthrowing : Throwing type (stateOf type .throws threadReady inTurn n) :=
    stateAt_invariant (fun n _ hs => hs.next n) (.entry threadReady) n
  generalize stateOf type .throws threadReady inTurn n = s at hthrowing hret
  cases hthrowing <;> exact absurd hret (by simp)

theorem comesBack_iff_signalling (type : ReaderSettingsType) (opening : Opening)
    (threadReady : Bool) : ComesBack type opening threadReady ↔ Signalling type opening := by
  constructor
  · intro h
    cases opening with
    | connected => exact Or.inl rfl
    | throws => exact absurd h (not_comesBack_throws type threadReady)
    | failed =>
        cases type with
        | socket => exact Or.inr ⟨rfl, rfl⟩
        | serial => exact absurd h (not_comesBack_serial_failed threadReady)
  · exact fun h => comesBack_of_signalling h threadReady

/-- A start of the life cycle leaves its handler to further calls exactly where the handshake
comes back. -/
theorem ending_of_startRecvThread {s s' : LifeCycle} (hnone : s.ending = none)
    (h : s.startRecvThread type (.opened opening) = some s') (threadReady : Bool) :
    s'.ending = none ↔ ComesBack type opening threadReady := by
  rw [comesBack_iff_signalling]
  cases type with
  | socket =>
      change LifeCycle.startThread LifeCycle.replyThreadFunc { s with deviceType := .socket }
        (.opened opening) = some s' at h
      obtain rfl := LifeCycle.startThread_opened h
      cases opening <;>
        simp [LifeCycle.replyThreadFunc, LifeCycle.awaitThread, Signalling, hnone]
  | serial =>
      change LifeCycle.startThread LifeCycle.replyThreadFuncSerial { s with deviceType := .serial }
        (.opened opening) = some s' at h
      obtain rfl := LifeCycle.startThread_opened h
      cases opening <;>
        simp [LifeCycle.replyThreadFuncSerial, LifeCycle.awaitThread, Signalling, hnone]

/-- A start comes back exactly for a device that opens and for a socket whose connecting fails with
an error code, whatever the flag was before. -/
theorem start_comesBack_iff (type : ReaderSettingsType) (opening : Opening)
    (threadReady : Bool) :
    ComesBack type opening threadReady ↔
      opening = .connected ∨ (type = .socket ∧ opening = .failed) :=
  comesBack_iff_signalling type opening threadReady

/-- A serial port that cannot be opened: the receive thread has returned, the flag is not set and
the start waits. -/
theorem serial_failed_hangs :
    stateOf .serial .failed false inTurn 4 = ⟨.waiting, .returned, false, true, false⟩ ∧
      ¬ ∀ (type : ReaderSettingsType) (opening : Opening) (threadReady : Bool),
        ComesBack type opening threadReady :=
  ⟨rfl, fun hall => not_comesBack_serial_failed false (hall .serial .failed false)⟩

end Handshake

end RfidEngine
