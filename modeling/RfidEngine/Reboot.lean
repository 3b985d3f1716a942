import RfidEngine.AsyncSend.Model
import RfidEngine.LifeCycle
import RfidEngine.Lib.FairRun

/-!
# Reboot

`RebootHelpThread` closes the connection of the interface, opens a second one to
the boot port, sends two commands there, the first by `ConnQueue::send`, and
restarts the interface. `send` waits for a packet without a timeout, and
`Reboot` joins the thread.

## Main result

The two connections are never open together. A reboot returns exactly if a
packet or a spurious wake-up comes in the wait and the boot port connects and
takes both commands; where it does not, the process is aborted.
-/

namespace RfidEngine.Reboot

open StepSystem FairRun AsyncSend

def rfidErrCmdDeviceNotSupport : Int := rfidLibScope + 0x12

/-- `{ 0x02, 0x4c, 0x0d }` -/
def bootCmd1 : Str := ['\x02', 'L', '\r']

/-- `{ 0x02, 0x45, 0x0d }` -/
def bootCmd2 : Str := ['\x02', 'E', '\r']

/-- Where the helper thread is. -/
inductive Place where
  | stopping
  | starting
  | attaching
  | sending
  | sent (result : Int)
  | waiting
  | woken
  | leaving
  | sendingOn
  | closing
  | restarting
  | destroying
  | finished
  deriving DecidableEq

/-- The interface, the helper thread with its own connection, and the thread in `Reboot`. -/
structure Rebooting where
  connQueue : LifeCycle
  bootConnQueue : LifeCycle
  place : Place
  /-- An exception has left the helper thread. -/
  terminated : Bool
  countDown : Nat
  result : Option Int
  /-- The commands sent to the boot port. -/
  sent : List Str
  /-- The packets that `SendSyncObserver` was updated with. -/
  observed : List PacketContent
  deriving DecidableEq

/-- The moves of the helper thread; no opening stands for a thread that could not be created. -/
inductive Move where
  | stopService
  | startService (opening : Option Opening)
  | attach
  | send (outcome : SendOutcome)
  | enterWait
  | skipWait
  | spuriousWake
  | leaveWait
  | detach
  | sendNoWait (outcome : SendOutcome)
  | stopBoot
  | restart (opening : Option Opening)
  | destroy
  deriving DecidableEq

inductive Action where
  | helper (move : Move)
  | packet (pkt : PacketContent)
  | countDown
  | join
  deriving DecidableEq

def startOutcome : Option Opening → StartOutcome
  | none => .createThreadFailed
  | some opening => .opened opening

/-- The observer is attached. -/
def Place.attached : Place → Bool
  | .sending | .sent _ | .waiting | .woken | .leaving => true
  | _ => false

def Place.notifyOne : Place → Place
  | .waiting => .woken
  | place => place

namespace Rebooting

/-- The process is over: an exception has left a thread, or a null pointer was dereferenced. -/
def aborted (s : Rebooting) : Bool :=
  s.terminated || s.connQueue.ending.isSome ||
    (s.bootConnQueue.ending.isSome && s.bootConnQueue.ending != some .destroyed)

/-- `CmdHandler::send` on the boot connection; a socket that is not connected throws. -/
def sendBoot (s : Rebooting) (cmd : Str) (outcome : SendOutcome) (next : Int → Place) : Rebooting :=
  match s.bootConnQueue.asioSocket, s.bootConnQueue.started, outcome with
  | false, _, _ =>
      { s with bootConnQueue := { s.bootConnQueue with ending := some .nullDereferenced } }
  | true, true, .count nSend => { s with sent := s.sent ++ [cmd], place := next nSend }
  | true, _, _ => { s with terminated := true }

/-- `RebootHelpThread`, move by move. -/
def helperStep (s : Rebooting) : Move → Option Rebooting
  | .stopService =>
      if s.place = .stopping then
        (s.connQueue.step .stopRecvThread).map fun conn =>
          { s with connQueue := conn, place := .starting }
      else none
  | .startService opening =>
      if s.place = .starting then
        (s.bootConnQueue.step (.startRecvThread .socket (startOutcome opening))).map fun boot =>
          { s with bootConnQueue := boot, place := .attaching }
      else none
  | .attach => if s.place = .attaching then some { s with place := .sending } else none
  | .send outcome =>
      if s.place = .sending then some (s.sendBoot bootCmd1 outcome .sent) else none
  | .enterWait =>
      match s.place with
      | .sent result => if 0 ≤ result then some { s with place := .waiting } else none
      | _ => none
  | .skipWait =>
      match s.place with
      | .sent result => if 0 ≤ result then none else some { s with place := .leaving }
      | _ => none
  | .spuriousWake => if s.place = .waiting then some { s with place := .woken } else none
  | .leaveWait => if s.place = .woken then some { s with place := .leaving } else none
  | .detach => if s.place = .leaving then some { s with place := .sendingOn } else none
  | .sendNoWait outcome =>
      if s.place = .sendingOn then some (s.sendBoot bootCmd2 outcome fun _ => .closing) else none
  | .stopBoot =>
      if s.place = .closing then
        (s.bootConnQueue.step .stopRecvThread).map fun boot =>
          { s with bootConnQueue := boot, place := .restarting }
      else none
  | .restart opening =>
      if s.place = .restarting then
        (s.connQueue.step (.startRecvThread .socket (startOutcome opening))).map fun conn =>
          { s with connQueue := conn, place := .destroying }
      else none
  | .destroy =>
      if s.place = .destroying then
        (s.bootConnQueue.step .destroy).map fun boot =>
          { s with bootConnQueue := boot, place := .finished }
      else none

/-- An action of a process that goes on; `SendSyncObserver::update` notifies at every packet. -/
def act (s : Rebooting) : Action → Option Rebooting
  | .helper move => s.helperStep move
  | .packet pkt =>
      if s.bootConnQueue.started then
        if s.place.attached then
          some { s with observed := s.observed ++ [pkt], place := s.place.notifyOne }
        else some s
      else none
  | .countDown => if 0 < s.countDown then some { s with countDown := s.countDown - 1 } else none
  | .join =>
      if s.countDown = 0 ∧ s.place = .finished then some { s with result := some rfidOk }
      else none

/-- One step; there is none when `Reboot` has returned or the process is over. -/
def step (s : Rebooting) (a : Action) : Option Rebooting :=
  if s.aborted = true ∨ s.result ≠ none then none else s.act a

end Rebooting

/-- `Reboot` on an interface; one without a socket is refused. -/
def init (type uninitialised : ReaderSettingsType) (connQueue : LifeCycle) : Rebooting where
  connQueue := connQueue
  bootConnQueue := .construct uninitialised
  place := .stopping
  terminated := false
  countDown := 10
  result := if type = .socket then none else some rfidErrCmdDeviceNotSupport
  sent := []
  observed := []

/-- No receive thread is there, and no start stands. -/
structure Closed (l : LifeCycle) : Prop where
  joinable : l.joinable = false
  started : l.started = false
  reads : l.reads = none

/-- A handler of sockets that has its socket, and reads no serial port. -/
structure HasSocket (l : LifeCycle) : Prop where
  deviceType : l.deviceType = .socket
  asioSocket : l.asioSocket = true
  reads : l.reads ≠ some .serial

/-- A handler after a start that was not rejected. -/
def afterStart (l : LifeCycle) : Option Opening → LifeCycle
  | none => { l with deviceType := .socket }
  | some .connected => { l.afterOpening .socket .connected with started := true }
  | some .failed => l.afterOpening .socket .failed
  | some .throws => { l.afterOpening .socket .throws with ending := some .terminated }

section Connections

variable {l : LifeCycle}

theorem step_start (hending : l.ending = none) (hjoinable : l.joinable = false)
    (opening : Option Opening) :
    l.step (.startRecvThread .socket (startOutcome opening)) = some (afterStart l opening) := by
  have hstep : ∀ outcome, l.step (.startRecvThread .socket outcome) =
      l.startRecvThread .socket outcome := by
    intro outcome
    rw [LifeCycle.step, hending]
  rw [hstep]
  cases opening with
  | none => simp [startOutcome, LifeCycle.startRecvThread, LifeCycle.startRecvThreadWithSocket,
      LifeCycle.startThread, hjoinable, afterStart]
  | some opening =>
      cases opening <;> simp [startOutcome, LifeCycle.startRecvThread,
        LifeCycle.startRecvThreadWithSocket, LifeCycle.startThread, hjoinable, afterStart,
        LifeCycle.replyThreadFunc, LifeCycle.awaitThread, LifeCycle.afterOpening]

theorem HasSocket.closes (h : HasSocket l) : l.Closes := by
  rw [LifeCycle.Closes, h.deviceType]
  cases hreads : l.reads with
  | none => exact Or.inl rfl
  | some port =>
      cases port with
      | socket => exact Or.inr rfl
      | serial => exact absurd hreads h.reads

theorem step_stop (hending : l.ending = none) (h : HasSocket l) :
    l.step .stopRecvThread =
      some { l with joinable := false, reads := none, started := false } := by
  have hcloses := h.closes
  simp [LifeCycle.step, hending, LifeCycle.stopRecvThread, h.deviceType, LifeCycle.created,
    h.asioSocket, hcloses]

theorem step_destroy (hending : l.ending = none) (h : HasSocket l) :
    l.step .destroy =
      some { l with
        joinable := false, reads := none, started := false, ending := some .destroyed } := by
  have hcloses := h.closes
  simp [LifeCycle.step, hending, LifeCycle.stopRecvThread, h.deviceType, LifeCycle.created,
    h.asioSocket, hcloses]

theorem afterStart_deviceType (opening : Option Opening) :
    (afterStart l opening).deviceType = .socket := by
  cases opening with
  | none => rfl
  | some opening => cases opening <;> rfl

theorem afterStart_started (hstarted : l.started = false) (opening : Option Opening) :
    (afterStart l opening).started = true ↔ opening = some .connected := by
  cases opening with
  | none => simp [afterStart, hstarted]
  | some opening => cases opening <;> simp [afterStart, hstarted]

theorem afterStart_asioSocket (opening : Option Opening) :
    (afterStart l opening).asioSocket = (l.asioSocket || opening.isSome) := by
  cases opening with
  | none => simp [afterStart]
  | some opening => cases opening <;> simp [afterStart, LifeCycle.afterOpening]

theorem afterStart_reads (hreads : l.reads ≠ some .serial) (opening : Option Opening) :
    (afterStart l opening).reads ≠ some .serial := by
  cases opening with
  | none => exact hreads
  | some opening => cases opening <;> simp [afterStart, LifeCycle.readsAfter]

theorem afterStart_ending {opening : Option Opening} (h : opening ≠ some .throws) :
    (afterStart l opening).ending = l.ending := by
  cases opening with
  | none => rfl
  | some opening =>
      cases opening with
      | throws => exact absurd rfl h
      | _ => rfl

end Connections

def Place.Holds (s : Rebooting) : Place → Prop
  | .stopping => Closed s.bootConnQueue ∧ s.sent = []
  | .starting => Closed s.connQueue ∧ Closed s.bootConnQueue ∧ s.sent = []
  | .attaching | .sending =>
      Closed s.connQueue ∧ s.bootConnQueue.deviceType = .socket ∧
        s.bootConnQueue.reads ≠ some .serial ∧ s.sent = []
  | .sent _ | .waiting | .woken | .leaving | .sendingOn =>
      Closed s.connQueue ∧ HasSocket s.bootConnQueue ∧ s.bootConnQueue.started = true ∧
        s.sent = [bootCmd1]
  | .closing => Closed s.connQueue ∧ HasSocket s.bootConnQueue ∧ s.sent = [bootCmd1, bootCmd2]
  | .restarting =>
      Closed s.connQueue ∧ HasSocket s.bootConnQueue ∧ Closed s.bootConnQueue ∧
        s.sent = [bootCmd1, bootCmd2]
  | .destroying =>
      HasSocket s.bootConnQueue ∧ Closed s.bootConnQueue ∧ s.sent = [bootCmd1, bootCmd2]
  | .finished => Closed s.bootConnQueue ∧ s.sent = [bootCmd1, bootCmd2]

structure Inv (s : Rebooting) : Prop where
  connQueue : HasSocket s.connQueue
  holds : s.place.Holds s
  destroyed : s.bootConnQueue.ending = some .destroyed → s.place = .finished
  waits : s.place = .waiting → s.aborted = false
  result : s.result ≠ none → s.place = .finished

theorem ending_of_not_aborted {s : Rebooting} (h : s.aborted = false) :
    s.terminated = false ∧ s.connQueue.ending = none ∧
      (s.bootConnQueue.ending = none ∨ s.bootConnQueue.ending = some .destroyed) := by
  simp only [Rebooting.aborted, Bool.or_eq_false_iff, Bool.and_eq_false_iff, bne_eq_false_iff_eq,
    Option.isSome_eq_false_iff, Option.isNone_iff_eq_none] at h
  exact ⟨h.1.1, h.1.2, h.2⟩

/-- What a move of the helper thread does where the invariant holds. -/
inductive HelperStep (s : Rebooting) : Move → Rebooting → Prop
  | stopService (hplace : s.place = .stopping) :
      HelperStep s .stopService { s with
        connQueue := { s.connQueue with joinable := false, reads := none, started := false },
        place := .starting }
  | startService (opening : Option Opening) (hplace : s.place = .starting) :
      HelperStep s (.startService opening)
        { s with bootConnQueue := afterStart s.bootConnQueue opening, place := .attaching }
  | attach (hplace : s.place = .attaching) : HelperStep s .attach { s with place := .sending }
  | send (nSend : Int) (hplace : s.place = .sending)
      (hsocket : s.bootConnQueue.asioSocket = true) (hstarted : s.bootConnQueue.started = true) :
      HelperStep s (.send (.count nSend))
        { s with sent := s.sent ++ [bootCmd1], place := .sent nSend }
  | sendNull (outcome : SendOutcome) (hplace : s.place = .sending)
      (hsocket : s.bootConnQueue.asioSocket = false) :
      HelperStep s (.send outcome)
        { s with bootConnQueue := { s.bootConnQueue with ending := some .nullDereferenced } }
  | sendThrows (outcome : SendOutcome) (hplace : s.place = .sending)
      (hthrows : s.bootConnQueue.started = false ∨ outcome = .throws) :
      HelperStep s (.send outcome) { s with terminated := true }
  | enterWait (result : Int) (hplace : s.place = .sent result) :
      HelperStep s .enterWait { s with place := .waiting }
  | skipWait (result : Int) (hplace : s.place = .sent result) (hresult : result < 0) :
      HelperStep s .skipWait { s with place := .leaving }
  | spuriousWake (hplace : s.place = .waiting) :
      HelperStep s .spuriousWake { s with place := .woken }
  | leaveWait (hplace : s.place = .woken) : HelperStep s .leaveWait { s with place := .leaving }
  | detach (hplace : s.place = .leaving) : HelperStep s .detach { s with place := .sendingOn }
  | sendNoWait (nSend : Int) (hplace : s.place = .sendingOn) :
      HelperStep s (.sendNoWait (.count nSend))
        { s with sent := s.sent ++ [bootCmd2], place := .closing }
  | sendNoWaitThrows (outcome : SendOutcome) (hplace : s.place = .sendingOn)
      (hthrows : outcome = .throws) :
      HelperStep s (.sendNoWait outcome) { s with terminated := true }
  | stopBoot (hplace : s.place = .closing) :
      HelperStep s .stopBoot { s with
        bootConnQueue := { s.bootConnQueue with
          joinable := false, reads := none, started := false },
        place := .restarting }
  | restart (opening : Option Opening) (hplace : s.place = .restarting) :
      HelperStep s (.restart opening)
        { s with connQueue := afterStart s.connQueue opening, place := .destroying }
  | destroy (hplace : s.place = .destroying) :
      HelperStep s .destroy { s with
        bootConnQueue := { s.bootConnQueue with
          joinable := false, reads := none, started := false, ending := some .destroyed },
        place := .finished }

/-- Away from its end the helper thread has not destroyed its connection. -/
theorem Inv.boot_ending {s : Rebooting} (hs : Inv s) (hrun : s.aborted = false)
    (hplace : s.place ≠ .finished) : s.bootConnQueue.ending = none :=
  (ending_of_not_aborted hrun).2.2.resolve_right fun h => hplace (hs.destroyed h)

/-- A send goes out on a connected socket, or dereferences null, or throws. -/
theorem sendBoot_cases (s : Rebooting) (cmd : Str) (outcome : SendOutcome) (next : Int → Place) :
    (∃ nSend, outcome = .count nSend ∧ s.bootConnQueue.asioSocket = true ∧
      s.bootConnQueue.started = true ∧
      s.sendBoot cmd outcome next = { s with sent := s.sent ++ [cmd], place := next nSend }) ∨
    (s.bootConnQueue.asioSocket = false ∧ s.sendBoot cmd outcome next =
      { s with bootConnQueue := { s.bootConnQueue with ending := some .nullDereferenced } }) ∨
    ((s.bootConnQueue.started = false ∨ outcome = .throws) ∧
      s.sendBoot cmd outcome next = { s with terminated := true }) := by
  cases hsocket : s.bootConnQueue.asioSocket with
  | false => exact Or.inr (Or.inl ⟨rfl, by simp [Rebooting.sendBoot, hsocket]⟩)
  | true =>
      cases hstarted : s.bootConnQueue.started with
      | false =>
          exact Or.inr (Or.inr ⟨Or.inl rfl, by simp [Rebooting.sendBoot, hsocket, hstarted]⟩)
      | true =>
          cases outcome with
          | count nSend =>
              exact Or.inl ⟨nSend, rfl, rfl, rfl, by simp [Rebooting.sendBoot, hsocket, hstarted]⟩
          | throws =>
              exact Or.inr (Or.inr ⟨Or.inr rfl, by simp [Rebooting.sendBoot, hsocket, hstarted]⟩)

/-- Where the invariant holds the moves of the helper thread are these. -/
theorem helperStep_cases {s s' : Rebooting} {move : Move} (hs : Inv s) (hrun : s.aborted = false)
    (h : s.helperStep move = some s') : HelperStep s move s' := by
  obtain ⟨-, hconn, -⟩ := ending_of_not_aborted hrun
  have hholds := hs.holds
  have hboot := hs.boot_ending hrun
  cases move with
  | stopService =>
      obtain ⟨hplace, h⟩ := Option.ite_none_right_eq_some.mp h
      rw [step_stop hconn hs.connQueue] at h
      obtain rfl := Option.some.inj h
      exact .stopService hplace
  | startService opening =>
      obtain ⟨hplace, h⟩ := Option.ite_none_right_eq_some.mp h
      rw [hplace] at hholds
      rw [step_start (hboot (by simp [hplace])) hholds.2.1.joinable] at h
      obtain rfl := Option.some.inj h
      exact .startService opening hplace
  | attach =>
      obtain ⟨hplace, h⟩ := Option.ite_none_right_eq_some.mp h
      obtain rfl := Option.some.inj h
      exact .attach hplace
  | send outcome =>
      obtain ⟨hplace, h⟩ := Option.ite_none_right_eq_some.mp h
      obtain rfl := Option.some.inj h
      obtain ⟨nSend, rfl, hsocket, hstarted, heq⟩ | ⟨hsocket, heq⟩ | ⟨hthrows, heq⟩ :=
        sendBoot_cases s bootCmd1 outcome .sent
      · exact heq ▸ .send nSend hplace hsocket hstarted
      · exact heq ▸ .sendNull outcome hplace hsocket
      · exact heq ▸ .sendThrows outcome hplace hthrows
  | enterWait =>
      cases hplace : s.place with
      | sent result =>
          simp only [Rebooting.helperStep, hplace] at h
          obtain ⟨-, h⟩ := Option.ite_none_right_eq_some.mp h
          obtain rfl := Option.some.inj h
          exact .enterWait result hplace
      | _ => simp [Rebooting.helperStep, hplace] at h
  | skipWait =>
      cases hplace : s.place with
      | sent result =>
          simp only [Rebooting.helperStep, hplace] at h
          obtain ⟨hresult, h⟩ := Option.ite_none_left_eq_some.mp h
          obtain rfl := Option.some.inj h
          exact .skipWait result hplace (Int.not_le.mp hresult)
      | _ => simp [Rebooting.helperStep, hplace] at h
  | spuriousWake =>
      obtain ⟨hplace, h⟩ := Option.ite_none_right_eq_some.mp h
      obtain rfl := Option.some.inj h
      exact .spuriousWake hplace
  | leaveWait =>
      obtain ⟨hplace, h⟩ := Option.ite_none_right_eq_some.mp h
      obtain rfl := Option.some.inj h
      exact .leaveWait hplace
  | detach =>
      obtain ⟨hplace, h⟩ := Option.ite_none_right_eq_some.mp h
      obtain rfl := Option.some.inj h
      exact .detach hplace
  | sendNoWait outcome =>
      obtain ⟨hplace, h⟩ := Option.ite_none_right_eq_some.mp h
      obtain rfl := Option.some.inj h
      rw [hplace] at hholds
      obtain ⟨nSend, rfl, -, -, heq⟩ | ⟨hnull, -⟩ | ⟨hunsent | hthrows, heq⟩ :=
        sendBoot_cases s bootCmd2 outcome fun _ => .closing
      · exact heq ▸ .sendNoWait nSend hplace
      · exact absurd (hnull.symm.trans hholds.2.1.asioSocket) Bool.false_ne_true
      · exact absurd (hunsent.symm.trans hholds.2.2.1) Bool.false_ne_true
      · exact heq ▸ .sendNoWaitThrows outcome hplace hthrows
  | stopBoot =>
      obtain ⟨hplace, h⟩ := Option.ite_none_right_eq_some.mp h
      rw [hplace] at hholds
      rw [step_stop (hboot (by simp [hplace])) hholds.2.1] at h
      obtain rfl := Option.some.inj h
      exact .stopBoot hplace
  | restart opening =>
      obtain ⟨hplace, h⟩ := Option.ite_none_right_eq_some.mp h
      rw [hplace] at hholds
      rw [step_start hconn hholds.1.joinable] at h
      obtain rfl := Option.some.inj h
      exact .restart opening hplace
  | destroy =>
      obtain ⟨hplace, h⟩ := Option.ite_none_right_eq_some.mp h
      rw [hplace] at hholds
      rw [step_destroy (hboot (by simp [hplace])) hholds.1] at h
      obtain rfl := Option.some.inj h
      exact .destroy hplace

theorem HelperStep.inv {s s' : Rebooting} {move : Move} (hs : Inv s) (hrun : s.aborted = false)
    (hresult : s.result = none) (h : HelperStep s move s') : Inv s' := by
  have hconn := hs.connQueue
  have hholds := hs.holds
  have hkept : s.place ≠ .finished → s.bootConnQueue.ending ≠ some .destroyed :=
    fun hplace h => hplace (hs.destroyed h)
  have hopen : s.result ≠ none → s'.place = .finished := fun h => absurd hresult h
  cases h with
  | stopService hplace =>
      rw [hplace] at hholds
      refine ⟨⟨hconn.deviceType, hconn.asioSocket, nofun⟩, ⟨⟨rfl, rfl, rfl⟩, hholds⟩, ?_, nofun,
        hopen⟩
      exact fun h => absurd h (hkept (by simp [hplace]))
  | startService opening hplace =>
      rw [hplace] at hholds
      have hreads : (afterStart s.bootConnQueue opening).reads ≠ some .serial :=
        afterStart_reads (by simp [hholds.2.1.reads]) opening
      refine ⟨hconn, ⟨hholds.1, afterStart_deviceType opening, hreads, hholds.2.2⟩, ?_, nofun,
        hopen⟩
      intro h
      have hnone := hs.boot_ending hrun (by simp [hplace])
      cases opening with
      | none => simp [afterStart, hnone] at h
      | some opening => cases opening <;> simp [afterStart, hnone] at h
  | attach hplace =>
      rw [hplace] at hholds
      exact ⟨hconn, hholds, fun h => absurd h (hkept (by simp [hplace])), nofun, hopen⟩
  | send nSend hplace hsocket hstarted =>
      rw [hplace] at hholds
      obtain ⟨hclosed, htype, hreads, hsent⟩ := hholds
      refine ⟨hconn, ⟨hclosed, ⟨htype, hsocket, hreads⟩, hstarted, by simp [hsent]⟩, ?_, nofun,
        hopen⟩
      exact fun h => absurd h (hkept (by simp [hplace]))
  | sendNull outcome hplace hsocket =>
      rw [hplace] at hholds
      refine ⟨hconn, ?_, fun h => absurd h (by simp), fun h => ?_, fun h => absurd hresult h⟩
      · change Place.Holds _ s.place
        rw [hplace]
        exact hholds
      · exact absurd (hplace.symm.trans h) (by simp)
  | sendThrows outcome hplace hthrows | sendNoWaitThrows outcome hplace hthrows =>
      rw [hplace] at hholds
      refine ⟨hconn, ?_, hs.destroyed, fun h => ?_, fun h => absurd hresult h⟩
      · change Place.Holds _ s.place
        rw [hplace]
        exact hholds
      · exact absurd (hplace.symm.trans h) (by simp)
  | enterWait result hplace =>
      rw [hplace] at hholds
      exact ⟨hconn, hholds, fun h => absurd h (hkept (by simp [hplace])), fun _ => hrun, hopen⟩
  | skipWait result hplace hless =>
      rw [hplace] at hholds
      exact ⟨hconn, hholds, fun h => absurd h (hkept (by simp [hplace])), nofun, hopen⟩
  | spuriousWake hplace | leaveWait hplace | detach hplace =>
      rw [hplace] at hholds
      exact ⟨hconn, hholds, fun h => absurd h (hkept (by simp [hplace])), nofun, hopen⟩
  | sendNoWait nSend hplace =>
      rw [hplace] at hholds
      obtain ⟨hclosed, hsocket, -, hsent⟩ := hholds
      refine ⟨hconn, ⟨hclosed, hsocket, by simp [hsent]⟩, ?_, nofun, hopen⟩
      exact fun h => absurd h (hkept (by simp [hplace]))
  | stopBoot hplace =>
      rw [hplace] at hholds
      obtain ⟨hclosed, hsocket, hsent⟩ := hholds
      refine ⟨hconn, ⟨hclosed, ⟨hsocket.deviceType, hsocket.asioSocket, nofun⟩, ⟨rfl, rfl, rfl⟩,
        hsent⟩, ?_, nofun, hopen⟩
      exact fun h => absurd h (hkept (by simp [hplace]))
  | restart opening hplace =>
      rw [hplace] at hholds
      refine ⟨⟨afterStart_deviceType opening, ?_, afterStart_reads hconn.reads opening⟩,
        hholds.2, ?_, nofun, hopen⟩
      · rw [afterStart_asioSocket, hconn.asioSocket, Bool.true_or]
      · exact fun h => absurd h (hkept (by simp [hplace]))
  | destroy hplace =>
      rw [hplace] at hholds
      exact ⟨hconn, ⟨⟨rfl, rfl, rfl⟩, hholds.2.2⟩, fun _ => rfl, nofun, fun _ => rfl⟩

/-- A step is one of the helper thread, a packet, a second of the count-down or the join. -/
theorem step_cases {s s' : Rebooting} {a : Action} (hs : Inv s) (h : s.step a = some s') :
    s.aborted = false ∧ s.result = none ∧
      ((∃ move, a = .helper move ∧ HelperStep s move s') ∨
        (∃ pkt, a = .packet pkt ∧ s.bootConnQueue.started = true ∧
          ((s.place.attached = true ∧
            s' = { s with observed := s.observed ++ [pkt], place := s.place.notifyOne }) ∨
          (s.place.attached = false ∧ s' = s))) ∨
        (a = .countDown ∧ 0 < s.countDown ∧ s' = { s with countDown := s.countDown - 1 }) ∨
        (a = .join ∧ s.countDown = 0 ∧ s.place = .finished ∧
          s' = { s with result := some rfidOk })) := by
  obtain ⟨hrun, h⟩ := Option.ite_none_left_eq_some.mp h
  obtain ⟨habort, hresult⟩ := not_or.mp hrun
  have habort : s.aborted = false := Bool.eq_false_iff.mpr habort
  refine ⟨habort, not_not.mp hresult, ?_⟩
  cases a with
  | helper move => exact Or.inl ⟨move, rfl, helperStep_cases hs habort h⟩
  | packet pkt =>
      obtain ⟨hstarted, h⟩ := Option.ite_none_right_eq_some.mp h
      refine Or.inr (Or.inl ⟨pkt, rfl, hstarted, ?_⟩)
      cases hattached : s.place.attached with
      | true =>
          rw [hattached, if_pos rfl] at h
          exact Or.inl ⟨rfl, (Option.some.inj h).symm⟩
      | false =>
          rw [hattached, if_neg Bool.false_ne_true] at h
          exact Or.inr ⟨rfl, (Option.some.inj h).symm⟩
  | countDown =>
      obtain ⟨hpos, h⟩ := Option.ite_none_right_eq_some.mp h
      exact Or.inr (Or.inr (Or.inl ⟨rfl, hpos, (Option.some.inj h).symm⟩))
  | join =>
      obtain ⟨⟨hzero, hplace⟩, h⟩ := Option.ite_none_right_eq_some.mp h
      exact Or.inr (Or.inr (Or.inr ⟨rfl, hzero, hplace, (Option.some.inj h).symm⟩))

theorem Inv.step {s s' : Rebooting} {a : Action} (hs : Inv s) (h : s.step a = some s') :
    Inv s' := by
  obtain ⟨hrun, hresult, hcases⟩ := step_cases hs h
  obtain ⟨move, rfl, hmove⟩ | ⟨pkt, rfl, -, ⟨hattached, rfl⟩ | ⟨-, rfl⟩⟩ | ⟨rfl, -, rfl⟩ |
    ⟨rfl, -, hplace, rfl⟩ := hcases
  · exact hmove.inv hs hrun hresult
  · refine ⟨hs.connQueue, ?_, fun h => ?_, fun _ => hrun, fun h => absurd hresult h⟩
    · have hholds := hs.holds
      change Place.Holds _ s.place.notifyOne
      cases hplace : s.place <;> rw [hplace] at hholds <;> exact hholds
    · have hfinished : s.place = .finished := hs.destroyed h
      rw [hfinished] at hattached
      exact absurd hattached Bool.false_ne_true
  · exact hs
  · refine ⟨hs.connQueue, hs.holds, hs.destroyed, fun h => ?_, fun h => absurd hresult h⟩
    exact hs.waits h
  · exact ⟨hs.connQueue, hs.holds, hs.destroyed, fun _ => hrun, fun _ => hplace⟩

theorem inv_init {connQueue : LifeCycle} (h : HasSocket connQueue)
    (uninitialised : ReaderSettingsType) : Inv (init .socket uninitialised connQueue) :=
  ⟨h, ⟨⟨rfl, rfl, rfl⟩, rfl⟩, nofun, nofun, fun h => absurd rfl h⟩

/-- One of the connections is closed. -/
theorem Inv.exclusive {s : Rebooting} (hs : Inv s) :
    ¬ (s.connQueue.started = true ∧ s.bootConnQueue.started = true) := by
  rintro ⟨hconn, hboot⟩
  have hholds := hs.holds
  have hclosed : Closed s.connQueue ∨ Closed s.bootConnQueue := by
    cases hplace : s.place <;> rw [hplace] at hholds
    case stopping => exact Or.inr hholds.1
    case destroying => exact Or.inr hholds.2.1
    case finished => exact Or.inr hholds.1
    all_goals exact Or.inl hholds.1
  obtain hclosed | hclosed := hclosed
  · exact absurd (hconn.symm.trans hclosed.started) (by simp)
  · exact absurd (hboot.symm.trans hclosed.started) (by simp)

/-- The commands go out in order. -/
theorem Inv.sent_prefix {s : Rebooting} (hs : Inv s) : s.sent <+: [bootCmd1, bootCmd2] := by
  have hholds := hs.holds
  have hsent : s.sent = [] ∨ s.sent = [bootCmd1] ∨ s.sent = [bootCmd1, bootCmd2] := by
    cases hplace : s.place <;> rw [hplace] at hholds
    case stopping => exact Or.inl hholds.2
    case starting => exact Or.inl hholds.2.2
    case attaching | sending => exact Or.inl hholds.2.2.2
    case sent | waiting | woken | leaving | sendingOn => exact Or.inr (Or.inl hholds.2.2.2)
    case closing => exact Or.inr (Or.inr hholds.2.2)
    case restarting => exact Or.inr (Or.inr hholds.2.2.2)
    case destroying => exact Or.inr (Or.inr hholds.2.2)
    case finished => exact Or.inr (Or.inr hholds.2)
  obtain hsent | hsent | hsent := hsent
  · exact hsent ▸ List.nil_prefix
  · exact hsent ▸ ⟨[bootCmd2], rfl⟩
  · exact hsent ▸ List.prefix_refl _

/-- The interface has been started again. -/
def Place.restarted : Place → Bool
  | .destroying | .finished => true
  | _ => false

/-- What the state tells of the actions taken. -/
structure Remembers (acts : List Action) (s : Rebooting) : Prop where
  restart : s.place.restarted = false → ∀ opening, .helper (.restart opening) ∉ acts
  started : s.place.restarted = true →
    (s.connQueue.started = true ↔ .helper (.restart (some .connected)) ∈ acts)

theorem Remembers.step {acts : List Action} {s s' : Rebooting} {a : Action} (hs : Inv s)
    (hmem : Remembers acts s) (h : s.step a = some s') : Remembers (acts ++ [a]) s' := by
  have hsame : s'.place.restarted = s.place.restarted → s'.connQueue = s.connQueue →
      (∀ opening, a ≠ .helper (.restart opening)) → Remembers (acts ++ [a]) s' := by
    intro hplace hconn hno
    refine ⟨fun hnot opening hin => ?_, fun hyes => ?_⟩
    · obtain hin | hin := List.mem_append.mp hin
      · exact hmem.restart (hplace ▸ hnot) opening hin
      · exact hno opening (List.mem_singleton.mp hin).symm
    · rw [hconn, hmem.started (hplace ▸ hyes), List.mem_append, List.mem_singleton]
      exact ⟨Or.inl, fun hin => hin.resolve_right fun heq => hno _ heq.symm⟩
  obtain ⟨-, -, ⟨move, rfl, hmove⟩ | ⟨pkt, rfl, -, ⟨-, rfl⟩ | ⟨-, rfl⟩⟩ | ⟨rfl, -, rfl⟩ |
    ⟨rfl, -, hplace, rfl⟩⟩ := step_cases hs h
  · cases hmove with
    | restart opening hplace =>
        have hholds := hs.holds
        rw [hplace] at hholds
        have hnot : ∀ opening, .helper (.restart opening) ∉ acts :=
          hmem.restart (by rw [hplace]; rfl)
        refine ⟨nofun, fun _ => ?_⟩
        rw [afterStart_started hholds.1.started]
        simp [hnot, eq_comm]
    | stopService hplace =>
        refine ⟨fun _ opening hin => ?_, nofun⟩
        have hnot := hmem.restart (by rw [hplace]; rfl) opening
        simp [hnot] at hin
    | sendNull x hplace h | sendThrows x hplace h | sendNoWaitThrows x hplace h =>
        exact hsame rfl rfl (by simp)
    | enterWait result hplace | skipWait result hplace hless =>
        exact hsame (by rw [hplace]; rfl) rfl (by simp)
    | startService x hplace | sendNoWait x hplace =>
        exact hsame (by rw [hplace]; rfl) rfl (by simp)
    | send nSend hplace hsocket hstarted => exact hsame (by rw [hplace]; rfl) rfl (by simp)
    | _ hplace => exact hsame (by rw [hplace]; rfl) rfl (by simp)
  · refine hsame ?_ rfl (by simp)
    cases hplace : s.place <;> rfl
  · exact hsame rfl rfl (by simp)
  · exact hsame rfl rfl (by simp)
  · exact hsame rfl rfl (by simp)

theorem run_spec {connQueue : LifeCycle} (h : HasSocket connQueue)
    {uninitialised : ReaderSettingsType} {acts : List Action} {t : Rebooting}
    (hrun : exec Rebooting.step (init .socket uninitialised connQueue) acts = some t) :
    Inv t ∧ Remembers acts t := by
  refine exec_history (M := fun as u => Inv u ∧ Remembers as u) ?_ ?_ hrun
  · exact ⟨inv_init h uninitialised, fun _ _ => List.not_mem_nil, nofun⟩
  · rintro as u a u' - ⟨hu, hmem⟩ hstep
    exact ⟨hu.step hstep, hmem.step hu hstep⟩

/-- Two attempts of the same move; what it meets is up to the network. -/
def Move.Like : Move → Move → Prop
  | .startService _, .startService _ => True
  | .send _, .send _ => True
  | .sendNoWait _, .sendNoWait _ => True
  | .restart _, .restart _ => True
  | move, move' => move = move'

/-- The two threads run again and again. -/
def Fair (sched : Nat → Action) : Prop :=
  ∀ n, (∀ move, move ≠ .spuriousWake →
      ∃ k, n ≤ k ∧ ∃ move', Move.Like move move' ∧ sched k = .helper move') ∧
    (∃ k, n ≤ k ∧ sched k = .countDown) ∧ ∃ k, n ≤ k ∧ sched k = .join

/-- An action that is not possible leaves the state as it is. -/
def Rebooting.next (s : Rebooting) (a : Action) : Rebooting := (s.step a).getD s

/-- The state of a reboot at an instant. -/
def stateOf (uninitialised : ReaderSettingsType) (connQueue : LifeCycle) (sched : Nat → Action)
    (n : Nat) : Rebooting :=
  stateAt Rebooting.next sched (init .socket uninitialised connQueue) n

/-- What ends the wait. -/
def Wake (a : Action) : Prop := a = .helper .spuriousWake ∨ ∃ pkt, a = .packet pkt

def Returned (s : Rebooting) : Prop := s.result ≠ none

/-- Nothing more comes: `Reboot` has returned, or the process is aborted. -/
def Over (s : Rebooting) : Prop := s.aborted = true ∨ Returned s

/-- The helper thread is left in its wait. -/
def LeftWaiting (uninitialised : ReaderSettingsType) (connQueue : LifeCycle)
    (sched : Nat → Action) : Prop :=
  ∃ n, (stateOf uninitialised connQueue sched n).place = .waiting ∧ ∀ m, n ≤ m → ¬ Wake (sched m)

/-- A boot port that does not connect, a command that it does not take, or an exception where the
interface is connected again. -/
def Fatal : Action → Prop
  | .helper (.startService opening) => opening ≠ some .connected
  | .helper (.send outcome) | .helper (.sendNoWait outcome) => outcome = .throws
  | .helper (.restart opening) => opening = some .throws
  | _ => False

/-- Such an action is taken. -/
def Fails (s : Rebooting) (a : Action) : Prop := (s.step a).isSome = true ∧ Fatal a

/-- The moves before the end. -/
def Place.rank : Place → Nat
  | .stopping => 12
  | .starting => 11
  | .attaching => 10
  | .sending => 9
  | .sent _ => 8
  | .waiting => 7
  | .woken => 6
  | .leaving => 5
  | .sendingOn => 4
  | .closing => 3
  | .restarting => 2
  | .destroying => 1
  | .finished => 0

def Rebooting.rank (s : Rebooting) : Nat := s.place.rank + s.countDown

/-- The move of the helper thread that is due. -/
def Place.due : Place → Option Move
  | .stopping => some .stopService
  | .starting => some (.startService none)
  | .attaching => some .attach
  | .sending => some (.send .throws)
  | .sent result => some (if 0 ≤ result then .enterWait else .skipWait)
  | .waiting => none
  | .woken => some .leaveWait
  | .leaving => some .detach
  | .sendingOn => some (.sendNoWait .throws)
  | .closing => some .stopBoot
  | .restarting => some (.restart none)
  | .destroying => some .destroy
  | .finished => none

/-- An attempt of the move that is due, in `Reboot` itself at last. -/
def Helpful (s : Rebooting) (a : Action) : Prop :=
  match s.place.due with
  | some move => ∃ move', Move.Like move move' ∧ a = .helper move'
  | none => a = if s.countDown = 0 then .join else .countDown

theorem Fair.helpful {sched : Nat → Action} (hfair : Fair sched) (s : Rebooting) (n : Nat) :
    ∃ k, n ≤ k ∧ Helpful s (sched k) := by
  obtain ⟨hhelper, hcount, hjoin⟩ := hfair n
  unfold Helpful
  cases hdue : s.place.due with
  | some move =>
      refine hhelper move ?_
      rintro rfl
      unfold Place.due at hdue
      split at hdue <;> grind
  | none =>
      simp only
      split
      · exact hjoin
      · exact hcount

theorem next_eq_or (s : Rebooting) (a : Action) :
    (∃ s', s.step a = some s' ∧ s.next a = s') ∨ (s.step a = none ∧ s.next a = s) := by
  cases hstep : s.step a with
  | some s' => exact Or.inl ⟨s', rfl, by simp [Rebooting.next, hstep]⟩
  | none => exact Or.inr ⟨rfl, by simp [Rebooting.next, hstep]⟩

theorem Inv.next {s : Rebooting} (hs : Inv s) (a : Action) : Inv (s.next a) := by
  obtain ⟨s', hstep, hnext⟩ | ⟨-, hnext⟩ := next_eq_or s a
  · exact hnext.symm ▸ hs.step hstep
  · exact hnext.symm ▸ hs

/-- What is over stays so. -/
theorem Over.next {s : Rebooting} (h : Over s) (a : Action) : s.next a = s := by
  have hstep : s.step a = none := if_pos h
  rw [Rebooting.next, hstep, Option.getD_none]

theorem HelperStep.rank {s s' : Rebooting} {move : Move} (h : HelperStep s move s') :
    (Over s' ∧ s'.place = s.place) ∨
      (s'.place.rank < s.place.rank ∧ s'.countDown = s.countDown) := by
  cases h with
  | sendNull x hplace h | sendThrows x hplace h | sendNoWaitThrows x hplace h =>
      exact Or.inl ⟨Or.inl (by simp [Rebooting.aborted]), rfl⟩
  | enterWait x hplace | startService x hplace | sendNoWait x hplace | restart x hplace =>
      exact Or.inr ⟨by simp [Place.rank, hplace], rfl⟩
  | skipWait result hplace hless => exact Or.inr ⟨by simp [Place.rank, hplace], rfl⟩
  | send nSend hplace hsocket hstarted => exact Or.inr ⟨by simp [Place.rank, hplace], rfl⟩
  | _ hplace => exact Or.inr ⟨by simp [Place.rank, hplace], rfl⟩

theorem Place.notifyOne_rank_le (place : Place) : place.notifyOne.rank ≤ place.rank := by
  cases place with
  | waiting => exact Nat.le_succ 6
  | _ => exact Nat.le_refl _

/-- Only a wake-up takes the helper thread out of its wait. -/
theorem next_waiting {s : Rebooting} (hs : Inv s) (hplace : s.place = .waiting) {a : Action}
    (ha : ¬ Wake a) : (s.next a).place = .waiting := by
  obtain ⟨s', hstep, hnext⟩ | ⟨-, hnext⟩ := next_eq_or s a
  · rw [hnext]
    obtain ⟨-, -, ⟨move, rfl, hmove⟩ | ⟨pkt, rfl, -⟩ | ⟨rfl, -, rfl⟩ | ⟨rfl, -, -, rfl⟩⟩ :=
      step_cases hs hstep
    · cases hmove with
      | spuriousWake hwait => exact absurd (Or.inl rfl) ha
      | _ => simp_all
    · exact absurd (Or.inr ⟨pkt, rfl⟩) ha
    · exact hplace
    · exact hplace
  · rw [hnext, hplace]

/-- A wake-up does. -/
theorem next_woken {s : Rebooting} (hs : Inv s) (hplace : s.place = .waiting) {a : Action}
    (ha : Wake a) : (s.next a).place = .woken := by
  have hresult : s.result = none := by
    by_contra hresult
    exact absurd (hplace.symm.trans (hs.result hresult)) (by simp)
  have hholds := hs.holds
  rw [hplace] at hholds
  have hopen : ¬ (s.aborted = true ∨ s.result ≠ none) := by
    rw [hs.waits hplace, hresult]
    simp
  obtain rfl | ⟨pkt, rfl⟩ := ha
  · simp only [Rebooting.next, Rebooting.step, if_neg hopen, Rebooting.act, Rebooting.helperStep,
      hplace, if_true, Option.getD_some]
  · simp only [Rebooting.next, Rebooting.step, if_neg hopen, Rebooting.act, hholds.2.2.1, hplace,
      if_true, Place.attached, Place.notifyOne, Option.getD_some]

/-- The helper thread is not held up at a move that is due, whatever the network does. -/
theorem helperStep_due {s : Rebooting} (hs : Inv s) (hrun : s.aborted = false) {move move' : Move}
    (hdue : s.place.due = some move) (hlike : Move.Like move move') :
    ∃ s', s.helperStep move' = some s' := by
  obtain ⟨-, hconn, -⟩ := ending_of_not_aborted hrun
  have hboot := hs.boot_ending hrun
  have hholds := hs.holds
  cases hplace : s.place with
  | waiting | finished => simp [hplace, Place.due] at hdue
  | sent result =>
      rw [hplace] at hdue
      obtain rfl := Option.some.inj hdue
      by_cases hresult : 0 ≤ result
      · rw [if_pos hresult] at hlike
        obtain rfl : .enterWait = move' := by simpa [Move.Like] using hlike
        exact ⟨{ s with place := .waiting }, by simp [Rebooting.helperStep, hplace, hresult]⟩
      · rw [if_neg hresult] at hlike
        obtain rfl : .skipWait = move' := by simpa [Move.Like] using hlike
        exact ⟨{ s with place := .leaving }, by simp [Rebooting.helperStep, hplace, hresult]⟩
  | stopping =>
      rw [hplace] at hdue
      obtain rfl := Option.some.inj hdue
      obtain rfl : .stopService = move' := by simpa [Move.Like] using hlike
      simp [Rebooting.helperStep, hplace, step_stop hconn hs.connQueue]
  | starting =>
      rw [hplace] at hdue hholds
      obtain rfl := Option.some.inj hdue
      have hstart := step_start (hboot (by simp [hplace])) hholds.2.1.joinable
      cases move' with
      | startService opening => simp [Rebooting.helperStep, hplace, hstart]
      | _ => exact absurd hlike (by simp [Move.Like])
  | sending =>
      rw [hplace] at hdue
      obtain rfl := Option.some.inj hdue
      cases move' with
      | send outcome => simp [Rebooting.helperStep, hplace]
      | _ => exact absurd hlike (by simp [Move.Like])
  | sendingOn =>
      rw [hplace] at hdue
      obtain rfl := Option.some.inj hdue
      cases move' with
      | sendNoWait outcome => simp [Rebooting.helperStep, hplace]
      | _ => exact absurd hlike (by simp [Move.Like])
  | closing =>
      rw [hplace] at hdue hholds
      obtain rfl := Option.some.inj hdue
      obtain rfl : .stopBoot = move' := by simpa [Move.Like] using hlike
      simp [Rebooting.helperStep, hplace, step_stop (hboot (by simp [hplace])) hholds.2.1]
  | restarting =>
      rw [hplace] at hdue hholds
      obtain rfl := Option.some.inj hdue
      have hstart := step_start hconn hholds.1.joinable
      cases move' with
      | restart opening => simp [Rebooting.helperStep, hplace, hstart]
      | _ => exact absurd hlike (by simp [Move.Like])
  | destroying =>
      rw [hplace] at hdue hholds
      obtain rfl := Option.some.inj hdue
      obtain rfl : .destroy = move' := by simpa [Move.Like] using hlike
      simp [Rebooting.helperStep, hplace, step_destroy (hboot (by simp [hplace])) hholds.1]
  | attaching | woken | leaving =>
      rw [hplace] at hdue
      obtain rfl := Option.some.inj hdue
      simp only [Move.Like] at hlike
      subst hlike
      simp [Rebooting.helperStep, hplace]

/-- A helpful action is possible until the reboot is over or waits. -/
theorem step_helpful {s : Rebooting} (hs : Inv s) (hover : ¬ Over s) (hwait : s.place ≠ .waiting)
    {a : Action} (ha : Helpful s a) : ∃ s', s.step a = some s' := by
  have hact : s.step a = s.act a := if_neg hover
  have habort : s.aborted = false := Bool.eq_false_iff.mpr (not_or.mp hover).1
  rw [hact]
  unfold Helpful at ha
  cases hdue : s.place.due with
  | some move =>
      rw [hdue] at ha
      obtain ⟨move', hlike, rfl⟩ := ha
      exact helperStep_due hs habort hdue hlike
  | none =>
      rw [hdue] at ha
      have hfinished : s.place = .finished := by
        cases hplace : s.place with
        | waiting => exact absurd hplace hwait
        | finished => rfl
        | _ => simp [hplace, Place.due] at hdue
      simp only at ha
      by_cases hzero : s.countDown = 0
      · rw [if_pos hzero] at ha
        exact ⟨{ s with result := some rfidOk }, by simp [ha, Rebooting.act, hzero, hfinished]⟩
      · rw [if_neg hzero] at ha
        exact ⟨{ s with countDown := s.countDown - 1 }, by
          simp [ha, Rebooting.act, Nat.pos_of_ne_zero hzero]⟩

/-- Every step leads on, or is a packet that leaves the helper thread where it is. -/
theorem step_rank {s s' : Rebooting} {a : Action} (hs : Inv s) (h : s.step a = some s') :
    Over s' ∨ s'.rank < s.rank ∨
      (∃ pkt, a = .packet pkt ∧ s'.place = s.place ∧ s'.countDown = s.countDown) := by
  obtain ⟨-, -, ⟨move, rfl, hmove⟩ | ⟨pkt, rfl, -, ⟨-, rfl⟩ | ⟨-, rfl⟩⟩ | ⟨rfl, hpos, rfl⟩ |
    ⟨rfl, -, -, rfl⟩⟩ := step_cases hs h
  · obtain ⟨hover, -⟩ | ⟨hless, hcount⟩ := hmove.rank
    · exact Or.inl hover
    · refine Or.inr (Or.inl ?_)
      rw [Rebooting.rank, Rebooting.rank, hcount]
      exact Nat.add_lt_add_right hless _
  · by_cases hwait : s.place = .waiting
    · refine Or.inr (Or.inl ?_)
      simp [Rebooting.rank, hwait, Place.notifyOne, Place.rank]
    · refine Or.inr (Or.inr ⟨pkt, rfl, ?_, rfl⟩)
      cases hplace : s.place with
      | waiting => exact absurd hplace hwait
      | _ => rfl
  · exact Or.inr (Or.inr ⟨pkt, rfl, rfl, rfl⟩)
  · refine Or.inr (Or.inl ?_)
    simp only [Rebooting.rank]
    omega
  · exact Or.inl (Or.inr (by simp [Returned]))

theorem not_helpful_packet (s : Rebooting) (pkt : PacketContent) : ¬ Helpful s (.packet pkt) := by
  unfold Helpful
  cases s.place.due with
  | some move => simp
  | none =>
      simp only
      split <;> exact nofun

/-- A fair schedule leads to the end or to the wait. -/
theorem over_or_waiting {sched : Nat → Action} (hfair : Fair sched) {s : Rebooting} (hs : Inv s)
    (n : Nat) : ∃ m, n ≤ m ∧ (Over (stateAt Rebooting.next sched s m) ∨
      (stateAt Rebooting.next sched s m).place = .waiting) := by
  refine @eventually_of_rank _ _ Rebooting.next sched Inv (fun s => Over s ∨ s.place = .waiting)
    Rebooting.rank Helpful (fun s a hs => hs.next a) ?_
    (fun s n => hfair.helpful s n) s hs n
  intro s a hs hgoal
  obtain ⟨hover, hwait⟩ := not_or.mp hgoal
  obtain ⟨s', hstep, hnext⟩ | ⟨hnone, hnext⟩ := next_eq_or s a
  · rw [hnext]
    obtain hover' | hless | ⟨pkt, rfl, hplace, hcount⟩ := step_rank hs hstep
    · exact Or.inl (Or.inl hover')
    · exact Or.inr (Or.inl hless)
    · refine Or.inr (Or.inr ⟨not_helpful_packet s pkt, ?_, fun b hb => ?_⟩)
      · rw [Rebooting.rank, Rebooting.rank, hplace, hcount]
      · unfold Helpful at hb ⊢
        rwa [hplace, hcount]
  · rw [hnext]
    refine Or.inr (Or.inr ⟨fun ha => ?_, Nat.le_refl _, fun b hb => hb⟩)
    obtain ⟨s', hstep⟩ := step_helpful hs hover hwait ha
    exact absurd (hnone.symm.trans hstep) (by simp)

/-- The helper thread has left its wait. -/
def Left (s : Rebooting) : Prop := Inv s ∧ s.place.rank < 7

theorem Left.next {s : Rebooting} (hs : Left s) (a : Action) : Left (s.next a) := by
  obtain ⟨hinv, hless⟩ := hs
  refine ⟨hinv.next a, ?_⟩
  obtain ⟨s', hstep, hnext⟩ | ⟨-, hnext⟩ := next_eq_or s a
  · rw [hnext]
    obtain ⟨-, -, ⟨move, rfl, hmove⟩ | ⟨pkt, rfl, -, ⟨-, rfl⟩ | ⟨-, rfl⟩⟩ | ⟨rfl, -, rfl⟩ |
      ⟨rfl, -, -, rfl⟩⟩ := step_cases hinv hstep
    · obtain ⟨-, hplace⟩ | ⟨hlater, -⟩ := hmove.rank
      · exact hplace.symm ▸ hless
      · exact hlater.trans hless
    · exact Nat.lt_of_le_of_lt s.place.notifyOne_rank_le hless
    · exact hless
    · exact hless
    · exact hless
  · exact hnext.symm ▸ hless

/-- Under a fair schedule the reboot ends exactly if no wait of it is without a wake-up. -/
theorem over_iff {sched : Nat → Action} (hfair : Fair sched) {s : Rebooting} (hs : Inv s) :
    (∃ n, Over (stateAt Rebooting.next sched s n)) ↔
      ¬ ∃ n, (stateAt Rebooting.next sched s n).place = .waiting ∧
        ∀ m, n ≤ m → ¬ Wake (sched m) := by
  have hinv : ∀ n, Inv (stateAt Rebooting.next sched s n) :=
    stateAt_invariant (fun n s hs => hs.next (sched n)) hs
  constructor
  · rintro ⟨n, hover⟩ ⟨k, hwait, hquiet⟩
    have hwaits : (stateAt Rebooting.next sched s (n + k)).place = .waiting := by
      have hkept := stateAt_from (I := fun s => Inv s ∧ s.place = .waiting) ⟨hinv k, hwait⟩
        (fun m s hm hs => ⟨hs.1.next _, next_waiting hs.1 hs.2 (hquiet m hm)⟩) (Nat.le_add_left k n)
      exact hkept.2
    have hover' : Over (stateAt Rebooting.next sched s (n + k)) :=
      stateAt_from hover (fun m s _ hs => (hs.next (sched m)).symm ▸ hs) (Nat.le_add_right n k)
    obtain habort | hresult := hover'
    · exact absurd ((hinv _).waits hwaits) (by simp [habort])
    · exact absurd (hwaits.symm.trans ((hinv _).result hresult)) (by simp)
  · intro hwoken
    obtain ⟨m, -, hover | hwait⟩ := over_or_waiting hfair hs 0
    · exact ⟨m, hover⟩
    · -- From the first wake-up on the thread is past its wait.
      obtain ⟨k, hk, hwaits, hwake⟩ : ∃ k, m ≤ k ∧
          (stateAt Rebooting.next sched s k).place = .waiting ∧ Wake (sched k) := by
        by_contra hnone
        have hquiet : ∀ k, m ≤ k → (stateAt Rebooting.next sched s k).place = .waiting := by
          intro k hk
          induction k, hk using Nat.le_induction with
          | base => exact hwait
          | succ k hk ih => exact next_waiting (hinv k) ih fun ha => hnone ⟨k, hk, ih, ha⟩
        exact hwoken ⟨m, hwait, fun k hk ha => hnone ⟨k, hk, hquiet k hk, ha⟩⟩
      have hleft : Left (stateAt Rebooting.next sched s (k + 1)) := by
        refine ⟨hinv _, ?_⟩
        have hplace : (stateAt Rebooting.next sched s (k + 1)).place = .woken :=
          next_woken (hinv k) hwaits hwake
        rw [hplace]
        decide
      obtain ⟨n, hn, hover | hwaits'⟩ := over_or_waiting hfair hs (k + 1)
      · exact ⟨n, hover⟩
      · have hlater := (stateAt_from hleft (fun m s _ hs => hs.next (sched m)) hn).2
        rw [hwaits'] at hlater
        exact absurd hlater (by decide)

/-- Nothing fatal has happened: the process goes on, and the boot port is connected once it was to
be. -/
structure Unharmed (s : Rebooting) : Prop where
  running : s.aborted = false
  connected : s.place = .attaching ∨ s.place = .sending →
    s.bootConnQueue.asioSocket = true ∧ s.bootConnQueue.started = true

theorem aborted_eq_false {s : Rebooting} (hterm : s.terminated = false)
    (hconn : s.connQueue.ending = none)
    (hboot : s.bootConnQueue.ending = none ∨ s.bootConnQueue.ending = some .destroyed) :
    s.aborted = false := by
  obtain hnone | hdestroyed := hboot
  · simp [Rebooting.aborted, hterm, hconn, hnone]
  · simp [Rebooting.aborted, hterm, hconn, hdestroyed]

theorem HelperStep.unharmed {s s' : Rebooting} {move : Move} (hs : Inv s) (hharm : Unharmed s)
    (h : HelperStep s move s') (hfatal : ¬ Fatal (.helper move)) : Unharmed s' := by
  obtain ⟨hterm, hconn, hboot⟩ := ending_of_not_aborted hharm.running
  cases h with
  | stopService hplace => exact ⟨aborted_eq_false hterm hconn hboot, by simp⟩
  | startService opening hplace =>
      obtain rfl : opening = some .connected := not_not.mp hfatal
      have hnone := hs.boot_ending hharm.running (by simp [hplace])
      refine ⟨aborted_eq_false hterm hconn (Or.inl ?_), fun _ => ⟨rfl, rfl⟩⟩
      rw [afterStart_ending (by simp), hnone]
  | attach hplace =>
      exact ⟨aborted_eq_false hterm hconn hboot, fun _ => hharm.connected (Or.inl hplace)⟩
  | sendNull outcome hplace hsocket =>
      exact absurd ((hharm.connected (Or.inr hplace)).1.symm.trans hsocket) (by simp)
  | sendThrows outcome hplace hthrows =>
      obtain hunsent | hthrows := hthrows
      · exact absurd ((hharm.connected (Or.inr hplace)).2.symm.trans hunsent) (by simp)
      · exact absurd hthrows hfatal
  | sendNoWaitThrows outcome hplace hthrows => exact absurd hthrows hfatal
  | restart opening hplace =>
      refine ⟨aborted_eq_false hterm ?_ hboot, by simp⟩
      rw [afterStart_ending hfatal, hconn]
  | destroy hplace => exact ⟨aborted_eq_false hterm hconn (Or.inr rfl), by simp⟩
  | _ => exact ⟨aborted_eq_false hterm hconn hboot, by simp⟩

theorem Unharmed.next {s : Rebooting} {a : Action} (hs : Inv s) (hharm : Unharmed s)
    (hfails : ¬ Fails s a) : Unharmed (s.next a) := by
  obtain ⟨s', hstep, hnext⟩ | ⟨-, hnext⟩ := next_eq_or s a
  · rw [hnext]
    have hfatal : ¬ Fatal a := fun hfatal => hfails ⟨by rw [hstep]; rfl, hfatal⟩
    have hrunning := hharm.running
    obtain ⟨-, -, ⟨move, rfl, hmove⟩ | ⟨pkt, rfl, -, ⟨-, rfl⟩ | ⟨-, rfl⟩⟩ | ⟨rfl, -, rfl⟩ |
      ⟨rfl, -, -, rfl⟩⟩ := step_cases hs hstep
    · exact hmove.unharmed hs hharm hfatal
    · refine ⟨hrunning, fun hplace => hharm.connected ?_⟩
      cases hwas : s.place <;> simp_all [Place.notifyOne]
    · exact hharm
    · exact ⟨hrunning, hharm.connected⟩
    · exact ⟨hrunning, hharm.connected⟩
  · exact hnext.symm ▸ hharm

/-- After a fatal action there is no return. -/
structure Doomed (s : Rebooting) : Prop where
  result : s.result = none
  unsent : s.aborted = true ∨
    ((s.place = .attaching ∨ s.place = .sending) ∧ s.bootConnQueue.started = false)

theorem Doomed.next {s : Rebooting} (hs : Inv s) (hdoomed : Doomed s) (a : Action) :
    Doomed (s.next a) := by
  obtain ⟨s', hstep, hnext⟩ | ⟨-, hnext⟩ := next_eq_or s a
  · rw [hnext]
    obtain ⟨hrun, hresult, hcases⟩ := step_cases hs hstep
    obtain hdone | ⟨hplace, hunsent⟩ := hdoomed.unsent
    · exact absurd (hrun.symm.trans hdone) Bool.false_ne_true
    · obtain ⟨move, rfl, hmove⟩ | ⟨pkt, rfl, hstarted, -⟩ | ⟨rfl, -, rfl⟩ | ⟨rfl, -, hlast, -⟩ :=
        hcases
      · cases hmove with
        | attach hat => exact ⟨hresult, Or.inr ⟨Or.inr rfl, hunsent⟩⟩
        | send nSend hat hsocket hstarted =>
            exact absurd (hunsent.symm.trans hstarted) Bool.false_ne_true
        | sendNull outcome hat hsocket =>
            exact ⟨hresult, Or.inl (by simp [Rebooting.aborted])⟩
        | sendThrows outcome hat hthrows =>
            exact ⟨hresult, Or.inl (by simp [Rebooting.aborted])⟩
        | _ => simp_all
      · exact absurd (hunsent.symm.trans hstarted) Bool.false_ne_true
      · exact ⟨hresult, Or.inr ⟨hplace, hunsent⟩⟩
      · rw [hlast] at hplace
        exact absurd hplace (by simp)
  · exact hnext.symm ▸ hdoomed

theorem doomed_of_fails {s : Rebooting} {a : Action} (hs : Inv s) (hfails : Fails s a) :
    Doomed (s.next a) := by
  obtain ⟨htaken, hfatal⟩ := hfails
  obtain ⟨s', hstep⟩ := Option.isSome_iff_exists.mp htaken
  have hnext : s.next a = s' := by rw [Rebooting.next, hstep, Option.getD_some]
  rw [hnext]
  obtain ⟨hrun, hresult, ⟨move, rfl, hmove⟩ | ⟨pkt, rfl, -⟩ | ⟨rfl, -⟩ | ⟨rfl, -⟩⟩ :=
    step_cases hs hstep
  · cases hmove with
    | startService opening hplace =>
        have hholds := hs.holds
        rw [hplace] at hholds
        refine ⟨hresult, Or.inr ⟨Or.inl rfl, Bool.eq_false_iff.mpr fun hstarted => ?_⟩⟩
        exact hfatal ((afterStart_started hholds.2.1.started opening).mp hstarted)
    | send nSend hplace hsocket hstarted => exact absurd hfatal (by simp [Fatal])
    | sendNoWait nSend hplace => exact absurd hfatal (by simp [Fatal])
    | sendNull outcome hplace hsocket => exact ⟨hresult, Or.inl (by simp [Rebooting.aborted])⟩
    | sendThrows outcome hplace hthrows => exact ⟨hresult, Or.inl (by simp [Rebooting.aborted])⟩
    | sendNoWaitThrows outcome hplace hthrows =>
        exact ⟨hresult, Or.inl (by simp [Rebooting.aborted])⟩
    | restart opening hplace =>
        obtain rfl : opening = some .throws := hfatal
        exact ⟨hresult, Or.inl (by simp [Rebooting.aborted, afterStart])⟩
    | _ => exact absurd hfatal id
  · exact absurd hfatal id
  · exact absurd hfatal id
  · exact absurd hfatal id

section Endings

variable {connQueue : LifeCycle} {uninitialised : ReaderSettingsType} {sched : Nat → Action}

theorem inv_stateOf (h : HasSocket connQueue) (n : Nat) :
    Inv (stateOf uninitialised connQueue sched n) :=
  stateAt_invariant (fun n _ hs => hs.next (sched n)) (inv_init h uninitialised) n

/-- Where nothing fatal happens the process goes on. -/
theorem unharmed_stateOf (h : HasSocket connQueue) (hlive : connQueue.ending = none) (n : Nat)
    (hfails : ∀ k, ¬ Fails (stateOf uninitialised connQueue sched k) (sched k)) :
    Unharmed (stateOf uninitialised connQueue sched n) := by
  induction n with
  | zero => exact ⟨aborted_eq_false rfl hlive (Or.inl rfl), by simp [stateOf, stateAt, init]⟩
  | succ n ih => exact ih.next (inv_stateOf h n) (hfails n)

/-- From a fatal action on there is no return, and there was none before. -/
theorem not_returned_of_fails (h : HasSocket connQueue) {k : Nat}
    (hfails : Fails (stateOf uninitialised connQueue sched k) (sched k)) (n : Nat) :
    ¬ Returned (stateOf uninitialised connQueue sched n) := by
  intro hreturned
  have hdoomed : ∀ m, k + 1 ≤ m → Doomed (stateOf uninitialised connQueue sched m) := by
    intro m hm
    induction m, hm using Nat.le_induction with
    | base => exact doomed_of_fails (inv_stateOf h k) hfails
    | succ m hm ih => exact ih.next (inv_stateOf h m) (sched m)
  have hkept : Returned (stateOf uninitialised connQueue sched (n + (k + 1))) :=
    stateAt_from hreturned (fun m _ _ hs => (Over.next (Or.inr hs) (sched m)).symm ▸ hs)
      (Nat.le_add_right n (k + 1))
  exact hkept (hdoomed _ (Nat.le_add_left _ _)).result

/-- Under a fair schedule a reboot that is not left waiting returns if nothing fatal happens, and
ends in an abort otherwise. -/
theorem endings_iff (h : HasSocket connQueue) (hlive : connQueue.ending = none)
    (hfair : Fair sched) :
    ((∃ n, Returned (stateOf uninitialised connQueue sched n)) ↔
      ¬ LeftWaiting uninitialised connQueue sched ∧
        ¬ ∃ k, Fails (stateOf uninitialised connQueue sched k) (sched k)) ∧
    ((∃ n, (stateOf uninitialised connQueue sched n).aborted = true) ↔
      ¬ LeftWaiting uninitialised connQueue sched ∧
        ∃ k, Fails (stateOf uninitialised connQueue sched k) (sched k)) := by
  have hover : (∃ n, Over (stateOf uninitialised connQueue sched n)) ↔
      ¬ LeftWaiting uninitialised connQueue sched := over_iff hfair (inv_init h uninitialised)
  constructor
  · constructor
    · rintro ⟨n, hreturned⟩
      refine ⟨hover.mp ⟨n, Or.inr hreturned⟩, ?_⟩
      rintro ⟨k, hfails⟩
      exact not_returned_of_fails h hfails n hreturned
    · rintro ⟨hwoken, hfine⟩
      obtain ⟨n, habort | hreturned⟩ := hover.mpr hwoken
      · have hrunning := (unharmed_stateOf h hlive n fun k hk => hfine ⟨k, hk⟩).running
        exact absurd (hrunning.symm.trans habort) Bool.false_ne_true
      · exact ⟨n, hreturned⟩
  · constructor
    · rintro ⟨n, habort⟩
      refine ⟨hover.mp ⟨n, Or.inl habort⟩, ?_⟩
      by_contra hfine
      have hrunning := (unharmed_stateOf h hlive n fun k hk => hfine ⟨k, hk⟩).running
      exact absurd (hrunning.symm.trans habort) Bool.false_ne_true
    · rintro ⟨hwoken, k, hfails⟩
      obtain ⟨n, habort | hreturned⟩ := hover.mpr hwoken
      · exact ⟨n, habort⟩
      · exact absurd hreturned (not_returned_of_fails h hfails n)

end Endings

/-- An interface with a connected socket. -/
def connectedReader : LifeCycle := ⟨.socket, true, true, false, some .socket, true, false, none⟩

/-- The boot port answers the first command while the helper thread waits. -/
def answeredReboot : List Action :=
  [.helper .stopService, .helper (.startService (some .connected)), .helper .attach,
    .helper (.send (.count 3)), .helper .enterWait, .packet default, .helper .leaveWait,
    .helper .detach, .helper (.sendNoWait (.count 3)), .helper .stopBoot,
    .helper (.restart (some .connected)), .helper .destroy] ++
    List.replicate 10 .countDown ++ [.join]

/-- The boot port answers before the helper thread waits. -/
def earlyAnswer : List Action :=
  [.helper .stopService, .helper (.startService (some .connected)), .helper .attach,
    .helper (.send (.count 3)), .packet default, .helper .enterWait]

/-- The moves of both threads in turn. -/
def rounds : List Action :=
  [.helper .stopService, .helper (.startService none), .helper .attach,
    .helper (.send (.count 3)), .helper .enterWait, .helper .skipWait, .helper .leaveWait,
    .helper .detach, .helper (.sendNoWait (.count 3)), .helper .stopBoot,
    .helper (.restart none), .helper .destroy, .countDown, .join]

/-- The answer comes early, and the boot port is quiet from then on. -/
def earlyAnswerOnly : Nat → Action :=
  followedBy earlyAnswer fun n => rounds.getD (n % 14) .join

theorem earlyAnswerOnly_quiet {m : Nat} (h : 6 ≤ m) : ¬ Wake (earlyAnswerOnly m) := by
  obtain ⟨d, rfl⟩ := Nat.exists_eq_add_of_le h
  have hrounds : ∀ i, i < 14 → ¬ Wake (rounds.getD i .join) := by
    intro i hi
    have hmem : rounds.getD i .join ∈ rounds := by
      rw [List.getD_eq_getElem _ _ (show i < rounds.length from hi)]
      exact List.getElem_mem _
    rintro (hwake | ⟨pkt, hwake⟩) <;> rw [hwake] at hmem <;> simp [rounds] at hmem
  have hlater : earlyAnswerOnly (6 + d) = rounds.getD (d % 14) .join :=
    followedBy_add earlyAnswer _ d
  rw [hlater]
  exact hrounds _ (Nat.mod_lt d (by decide))

theorem fair_earlyAnswerOnly : Fair earlyAnswerOnly := by
  have hturn : ∀ n i, i < 14 → ∃ k, n ≤ k ∧ earlyAnswerOnly k = rounds.getD i .join := by
    intro n i hi
    refine ⟨earlyAnswer.length + (14 * n + i), by omega, ?_⟩
    rw [earlyAnswerOnly, followedBy_add, Nat.mul_add_mod, Nat.mod_eq_of_lt hi]
  have hmove : ∀ n i move move', i < 14 → Move.Like move move' →
      rounds.getD i .join = .helper move' →
        ∃ k, n ≤ k ∧ ∃ move', Move.Like move move' ∧ earlyAnswerOnly k = .helper move' := by
    intro n i move move' hi hlike heq
    obtain ⟨k, hk, hsched⟩ := hturn n i hi
    exact ⟨k, hk, move', hlike, hsched.trans heq⟩
  intro n
  refine ⟨fun move hwake => ?_, hturn n 12 (by decide), hturn n 13 (by decide)⟩
  cases move with
  | stopService => exact hmove n 0 _ _ (by decide) rfl rfl
  | startService opening => exact hmove n 1 _ (.startService none) (by decide) trivial rfl
  | attach => exact hmove n 2 _ _ (by decide) rfl rfl
  | send outcome => exact hmove n 3 _ (.send (.count 3)) (by decide) trivial rfl
  | enterWait => exact hmove n 4 _ _ (by decide) rfl rfl
  | skipWait => exact hmove n 5 _ _ (by decide) rfl rfl
  | spuriousWake => exact absurd rfl hwake
  | leaveWait => exact hmove n 6 _ _ (by decide) rfl rfl
  | detach => exact hmove n 7 _ _ (by decide) rfl rfl
  | sendNoWait outcome => exact hmove n 8 _ (.sendNoWait (.count 3)) (by decide) trivial rfl
  | stopBoot => exact hmove n 9 _ _ (by decide) rfl rfl
  | restart opening => exact hmove n 10 _ (.restart none) (by decide) trivial rfl
  | destroy => exact hmove n 11 _ _ (by decide) rfl rfl

/-- A reboot of an interface with a socket never has both connections open and sends its commands in
order; when it returns both are sent, and the interface is connected exactly if the restart was.
Under a fair schedule it returns exactly if it is not left waiting without a wake-up and the boot
port connects and takes the commands; where it is not left waiting but something of this fails, the
process is aborted. An interface without a socket is left alone. -/
theorem reboot_runs (connQueue : LifeCycle) (h : HasSocket connQueue)
    (hlive : connQueue.ending = none) (uninitialised : ReaderSettingsType) :
    (∀ acts t, exec Rebooting.step (init .socket uninitialised connQueue) acts = some t →
      ¬ (t.connQueue.started = true ∧ t.bootConnQueue.started = true) ∧
        t.sent <+: [bootCmd1, bootCmd2] ∧
        (t.result ≠ none → t.sent = [bootCmd1, bootCmd2] ∧
          t.bootConnQueue.started = false ∧
          (t.connQueue.started = true ↔ .helper (.restart (some .connected)) ∈ acts))) ∧
    (∀ sched, Fair sched →
      ((∃ n, Returned (stateOf uninitialised connQueue sched n)) ↔
        ¬ LeftWaiting uninitialised connQueue sched ∧
          ¬ ∃ k, Fails (stateOf uninitialised connQueue sched k) (sched k)) ∧
      ((∃ n, (stateOf uninitialised connQueue sched n).aborted = true) ↔
        ¬ LeftWaiting uninitialised connQueue sched ∧
          ∃ k, Fails (stateOf uninitialised connQueue sched k) (sched k))) ∧
    ∀ acts t, exec Rebooting.step (init .serial uninitialised connQueue) acts = some t →
      t = init .serial uninitialised connQueue := by
  refine ⟨fun acts t hrun => ?_, fun sched hfair => endings_iff h hlive hfair, ?_⟩
  · obtain ⟨hinv, hmem⟩ := run_spec h hrun
    refine ⟨hinv.exclusive, hinv.sent_prefix, fun hresult => ?_⟩
    have hplace := hinv.result hresult
    have hholds := hinv.holds
    rw [hplace] at hholds
    exact ⟨hholds.2, hholds.1.started, hmem.started (by rw [hplace]; rfl)⟩
  · intro acts t hrun
    cases acts with
    | nil => exact (Option.some.inj hrun).symm
    | cons a acts =>
        obtain ⟨s', hs', -⟩ := (exec_cons_eq_some _).mp hrun
        exact absurd hs' (by simp [Rebooting.step, init])

/-- The interface is connected again after an answer in the wait; after an answer before it the
reboot neither returns nor aborts the process. -/
theorem reboot_runs_earlyAnswer :
    (∃ t, exec Rebooting.step (init .socket .serial connectedReader) answeredReboot = some t ∧
      t.result = some rfidOk ∧ t.connQueue.started = true) ∧
    Fair earlyAnswerOnly ∧ ∀ n, ¬ Returned (stateOf .serial connectedReader earlyAnswerOnly n) ∧
      (stateOf .serial connectedReader earlyAnswerOnly n).aborted ≠ true := by
  have hruns := reboot_runs connectedReader ⟨rfl, rfl, by decide⟩ rfl .serial
  refine ⟨?_, fair_earlyAnswerOnly, ?_⟩
  · have hrun : ∃ t, exec Rebooting.step (init .socket .serial connectedReader) answeredReboot =
        some t ∧ t.result = some rfidOk := ⟨_, rfl, rfl⟩
    obtain ⟨t, hrun, hresult⟩ := hrun
    refine ⟨t, hrun, hresult, ?_⟩
    have hspec := (hruns.1 answeredReboot t hrun).2.2 (by simp [hresult])
    exact hspec.2.2.mpr (by simp [answeredReboot])
  · have hleft : LeftWaiting .serial connectedReader earlyAnswerOnly :=
      ⟨6, rfl, fun m hm => earlyAnswerOnly_quiet hm⟩
    obtain ⟨hreturns, haborts⟩ := hruns.2.1 earlyAnswerOnly fair_earlyAnswerOnly
    exact fun n => ⟨fun hreturned => (hreturns.mp ⟨n, hreturned⟩).1 hleft,
      fun habort => (haborts.mp ⟨n, habort⟩).1 hleft⟩

end RfidEngine.Reboot
