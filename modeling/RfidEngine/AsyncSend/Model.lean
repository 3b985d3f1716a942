import Mathlib.Logic.Function.Basic
import RfidEngine.PacketQueue
import RfidEngine.Lib.Judge
import RfidEngine.Lib.StepSystem

/-!
# AsyncSend: senders, watchdogs and the receive thread

Any number of `AsyncSend` calls run on one `RfidInterface`, each with its
observer and its watchdog thread, beside the receive thread that pushes
packets. An action is one atomic step of one of these threads. A call is named
by an index of type `ι`; the variables its callback captures by reference have
the type `ρ`.

## Implementation notes

A condition variable remembers nothing: `notify_one` moves a call that is
blocked in `wait` to `woken` and does nothing to any other. A wait may also end
without a notification. The history of an observer is kept beside its state;
`observer_state` is the last packet of it.
-/

namespace RfidEngine.AsyncSend

/-- The arguments of an `AsyncSend` call. -/
structure Command (ρ : Type*) where
  uiCommandId : Nat
  cmd : Str
  finishConditions : List (PacketContent → Bool)
  callback : Option (ρ → PacketContent → ρ × Bool)
  captured : ρ

/-- What `CmdHandler::send` can do: return a byte count or throw. -/
inductive SendOutcome where
  | count (nSend : Int)
  | throws
  deriving DecidableEq

inductive Fault where
  | send
  | join
  deriving DecidableEq

/-- Where the sender is. After the send every place carries the result of it. -/
inductive Pc where
  | notStarted
  | launched
  | attached
  | sent (result : Int)
  | waiting (result : Int)
  | woken (result : Int)
  | leaving (result : Int)
  | detached (result : Int)
  | cancelSet (result : Int)
  | returned (nSend : Int)
  | raised (fault : Fault)
  deriving DecidableEq

/-- The sender of a call with its observer. -/
structure Call (ρ : Type*) where
  pc : Pc
  captured : ρ
  delivered : List PacketContent

inductive Phase where
  | notStarted
  | sleeping (millisec : Int)
  | testing (millisec : Int)
  | triggered
  | finished
  | joined
  deriving DecidableEq

/-- The watchdog thread of a call with the flags it shares with the sender. -/
structure WatchDog where
  phase : Phase
  cancel : Bool
  isTriggerred : Bool

inductive Abort where
  | terminate
  | undefinedBehaviour
  deriving DecidableEq

structure Sys (ι ρ : Type*) where
  packetQueue : PacketQueue ι
  call : ι → Call ρ
  watchDog : ι → WatchDog
  abort : Option Abort

structure Config (ι ρ : Type*) where
  enableWatchDog : Bool
  command : ι → Command ρ

inductive Move where
  | launch
  | attach
  | send (outcome : SendOutcome)
  | enterWait
  | skipWait
  | spuriousWake
  | leaveWait
  | detach
  | setCancel
  | join
  deriving DecidableEq

inductive WatchDogMove where
  | sleep
  | test
  | cancelCommandWait
  deriving DecidableEq

inductive Action (ι : Type*) where
  | sender (c : ι) (move : Move)
  | watchDog (c : ι) (move : WatchDogMove)
  | pushBack (packet : PacketContent)
  deriving DecidableEq

def timerCount : Int := 8000
def resolution : Int := 10

variable {ι ρ : Type*}

/-- What a packet does to the captured variables and whether it ends the wait. -/
def Command.judge (cmd : Command ρ) (x : ρ) (packet : PacketContent) : ρ × Bool :=
  let called := match cmd.callback with
    | some callback => callback x packet
    | none => (x, false)
  (called.1, called.2 || cmd.finishConditions.any fun f => f packet)

/-- Some packet of the history has ended the wait. -/
def Command.finished (cmd : Command ρ) (packets : List PacketContent) : Bool :=
  Judge.finished cmd.judge cmd.captured packets

/-- `cond.notify_one()` -/
def Pc.notifyOne : Pc → Pc
  | .waiting result => .woken result
  | pc => pc

def Call.notifyOne (k : Call ρ) : Call ρ := { k with pc := k.pc.notifyOne }

/-- `SendAsyncObserver::update`, up to the `pop` of the subject. -/
def Call.update (cmd : Command ρ) (packet : PacketContent) (k : Call ρ) : Call ρ :=
  let judged := cmd.judge k.captured packet
  let seen := { k with captured := judged.1, delivered := k.delivered ++ [packet] }
  if judged.2 then seen.notifyOne else seen

/-- The sender's own step; a step that blocks or is not the next one has no result. -/
def Pc.next (cmd : Command ρ) (watchDog : WatchDog) : Pc → Move → Option Pc
  | .notStarted, .launch => some .launched
  | .launched, .attach => some .attached
  | .attached, .send outcome =>
      match cmd.cmd, outcome with
      | [], _ => some (.sent 0)
      | _ :: _, .count nSend => some (.sent nSend)
      | _ :: _, .throws => some (.raised .send)
  | .sent result, .enterWait => if 0 ≤ result then some (.waiting result) else none
  | .sent result, .skipWait => if 0 ≤ result then none else some (.leaving result)
  | .waiting result, .spuriousWake => some (.woken result)
  | .woken result, .leaveWait => some (.leaving result)
  | .leaving result, .detach => some (.detached result)
  | .detached result, .setCancel => some (.cancelSet result)
  | .cancelSet result, .join =>
      match watchDog.phase with
      | .notStarted => some (.raised .join)
      | .finished => some (.returned result)
      | _ => none
  | _, _ => none

/-- The watchdog's loop up to the expiry. -/
def WatchDog.next (w : WatchDog) : WatchDogMove → Option WatchDog
  | .sleep =>
      match w.phase with
      | .sleeping millisec => some { w with phase := .testing millisec }
      | _ => none
  | .test =>
      match w.phase with
      | .testing millisec =>
          if w.cancel then some { w with phase := .finished, isTriggerred := false }
          else if millisec - resolution < 0 then some { w with phase := .triggered }
          else some { w with phase := .sleeping (millisec - resolution) }
      | _ => none
  | .cancelCommandWait =>
      match w.phase with
      | .triggered => some { w with phase := .finished, isTriggerred := true }
      | _ => none

/-- The watchdog object of a call and the flag shared with it after a step of its sender. -/
def WatchDog.afterMove (enable : Bool) (w : WatchDog) : Move → WatchDog
  | .launch => if enable then ⟨.sleeping timerCount, false, false⟩ else w
  | .setCancel => { w with cancel := true }
  | .join =>
      match w.phase with
      | .finished => { w with phase := .joined }
      | _ => w
  | _ => w

variable [DecidableEq ι]

def Sys.setCall (s : Sys ι ρ) (c : ι) (k : Call ρ) : Sys ι ρ :=
  { s with call := Function.update s.call c k }

def Sys.setWatchDog (s : Sys ι ρ) (c : ι) (w : WatchDog) : Sys ι ρ :=
  { s with watchDog := Function.update s.watchDog c w }

/-- `update` of one observer, which ends with a `pop` of the subject. -/
def Sys.update (cfg : Config ι ρ) (packet : PacketContent) (s : Sys ι ρ) (c : ι) : Sys ι ρ :=
  let called := s.setCall c ((s.call c).update (cfg.command c) packet)
  { called with packetQueue := called.packetQueue.pop.2 }

/-- `push_back`: the packet is queued and every observer of the list updated in turn. -/
def Sys.pushBack (cfg : Config ι ρ) (packet : PacketContent) (s : Sys ι ρ) : Sys ι ρ :=
  let queued := { s with packetQueue := s.packetQueue.enqueue packet }
  s.packetQueue.observers.foldl (Sys.update cfg packet) queued

/-- The call that `send_msg` of the watchdog of `c` reaches. -/
def Sys.addressee (cfg : Config ι ρ) (s : Sys ι ρ) (c : ι) : Option ι :=
  s.packetQueue.addressee (fun c => (cfg.command c).uiCommandId) (cfg.command c).uiCommandId

/-- `cancel_command_wait`: the queue is reset and the addressee notified. -/
def Sys.cancelCommandWait (cfg : Config ι ρ) (s : Sys ι ρ) (c : ι) : Sys ι ρ :=
  let emptied := { s with packetQueue := s.packetQueue.reset }
  match emptied.addressee cfg c with
  | some target => emptied.setCall target (emptied.call target).notifyOne
  | none => { emptied with abort := some .undefinedBehaviour }

/-- What a step of a sender does outside its own place. -/
def Sys.effect (cfg : Config ι ρ) (c : ι) (s : Sys ι ρ) (move : Move) : Sys ι ρ :=
  let s := s.setWatchDog c ((s.watchDog c).afterMove cfg.enableWatchDog move)
  match move with
  | .attach => { s with packetQueue := s.packetQueue.attach c }
  | .send _ =>
      -- The exception destroys the joinable thread object of a started watchdog.
      if (s.call c).pc = .raised .send ∧ (s.watchDog c).phase ≠ .notStarted then
        { s with abort := some .terminate }
      else s
  | .detach =>
      match s.packetQueue.detach c with
      | some q => { s with packetQueue := q }
      | none => { s with abort := some .undefinedBehaviour }
  | _ => s

/-- What a step of a watchdog does outside its own loop. -/
def Sys.watchDogEffect (cfg : Config ι ρ) (c : ι) (s : Sys ι ρ) : WatchDogMove → Sys ι ρ
  | .cancelCommandWait => s.cancelCommandWait cfg c
  | _ => s

/-- One step of the system; after an abort there is none. -/
def step (cfg : Config ι ρ) (s : Sys ι ρ) (action : Action ι) : Option (Sys ι ρ) :=
  match s.abort with
  | some _ => none
  | none =>
      match action with
      | .sender c move =>
          ((s.call c).pc.next (cfg.command c) (s.watchDog c) move).map fun pc =>
            (s.setCall c { s.call c with pc := pc }).effect cfg c move
      | .watchDog c move =>
          ((s.watchDog c).next move).map fun w =>
            (s.setWatchDog c w).watchDogEffect cfg c move
      | .pushBack packet => some (s.pushBack cfg packet)

/-- Nothing has been called yet. -/
def Sys.init (cfg : Config ι ρ) : Sys ι ρ where
  packetQueue := .empty
  call c := ⟨.notStarted, (cfg.command c).captured, []⟩
  watchDog _ := ⟨.notStarted, false, false⟩
  abort := none

end RfidEngine.AsyncSend
