import RfidEngine.Api.Inventory
import RfidEngine.Rounds
import RfidEngine.Recorded
import RfidEngine.Statistics.Conservation

/-!
# RFStatistics and the frames of the stream

From the bytes of the reader to the counts in the records: the rounds of
`RFStatistics` are calls one after another, each frame that they receive is
parsed and counted once, and the counts in the caller's buffer add up to the
frames that read an EPC.
-/

namespace RfidEngine

open BacktrackRegex Api RfidInterface AsyncSend StepSystem TaggedQueue ReceivePath

section Statistics

variable {id : ReaderId} {rule : StatisticsRule}

end Statistics

/-- The frames that the calls of a caller have received. -/
def framesOf {ι ρ κ : Type*} (cs : List ι) (t : ReceivePath ι ρ κ) : List Str :=
  cs.flatMap fun c => texts .normal (t.sys.call c).delivered

/-- The rounds are calls of a run that have returned: each is answered with what its call returned
and has recorded. -/
structure ServesRounds {ι κ π : Type} (cfg : Config ι (List Str)) (t : ReceivePath ι (List Str) κ)
    (asyncSend : SendAnswers π) (a : ReadArguments) (p : π) (sent : List (π × InterfaceCall))
    (cs : List ι) : Prop where
  command : ∀ c ∈ cs, RfidInterface.readMultiBank a.slot a.loop a.bankType a.start a.wordLen =
    some (cfg.command c)
  answered : ∀ i c, cs[i]? = some c →
    (t.sys.call c).ReturnedWith (asyncSend (a.after p sent i) p (cfg.command c))

namespace ServesRounds

variable {ι κ π : Type} {cfg : Config ι (List Str)} {t : ReceivePath ι (List Str) κ}
  {asyncSend : SendAnswers π} {a : ReadArguments} {p : π} {sent : List (π × InterfaceCall)}

theorem tail {c : ι} {cs : List ι} (h : ServesRounds cfg t asyncSend a p sent (c :: cs)) :
    ServesRounds cfg t asyncSend a p (sent ++ [(p, a.call)]) cs where
  command d hd := h.command d (List.mem_cons_of_mem c hd)
  answered i d hd := by
    have hsent : a.after p (sent ++ [(p, a.call)]) i = a.after p sent (i + 1) := by
      simp [ReadArguments.after, List.replicate_succ]
    rw [hsent]
    exact h.answered (i + 1) d hd

end ServesRounds

/-- The parser reads only lines that a bank read records. -/
theorem regexMatch_of_isMatch {unset : Unset} {line : Str} {bankType : Int} {parse : RfidParseUR}
    (h : RfidParseUR.parse unset line bankType = some parse) (hmatch : parse.isMatch = true) :
    regexMatch rgxU line = true := by
  cases hm : fullMatch rgxUR line with
  | some m => exact (regexMatch_rgxU_iff line).mpr (exists_line_of_rgxUR hm)
  | none =>
      unfold RfidParseUR.parse at h
      rw [hm] at h
      obtain rfl := Option.some.inj h
      exact absurd hmatch Bool.false_ne_true

section Rounds

variable {ι κ π : Type} [DecidableEq ι] {cfg : Config ι (List Str)} {callback : Option κ}
  {units : List StreamUnit} {events : List (ReceivePath.Event ι)}
  {t : ReceivePath ι (List Str) κ} {cs : List ι} {a : ReadArguments} {p : π}
  {sent : List (π × InterfaceCall)} {asyncSend : SendAnswers π}

end Rounds

def twoRounds : Config Bool (List Str) :=
  ⟨true, fun _ => reading rfPtReqGetMultiBankLoop "\n@U3,R2,0,6\r".toList rgxU⟩

def tidBody : FrameBody where
  text := "@2021/04/15 11:22:27.944-Antenna1-U3000E28011601234,RE2003412".toList
  no_lf := by decide
  no_cr := by decide
  no_stx := by decide
  no_heartbeat := by decide

/-- One call, from its launch to its return. -/
def tidRound (c : Bool) : List (ReceivePath.Event Bool) :=
  [.sender c .launch, .sender c .attach, .sender c (.send (.count 12)), .sender c .enterWait,
    .received (tidBody.frame ++ endBody.frame), .handOn, .handOn, .sender c .leaveWait,
    .sender c .detach, .sender c .setCancel, .watchDog c .sleep, .watchDog c .test,
    .sender c .join]

end RfidEngine
