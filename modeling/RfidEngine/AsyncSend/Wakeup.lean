import RfidEngine.AsyncSend.Steps
import RfidEngine.RfidInterface.Requests

/-!
# The sender's wake-up

`wait` has no predicate, so a notification that comes before it is lost. A
step brings a call from a state without a lost wake-up to one with it exactly
when the sender enters its wait after a packet that ended the wait.
-/

namespace RfidEngine.AsyncSend

open StepSystem

variable {ι ρ : Type*} [DecidableEq ι] {cfg : Config ι ρ}

/-- The sender is blocked although a packet has already ended its wait. -/
def LostWakeup (cfg : Config ι ρ) (c : ι) (s : Sys ι ρ) : Prop :=
  ∃ result, (s.call c).pc = .waiting result ∧
    (cfg.command c).finished (s.call c).delivered = true

/-- The sender does not enter its wait after a packet that ended it. -/
def EntersInTime (cfg : Config ι ρ) (c : ι) (s : Sys ι ρ) (a : Action ι) : Prop :=
  a = .sender c .enterWait → (cfg.command c).finished (s.call c).delivered = false

instance (c : ι) (s : Sys ι ρ) (a : Action ι) : Decidable (EntersInTime cfg c s a) :=
  inferInstanceAs (Decidable (_ → _))

/-- The wait is entered from the place after the send and from nowhere else. -/
theorem next_eq_waiting {cmd : Command ρ} {w : WatchDog} {pc : Pc} {move : Move} {result : Int}
    (h : pc.next cmd w move = some (.waiting result)) :
    move = .enterWait ∧ pc = .sent result := by
  unfold Pc.next at h
  split at h <;> grind

theorem next_enterWait {cmd : Command ρ} {w : WatchDog} {pc pc' : Pc}
    (h : pc.next cmd w .enterWait = some pc') : ∃ result, pc' = .waiting result := by
  unfold Pc.next at h
  split at h <;> grind

/-- A packet delivered to a call finishes it if an earlier one did or it does. -/
theorem finished_update {cmd : Command ρ} {k : Call ρ} (hk : k.Traced cmd) (p : PacketContent) :
    cmd.finished (k.update cmd p).delivered =
      (cmd.finished k.delivered || (cmd.judge k.captured p).2) := by
  rw [Command.finished, Call.update_delivered, Judge.finished_snoc, ← hk.captured_eq]
  rfl

/-- One step loses a wake-up exactly at a late entry into the wait. -/
theorem lostWakeup_step {s s' : Sys ι ρ} {a : Action ι} (c : ι) (hs : WellFormed cfg s)
    (hno : ¬ LostWakeup cfg c s) (h : step cfg s a = some s') :
    ¬ LostWakeup cfg c s' ↔ EntersInTime cfg c s a := by
  have hcall := callStep hs h c
  simp only [LostWakeup]
  generalize s'.call c = k at hcall
  cases hcall with
  | moved move pc hnext =>
      constructor
      · intro hkeep henter
        obtain rfl : move = .enterWait := by simpa using henter
        obtain ⟨result, rfl⟩ := next_enterWait hnext
        exact Bool.eq_false_iff.mpr fun hfin => hkeep ⟨result, rfl, hfin⟩
      · intro hintime hlost
        obtain ⟨result, hpc, hfin⟩ := hlost
        obtain rfl : pc = .waiting result := hpc
        obtain ⟨rfl, -⟩ := next_eq_waiting hnext
        exact absurd ((hintime rfl).symm.trans hfin) nofun
  | updated p hpc =>
      refine iff_of_true ?_ nofun
      intro hlost
      obtain ⟨result, hwait, hfin⟩ := hlost
      rw [finished_update (hs.traced c)] at hfin
      rw [Call.update_pc] at hwait
      cases hjudge : ((cfg.command c).judge (s.call c).captured p).2 with
      | true => exact Pc.notifyOne_ne _ result (by simpa [hjudge] using hwait)
      | false => exact hno ⟨result, by simpa [hjudge] using hwait, by simpa [hjudge] using hfin⟩
  | missed p hpc => exact iff_of_true hno nofun
  | notified d htarget =>
      refine iff_of_true ?_ nofun
      intro hlost
      obtain ⟨result, hwait, -⟩ := hlost
      exact Pc.notifyOne_ne _ result hwait
  | unchanged a hsender hpush => exact iff_of_true hno fun heq => absurd heq (hsender _)

omit [DecidableEq ι] in
theorem not_lostWakeup_init (c : ι) : ¬ LostWakeup cfg c (Sys.init cfg) := by
  intro h
  obtain ⟨result, hpc, -⟩ := h
  exact Pc.noConfusion hpc

/-- A run never loses the wake-up of a call exactly when the call never enters its wait
after a packet that ended it. -/
theorem no_lost_wakeup_iff (c : ι) {acts : List (Action ι)} {t : Sys ι ρ}
    (hrun : exec (step cfg) (Sys.init cfg) acts = some t) :
    Always (step cfg) (fun s => ¬ LostWakeup cfg c s) (Sys.init cfg) acts ↔
      Along (step cfg) (EntersInTime cfg c) (Sys.init cfg) acts :=
  always_iff_along (I := WellFormed cfg) (fun _ _ _ hs h => hs.step h)
    (fun _ _ _ hs hno h => lostWakeup_step c hs hno h) (wellFormed_init cfg)
    (not_lostWakeup_init c) hrun

/-- Where a run leads. -/
def stateAfter (cfg : Config ι ρ) (acts : List (Action ι)) : Sys ι ρ :=
  (exec (step cfg) (Sys.init cfg) acts).getD (Sys.init cfg)

/-- One `Send` of the version query. -/
def versionQuery : Config Unit Str :=
  ⟨true, fun _ =>
    RfidInterface.sendCommand RfidInterface.rfPtReqGetFirmwareVersion "\nV\r".toList []⟩

def versionReply : PacketContent := ⟨"\nV0300\r\n".toList, .normal⟩

/-- The reply is processed before the sender enters its wait. -/
def fastReply : List (Action Unit) :=
  [.sender () .launch, .sender () .attach, .sender () (.send (.count 3)),
    .pushBack versionReply, .sender () .enterWait]

/-- The reply is processed while the sender is blocked. -/
def slowReply : List (Action Unit) :=
  [.sender () .launch, .sender () .attach, .sender () (.send (.count 3)),
    .sender () .enterWait, .pushBack versionReply, .sender () .leaveWait, .sender () .detach]

theorem no_lost_wakeup_slowReply :
    Always (step versionQuery) (fun s => ¬ LostWakeup versionQuery () s)
      (Sys.init versionQuery) slowReply := by
  have hrun : exec (step versionQuery) (Sys.init versionQuery) slowReply =
      some (stateAfter versionQuery slowReply) := rfl
  exact (no_lost_wakeup_iff () hrun).mpr (by decide)

theorem lost_wakeup_fastReply :
    ¬ ∀ (acts : List (Action Unit)) (t : Sys Unit Str),
      exec (step versionQuery) (Sys.init versionQuery) acts = some t →
        ¬ LostWakeup versionQuery () t := by
  intro hall
  apply hall fastReply (stateAfter versionQuery fastReply) rfl
  exact ⟨3, rfl, rfl⟩

end RfidEngine.AsyncSend
