import RfidEngine.AsyncSend.Expiry

/-!
# What a reading records and returns

A reading records the packets of its form. `AsyncSend` returns the count of
bytes sent, however its wait ended. A reading whose wait the watchdog ended
therefore reports success, unless it is an inventory of which no byte was sent.
-/

namespace RfidEngine.RfidInterface

open AsyncSend StepSystem BacktrackRegex

/-- The callback of a reading records the packets of its form, in the order of their delivery. -/
theorem final_reading (uiCommandId : Nat) (szSend : Str) (r : Regex Char)
    (pkts : List PacketContent) (resultVec : List Str) :
    Judge.final (reading uiCommandId szSend r).judge resultVec pkts =
      resultVec ++ (pkts.map PacketContent.toString).filter (regexMatch r) := by
  induction pkts generalizing resultVec with
  | nil => rw [Judge.final, List.map_nil, List.filter_nil, List.append_nil]
  | cons pkt pkts ih =>
      have hrecord : ((reading uiCommandId szSend r).judge resultVec pkt).1 =
          if regexMatch r pkt.toString then resultVec ++ [pkt.toString] else resultVec := rfl
      rw [Judge.final, ih, hrecord, List.map_cons, List.filter_cons]
      split
      · rw [List.append_assoc, List.singleton_append]
      · rfl

/-- The wait of a reading ends with the packets that a finish condition accepts. -/
theorem finished_reading (uiCommandId : Nat) (szSend : Str) (r : Regex Char)
    (pkts : List PacketContent) (resultVec : List Str) :
    Judge.finished (reading uiCommandId szSend r).judge resultVec pkts =
      pkts.any fun pkt => (compileFinishConditions uiCommandId).any fun f => f pkt := by
  induction pkts generalizing resultVec with
  | nil => rfl
  | cons pkt pkts ih =>
      have hjudge : ((reading uiCommandId szSend r).judge resultVec pkt).2 =
          (compileFinishConditions uiCommandId).any fun f => f pkt := Bool.false_or _
      rw [Judge.finished, hjudge, ih, List.any_cons]

theorem captured_reading {ι : Type*} {cfg : Config ι (List Str)} {c : ι} {uiCommandId : Nat}
    {szSend : Str} {r : Regex Char} {t : Sys ι (List Str)}
    (hcommand : cfg.command c = reading uiCommandId szSend r) (ht : WellFormed cfg t) :
    (t.call c).captured =
      ((t.call c).delivered.map PacketContent.toString).filter (regexMatch r) := by
  rw [(ht.traced c).captured_eq, hcommand, final_reading]
  rfl

variable {ι ρ : Type*} [DecidableEq ι] {cfg : Config ι ρ}

/-- What the send has returned, from the send to the end of the call. -/
def sendResult : Pc → Option Int
  | .sent n | .waiting n | .woken n | .leaving n | .detached n | .cancelSet n | .returned n =>
      some n
  | _ => none

/-- The call goes on with what the send returned, or the join has raised. -/
def Carries (c : ι) (n : Int) (s : Sys ι ρ) : Prop :=
  sendResult (s.call c).pc = some n ∨ (s.call c).pc = .raised .join

theorem sendResult_notifyOne (pc : Pc) : sendResult pc.notifyOne = sendResult pc := by
  cases pc <;> rfl

theorem notifyOne_eq_raised {pc : Pc} {fault : Fault} (h : pc = .raised fault) :
    pc.notifyOne = .raised fault := by
  rw [h]
  rfl

theorem next_sendResult {cmd : Command ρ} {w : WatchDog} {pc pc' : Pc} {move : Move} {n : Int}
    (h : pc.next cmd w move = some pc')
    (hpc : sendResult pc = some n ∨ pc = .raised .join) :
    sendResult pc' = some n ∨ pc' = .raised .join := by
  unfold Pc.next at h
  split at h <;> grind [sendResult]

theorem Carries.step {s s' : Sys ι ρ} {a : Action ι} {c : ι} {n : Int} (hs : WellFormed cfg s)
    (hc : Carries c n s) (h : AsyncSend.step cfg s a = some s') : Carries c n s' := by
  have hcall := callStep hs h c
  have hnotify : sendResult (s.call c).pc.notifyOne = some n ∨
      (s.call c).pc.notifyOne = .raised .join := by
    rw [sendResult_notifyOne]
    exact hc.imp_right notifyOne_eq_raised
  simp only [Carries]
  generalize s'.call c = k at hcall ⊢
  cases hcall with
  | moved move pc hnext => exact next_sendResult hnext hc
  | updated p hpc =>
      rw [Call.update_pc]
      split
      · exact hnotify
      · exact hc
  | missed p hpc => exact hc
  | notified d htarget => exact hnotify
  | unchanged a hsender hpush => exact hc

/-- After the send of a command that is not empty the call carries the count. -/
theorem carries_of_send {c : ι} {n : Int} {acts : List (Action ι)} {t : Sys ι ρ}
    (hcmd : (cfg.command c).cmd ≠ [])
    (hrun : exec (step cfg) (Sys.init cfg) acts = some t)
    (hsend : .sender c (.send (.count n)) ∈ acts) : Carries c n t := by
  revert hsend
  refine exec_history (M := fun as u => .sender c (.send (.count n)) ∈ as → Carries c n u)
    ?_ ?_ hrun
  · simp
  · intro as u a u' hu ih h hmem
    have hwf := wellFormed_of_exec (wellFormed_init cfg) hu
    obtain hold | hnew := List.mem_append.mp hmem
    · exact (ih hold).step hwf h
    · obtain rfl := List.mem_singleton.mp hnew
      obtain ⟨pc, hnext, rfl⟩ := step_sender h
      have hpc := (next_send_count hcmd hnext).2
      exact Or.inl (by simp [Sys.setCall, hpc, sendResult])

/-- Only a send without error is waited for. -/
theorem waiting_nonneg {c : ι} {n : Int} {acts : List (Action ι)} {t : Sys ι ρ}
    (hrun : exec (step cfg) (Sys.init cfg) acts = some t)
    (hpc : (t.call c).pc = .waiting n) : 0 ≤ n := by
  have hfinal := exec_invariant (I := fun s : Sys ι ρ => WellFormed cfg s ∧
    ∀ n, (s.call c).pc = .waiting n → 0 ≤ n) ?_ ⟨wellFormed_init cfg, nofun⟩ hrun
  · exact hfinal.2 n hpc
  · intro s a s' hI h
    refine ⟨hI.1.step h, fun n hwait => ?_⟩
    have hcall := callStep hI.1 h c
    generalize s'.call c = k at hcall hwait
    cases hcall with
    | moved move pc hnext =>
        obtain rfl : pc = .waiting n := hwait
        obtain ⟨rfl, hsent⟩ := next_eq_waiting hnext
        rw [hsent] at hnext
        simp only [Pc.next] at hnext
        split at hnext
        · assumption
        · exact absurd hnext (by simp)
    | updated p hpc =>
        rw [Call.update_pc] at hwait
        split at hwait
        · exact absurd hwait (Pc.notifyOne_ne _ n)
        · exact hI.2 n hwait
    | notified d htarget => exact absurd hwait (Pc.notifyOne_ne _ n)
    | _ => exact hI.2 n hwait

/-- A watchdog wakes the blocked sender of `c`, which sent `n` bytes, before any packet has
ended the wait. -/
def CancelledRun (cfg : Config ι ρ) (c : ι) (n : Int) (acts : List (Action ι)) (t : Sys ι ρ) :
    Prop :=
  exec (step cfg) (Sys.init cfg) acts = some t ∧
    ∃ before d after s result, acts = before ++ .watchDog d .cancelCommandWait :: after ∧
      exec (step cfg) (Sys.init cfg) before = some s ∧
      .sender c (.send (.count n)) ∈ before ∧ (s.call c).pc = .waiting result ∧
      (cfg.command c).finished (s.call c).delivered = false ∧ s.addressee cfg d = some c

theorem CancelledRun.returned {c : ι} {n m : Int} {acts : List (Action ι)} {t : Sys ι ρ}
    (hcmd : (cfg.command c).cmd ≠ []) (hrun : CancelledRun cfg c n acts t)
    (hend : (t.call c).pc = .returned m) : m = n ∧ 0 ≤ n := by
  obtain ⟨hacts, before, d, after, s, result, rfl, hs, hsend, hwait, -, -⟩ := hrun
  have hmem : .sender c (.send (.count n)) ∈ before ++ .watchDog d .cancelCommandWait :: after :=
    List.mem_append_left _ hsend
  constructor
  · simpa [Carries, hend, sendResult] using carries_of_send hcmd hacts hmem
  · have hresult : result = n := by
      simpa [Carries, hwait, sendResult] using carries_of_send hcmd hs hsend
    exact hresult ▸ waiting_nonneg hs hwait

theorem Reading.cmd_ne_nil {r : Reading} {cmd : Command (List Str)} (h : r.command = some cmd) :
    cmd.cmd ≠ [] := by
  cases r with
  | inventoryEPC exponent loop =>
      obtain rfl : RfidInterface.inventoryEPC exponent loop = cmd := Option.some.inj h
      cases loop <;> exact nofun
  | readMultiBank slot loop bankType nStart nLength =>
      simp only [Reading.command, RfidInterface.readMultiBank] at h
      split at h
      · cases loop <;> obtain rfl := Option.some.inj h <;> exact nofun
      · exact absurd h nofun
  | readBank loop bankType nStart nLength =>
      simp only [Reading.command, RfidInterface.readBank] at h
      split at h
      · cases loop <;> obtain rfl := Option.some.inj h <;> exact nofun
      · exact absurd h nofun

/-- A count that is not negative is a success for every reading, save a count of zero for an
inventory. -/
theorem Reading.result_ne_ok_iff {n : Int} (hn : 0 ≤ n) (r : Reading) :
    r.result n ≠ rfidOk ↔ (∃ exponent loop, r = .inventoryEPC exponent loop) ∧ n = 0 := by
  have herr : rfidErrSend ≠ rfidOk := by decide
  cases r with
  | inventoryEPC exponent loop =>
      obtain rfl | hpos : n = 0 ∨ 0 < n := by omega
      · simp [Reading.result, herr]
      · have hne : n ≠ 0 := by omega
        simp [Reading.result, hpos, hne]
  | readMultiBank slot loop bankType nStart nLength => simp [Reading.result, hn]
  | readBank loop bankType nStart nLength => simp [Reading.result, hn]

/-- A cancelled reading is not reported as a success only if it is an inventory whose command
was sent with a count of zero. -/
theorem cancelled_reading_ne_ok_iff {cfg : Config ι (List Str)} {c : ι} {r : Reading} {n m : Int}
    {acts : List (Action ι)} {t : Sys ι (List Str)} (hcmd : r.command = some (cfg.command c))
    (hrun : CancelledRun cfg c n acts t) (hend : (t.call c).pc = .returned m) :
    r.returned m ≠ rfidOk ↔ (∃ exponent loop, r = .inventoryEPC exponent loop) ∧ n = 0 := by
  obtain ⟨rfl, hn⟩ := hrun.returned (Reading.cmd_ne_nil hcmd) hend
  rw [Reading.returned, hcmd]
  exact r.result_ne_ok_iff hn

/-- One inventory. -/
def inventoryQuery : Config Unit (List Str) := ⟨true, fun _ => inventoryEPC 0 false⟩

/-- The end of a call that its watchdog has woken. -/
def cancelledEnd : List (Action Unit) :=
  [.watchDog () .cancelCommandWait, .sender () .leaveWait, .sender () .detach,
    .sender () .setCancel, .sender () .join]

theorem inventoryQuery_cancelled :
    ∃ t, CancelledRun inventoryQuery () 3 (blockedQuery ++ (expire () ++ cancelledEnd)) t ∧
      (t.call ()).pc = .returned 3 := by
  have hstart : exec (step inventoryQuery) (Sys.init inventoryQuery) blockedQuery =
      some (stateAfter inventoryQuery blockedQuery) := rfl
  have hexpired := exec_blockedQuery_expire hstart rfl rfl
  have hreturned : (exec (step inventoryQuery)
      ((stateAfter inventoryQuery blockedQuery).setWatchDog () ⟨.triggered, false, false⟩)
        cancelledEnd).map (fun t => (t.call ()).pc) = some (.returned 3) := rfl
  obtain ⟨t, ht, hend⟩ := Option.map_eq_some_iff.mp hreturned
  refine ⟨t, ⟨(hexpired cancelledEnd).trans ht, blockedQuery ++ (expire () ++ []), (),
    cancelledEnd.tail, _, 3, ?_, hexpired [], ?_, rfl, rfl, rfl⟩, hend⟩
  · simp [cancelledEnd]
  · simp [blockedQuery]

theorem cancelled_reading_ne_ok_iff_inventory :
    ∃ t, CancelledRun inventoryQuery () 3 (blockedQuery ++ (expire () ++ cancelledEnd)) t ∧
      ((Reading.inventoryEPC 0 false).returned 3 ≠ rfidOk ↔
        (∃ exponent loop, Reading.inventoryEPC 0 false = .inventoryEPC exponent loop) ∧
          (3 : Int) = 0) := by
  obtain ⟨t, hrun, hend⟩ := inventoryQuery_cancelled
  exact ⟨t, hrun, cancelled_reading_ne_ok_iff rfl hrun hend⟩

/-- An inventory that the watchdog ended before any packet came reports success. -/
theorem cancelled_inventory_reports_ok :
    ¬ ∀ (acts : List (Action Unit)) (t : Sys Unit (List Str)) (n m : Int),
      CancelledRun inventoryQuery () n acts t → (t.call ()).pc = .returned m →
        (Reading.inventoryEPC 0 false).returned m ≠ rfidOk := by
  intro hall
  obtain ⟨t, hrun, hend⟩ := inventoryQuery_cancelled
  exact hall _ t 3 3 hrun hend (by decide)

end RfidEngine.RfidInterface
