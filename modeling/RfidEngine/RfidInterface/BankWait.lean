import RfidEngine.ReadLines
import RfidEngine.AsyncSend.Window
import RfidEngine.RfidInterface.Readings

/-!
# RfidInterface: the wait of a single bank read

The reader answers the read of a bank with the letter of the command and the
data, or with an error code alone. The finish condition of `ReadBank` and its
callback know the first form only.

## Main results

Which answers end the wait, and after which `ReadBank` reports a success without
a result.
-/

namespace RfidEngine.AsyncSend

open StepSystem

variable {ι ρ : Type*} [DecidableEq ι] {cfg : Config ι ρ}

/-- The sender is past its wait. -/
def Pc.pastWait : Pc → Bool
  | .woken _ | .leaving _ | .detached _ | .cancelSet _ | .returned _ | .raised _ => true
  | _ => false

/-- Neither a watchdog nor a spurious wake-up ends the wait of `c`. -/
structure Unaided (cfg : Config ι ρ) (c : ι) (s : Sys ι ρ) (a : Action ι) : Prop where
  notSpurious : a ≠ .sender c .spuriousWake
  notCancelled : ∀ d, a = .watchDog d .cancelCommandWait → s.addressee cfg d ≠ some c

theorem Pc.notifyOne_pastWait {pc : Pc} (h : pc.pastWait = true) :
    pc.notifyOne.pastWait = true := by
  cases pc with
  | waiting result => rfl
  | _ => exact h

theorem next_pastWait {cmd : Command ρ} {w : WatchDog} {pc pc' : Pc} {move : Move}
    (h : pc.next cmd w move = some pc') (hpc : pc.pastWait = true) : pc'.pastWait = true := by
  unfold Pc.next at h
  split at h <;> grind [Pc.pastWait]

/-- Only a wake-up takes a blocked sender on. -/
theorem next_of_waiting {cmd : Command ρ} {w : WatchDog} {pc : Pc} {move : Move} {result : Int}
    (h : (Pc.waiting result).next cmd w move = some pc) : move = .spuriousWake := by
  unfold Pc.next at h
  split at h <;> simp_all

/-- What a step without help makes of a blocked sender: it is woken by the packet that ends its
wait. -/
theorem waiting_step {s s' : Sys ι ρ} {a : Action ι} {c : ι} {result : Int}
    (hs : WellFormed cfg s) (hwait : (s.call c).pc = .waiting result) (hquiet : Unaided cfg c s a)
    (h : step cfg s a = some s') :
    (s'.call c).captured = Judge.final (cfg.command c).judge (s.call c).captured (pushes [a]) ∧
      (s'.call c).pc =
        if Judge.finished (cfg.command c).judge (s.call c).captured (pushes [a]) then
          .woken result
        else .waiting result := by
  have hcall := callStep hs h c
  generalize s'.call c = k at hcall ⊢
  cases hcall with
  | moved move pc hnext =>
      rw [hwait] at hnext
      exact absurd (congrArg _ (next_of_waiting hnext)) hquiet.notSpurious
  | updated p hpc =>
      have hone : pushes [(.pushBack p : Action ι)] = [p] := rfl
      rw [hone, Call.update_captured, Call.update_pc, hwait, Judge.final, Judge.finished,
        Judge.finished, Bool.or_false]
      exact ⟨rfl, rfl⟩
  | missed p hpc =>
      rw [hwait] at hpc
      exact absurd hpc.symm Bool.false_ne_true
  | notified d htarget => exact absurd htarget (hquiet.notCancelled d rfl)
  | unchanged a hsender hpush =>
      rw [pushes_singleton hpush]
      exact ⟨rfl, hwait⟩

theorem pastWait_of_exec {s t : Sys ι ρ} {c : ι} {acts : List (Action ι)} (hs : WellFormed cfg s)
    (hpast : (s.call c).pc.pastWait = true) (hrun : exec (step cfg) s acts = some t) :
    (t.call c).pc.pastWait = true := by
  have hfinal := exec_invariant (I := fun u : Sys ι ρ => WellFormed cfg u ∧
    (u.call c).pc.pastWait = true) ?_ ⟨hs, hpast⟩ hrun
  · exact hfinal.2
  · intro u a u' hI h
    refine ⟨hI.1.step h, ?_⟩
    have hcall := callStep hI.1 h c
    generalize u'.call c = k at hcall ⊢
    cases hcall with
    | moved move pc hnext => exact next_pastWait hnext hI.2
    | updated p hpc =>
        rw [Call.update_pc]
        split
        · exact Pc.notifyOne_pastWait hI.2
        · exact hI.2
    | notified d htarget => exact Pc.notifyOne_pastWait hI.2
    | _ => exact hI.2

/-- Without help a blocked sender is still blocked exactly if no packet has ended its wait. -/
theorem waiting_iff_of_exec {s t : Sys ι ρ} {c : ι} {acts : List (Action ι)} {result : Int}
    (hs : WellFormed cfg s) (hwait : (s.call c).pc = .waiting result)
    (hquiet : Along (step cfg) (Unaided cfg c) s acts) (hrun : exec (step cfg) s acts = some t) :
    (t.call c).pc = .waiting result ↔
      Judge.finished (cfg.command c).judge (s.call c).captured (pushes acts) = false := by
  induction acts generalizing s with
  | nil =>
      obtain rfl := Option.some.inj hrun
      exact iff_of_true hwait rfl
  | cons a acts ih =>
      obtain ⟨u, hstep, hrest⟩ := (exec_cons_eq_some _).mp hrun
      obtain ⟨hcaptured, hpc⟩ := waiting_step hs hwait hquiet.1 hstep
      have hpushes : pushes (a :: acts) = pushes [a] ++ pushes acts := pushes_append [a] acts
      rw [hpushes, Judge.finished_append, ← hcaptured]
      cases hfinished : Judge.finished (cfg.command c).judge (s.call c).captured (pushes [a]) with
      | false =>
          rw [hfinished, if_neg Bool.false_ne_true] at hpc
          rw [Bool.false_or]
          exact ih (hs.step hstep) hpc (hquiet.2 u hstep) hrest
      | true =>
          rw [hfinished, if_pos rfl] at hpc
          have hpast := pastWait_of_exec (hs.step hstep) (by rw [hpc]; rfl) hrest
          rw [Bool.true_or]
          refine iff_of_false (fun hblocked => ?_) (Ne.symm Bool.false_ne_true)
          rw [hblocked] at hpast
          exact Bool.false_ne_true hpast

end RfidEngine.AsyncSend

namespace RfidEngine.RfidInterface

open AsyncSend StepSystem BacktrackRegex

/-- What stands behind the antenna: the letter of the command and the data, if there are any, or
an error code. -/
inductive BankAnswer where
  | data (w : Str) (oneLine : ∀ ch ∈ w, isDot ch = true)
  | error (code : Char) (listed : code ∈ ['0', '3', '4', 'B', 'F'])

def BankAnswer.text : BankAnswer → Str
  | data w _ => 'R' :: w
  | error code _ => [code]

/-- `[@]<timestamp>-Antenna<antenna>-<answer>` -/
structure BankReply where
  head : ReadHead
  answer : BankAnswer

namespace BankReply

def line (r : BankReply) : Str := r.head.text ++ r.answer.text

/-- The reply is no error code. -/
def IsData (r : BankReply) : Prop :=
  match r.answer with
  | .data _ _ => True
  | .error _ _ => False

/-- The lines with the letter of the command. -/
theorem isData_iff (r : BankReply) : r.IsData ↔
    ∃ (head : ReadHead) (data : Str), r.line = head.text ++ ('R' :: data) ∧
      ∀ ch ∈ data, isDot ch = true := by
  obtain ⟨head, answer⟩ := r
  cases answer with
  | data w oneLine => exact iff_of_true trivial ⟨head, w, rfl, oneLine⟩
  | error code listed =>
      refine iff_of_false id ?_
      rintro ⟨head', data, hline, -⟩
      obtain rfl : code = 'R' := (List.cons.inj (ReadHead.text_append_inj hline).2).1
      exact absurd listed (by decide)

/-- No reply asks for a restart. -/
theorem not_restart (r : BankReply) {pkt : PacketContent} (hpkt : pkt.toString = r.line) :
    isRestartSystem pkt = false := by
  have hdash : '-' ∈ r.line := by simp [line, ReadHead.text]
  rw [← hpkt] at hdash
  rw [isRestartSystem, regexMatch, Bool.eq_false_iff, ne_eq, fullMatch_isSome_iff]
  rintro ⟨c, hc⟩
  rw [Regex.seqs, derives_seq_lit_iff] at hc
  obtain ⟨v, htext, hv⟩ := hc
  obtain ⟨-, rfl, -⟩ := (derives_lineEnd_iff _ _ _ _).mp hv
  rw [htext] at hdash
  exact absurd hdash (by decide)

end BankReply

theorem isEOR_iff (pkt : PacketContent) : isEOR pkt = true ↔
    ∃ (head : ReadHead) (data : Str), pkt.toString = head.text ++ ('R' :: data) ∧
      ∀ ch ∈ data, isDot ch = true := by
  rw [isEOR, regexMatch, fullMatch_readHead_iff]
  simp only [Regex.seqs, derives_seq_lit_iff]
  constructor
  · rintro ⟨head, -, hline, -, v, rfl, data, w, c₁, c₂, rfl, -, hdata, hend⟩
    obtain ⟨-, rfl, -⟩ := (derives_lineEnd_iff _ _ _ _).mp hend
    refine ⟨head, data, by rw [hline, List.append_nil]; rfl, ?_⟩
    obtain ⟨c, hmany, -⟩ | ⟨rfl, -⟩ := hdata
    · exact hmany.1
    · exact fun _ hch => absurd hch List.not_mem_nil
  · rintro ⟨head, data, hline, hdata⟩
    refine ⟨head, 'R' :: data, hline, [(4, data)], data, rfl, data, [], [(4, data)], [],
      (List.append_nil data).symm, rfl, .inl ⟨[], ⟨hdata, rfl⟩, rfl⟩, ?_⟩
    exact (derives_lineEnd_iff _ _ _ _).mpr ⟨rfl, rfl, rfl⟩

theorem regexMatch_rgxR_iff (response : Str) : regexMatch rgxR response = true ↔
    ∃ (head : ReadHead) (data : Str), response = head.text ++ ('R' :: data) ∧
      ∀ ch ∈ data, isDot ch = true :=
  fullMatch_letter_iff ['R'] response

/-- Some finish condition of a bank read accepts the packet. -/
def Finishes (pkt : PacketContent) : Prop :=
  ∃ f ∈ compileFinishConditions rfPtReqGetTagBank, f pkt = true

/-- A reply ends a bank read exactly if it is no error code. -/
theorem finishes_iff (r : BankReply) {pkt : PacketContent} (hpkt : pkt.toString = r.line) :
    Finishes pkt ↔ r.IsData := by
  have hconditions : compileFinishConditions rfPtReqGetTagBank = [isEOR, isRestartSystem] := rfl
  rw [Finishes, hconditions, r.isData_iff, ← hpkt, ← isEOR_iff]
  simp [r.not_restart hpkt]

/-- A reply is recorded exactly if it is no error code. -/
theorem recorded_iff (r : BankReply) : regexMatch rgxR r.line = true ↔ r.IsData := by
  rw [regexMatch_rgxR_iff, r.isData_iff]

/-- The command of a single bank read. -/
theorem readBank_eq_reading {bankType nStart nLength : Int} {cmd : Command (List Str)}
    (h : readBank false bankType nStart nLength = some cmd) :
    ∃ szSend, cmd = reading rfPtReqGetTagBank szSend rgxR := by
  unfold readBank at h
  split at h
  · obtain rfl := Option.some.inj h
    exact ⟨_, rfl⟩
  · exact absurd h.symm (Option.some_ne_none cmd)

/-- Some packet ends the wait exactly if some reply is no error code. -/
theorem finished_readBank_iff {bankType nStart nLength : Int} {cmd : Command (List Str)}
    (h : readBank false bankType nStart nLength = some cmd) (resultVec : List Str)
    {pkts : List PacketContent} {replies : List BankReply}
    (hreplies : pkts.map PacketContent.toString = replies.map BankReply.line) :
    Judge.finished cmd.judge resultVec pkts = true ↔ ∃ r ∈ replies, r.IsData := by
  obtain ⟨szSend, rfl⟩ := readBank_eq_reading h
  simp only [finished_reading, List.any_eq_true]
  constructor
  · rintro ⟨pkt, hpkt, hfinishes⟩
    have hmem : pkt.toString ∈ replies.map BankReply.line := hreplies ▸ List.mem_map_of_mem hpkt
    obtain ⟨r, hr, hline⟩ := List.mem_map.mp hmem
    exact ⟨r, hr, (finishes_iff r hline.symm).mp hfinishes⟩
  · rintro ⟨r, hr, hdata⟩
    have hmem : r.line ∈ pkts.map PacketContent.toString := hreplies ▸ List.mem_map_of_mem hr
    obtain ⟨pkt, hpkt, hline⟩ := List.mem_map.mp hmem
    exact ⟨pkt, hpkt, (finishes_iff r hline).mpr hdata⟩

variable {ι : Type*} [DecidableEq ι]

/-- A single bank read `c` is blocked in a state that can be reached. A run from there gives it no
help and pushes these replies. -/
structure BlockedRun (cfg : Config ι (List Str)) (c : ι) (s t : Sys ι (List Str)) (result : Int)
    (replies : List BankReply) : Prop where
  command : ∃ bankType nStart nLength,
    readBank false bankType nStart nLength = some (cfg.command c)
  reached : ∃ before, exec (step cfg) (Sys.init cfg) before = some s
  blocked : (s.call c).pc = .waiting result
  run : ∃ acts, exec (step cfg) s acts = some t ∧ Along (step cfg) (Unaided cfg c) s acts ∧
    (pushes acts).map PacketContent.toString = replies.map BankReply.line

/-- A single bank read has returned after `n` bytes were sent and these replies delivered. -/
structure ReturnedRead (cfg : Config ι (List Str)) (c : ι) (bankType nStart nLength : Int)
    (t : Sys ι (List Str)) (n : Int) (replies : List BankReply) : Prop where
  command : readBank false bankType nStart nLength = some (cfg.command c)
  reached : ∃ acts, exec (step cfg) (Sys.init cfg) acts = some t
  returned : (t.call c).pc = .returned n
  sent : 0 ≤ n
  delivered : (t.call c).delivered.map PacketContent.toString = replies.map BankReply.line

/-- The read is a success and its result empty. -/
def SilentSuccess (bankType nStart nLength n : Int) (resultVec : List Str) : Prop :=
  (Reading.readBank false bankType nStart nLength).returned n = rfidOk ∧ resultVec = []

variable {cfg : Config ι (List Str)} {c : ι} {s t : Sys ι (List Str)} {replies : List BankReply}

theorem BlockedRun.leaves_iff {result : Int} (h : BlockedRun cfg c s t result replies) :
    (t.call c).pc ≠ .waiting result ↔ ∃ r ∈ replies, r.IsData := by
  obtain ⟨bankType, nStart, nLength, hcommand⟩ := h.command
  obtain ⟨before, hbefore⟩ := h.reached
  obtain ⟨acts, hrun, hquiet, hreplies⟩ := h.run
  have hs := wellFormed_of_exec (wellFormed_init cfg) hbefore
  rw [ne_eq, waiting_iff_of_exec hs h.blocked hquiet hrun, Bool.not_eq_false,
    finished_readBank_iff hcommand _ hreplies]

theorem ReturnedRead.silent_iff {bankType nStart nLength n : Int}
    (h : ReturnedRead cfg c bankType nStart nLength t n replies) :
    SilentSuccess bankType nStart nLength n (t.call c).captured ↔
      ∀ r ∈ replies, ¬ r.IsData := by
  obtain ⟨acts, hacts⟩ := h.reached
  obtain ⟨szSend, hreading⟩ := readBank_eq_reading h.command
  have ht := wellFormed_of_exec (wellFormed_init cfg) hacts
  have hcommand : (Reading.readBank false bankType nStart nLength).command =
      some (cfg.command c) := h.command
  have hok : (Reading.readBank false bankType nStart nLength).returned n = rfidOk := by
    rw [Reading.returned, hcommand]
    by_contra hne
    obtain ⟨⟨_, _, hinventory⟩, -⟩ := (Reading.result_ne_ok_iff h.sent _).mp hne
    exact Reading.noConfusion hinventory
  rw [SilentSuccess, and_iff_right hok, captured_reading hreading ht, h.delivered,
    List.filter_eq_nil_iff, List.forall_mem_map]
  simp only [recorded_iff]

/-- A reply satisfies a finish condition of the single bank read, and ends its wait without help,
exactly if it is no error code; error codes alone make of it a success without a result. -/
theorem bank_read_ends_iff :
    (∀ (r : BankReply) (pkt : PacketContent), pkt.toString = r.line →
      (Finishes pkt ↔ r.IsData)) ∧
    (∀ (cfg : Config ι (List Str)) (c : ι) (s t : Sys ι (List Str)) (result : Int)
      (replies : List BankReply), BlockedRun cfg c s t result replies →
        ((t.call c).pc ≠ .waiting result ↔ ∃ r ∈ replies, r.IsData)) ∧
    ∀ (cfg : Config ι (List Str)) (c : ι) (bankType nStart nLength : Int)
      (t : Sys ι (List Str)) (n : Int) (replies : List BankReply),
      ReturnedRead cfg c bankType nStart nLength t n replies →
        (SilentSuccess bankType nStart nLength n (t.call c).captured ↔
          ∀ r ∈ replies, ¬ r.IsData) := by
  refine ⟨fun r pkt hpkt => finishes_iff r hpkt, ?_, ?_⟩
  · intro cfg c s t result replies h
    exact h.leaves_iff
  · intro cfg c bankType nStart nLength t n replies h
    exact h.silent_iff

/-- The packet that the framing makes of a reply. -/
def BankReply.packet (r : BankReply) : PacketContent :=
  ⟨'\n' :: r.line ++ "\r\n".toList, .normal⟩

def dataReply : BankReply :=
  ⟨RfidEngine.sampleHead, .data "E2003412".toList (List.all_eq_true.mp rfl)⟩

/-- Insufficient power. -/
def errorReply : BankReply := ⟨RfidEngine.sampleHead, .error 'B' (by decide)⟩

/-- One read of the TID. -/
def bankQuery : Config Unit (List Str) :=
  ⟨true, fun _ => reading rfPtReqGetTagBank "\nR2,0,6\r".toList rgxR⟩

theorem bankQuery_command : readBank false 2 0 6 = some (bankQuery.command ()) := rfl

/-- The end of a read that a reply has woken. -/
def answeredEnd : List (Action Unit) :=
  [.sender () .leaveWait, .sender () .detach, .sender () .setCancel, .watchDog () .sleep,
    .watchDog () .test, .sender () .join]

/-- A reply to a blocked read. -/
theorem blockedRun_bankQuery (r : BankReply) (hpkt : r.packet.toString = r.line) :
    ∃ s t, exec (step bankQuery) (Sys.init bankQuery) (blockedQuery ++ [.pushBack r.packet]) =
      some t ∧ BlockedRun bankQuery () s t 3 [r] := by
  have hstart : exec (step bankQuery) (Sys.init bankQuery) blockedQuery =
      some (stateAfter bankQuery blockedQuery) := rfl
  have hpush : exec (step bankQuery) (stateAfter bankQuery blockedQuery) [.pushBack r.packet] =
      some ((stateAfter bankQuery blockedQuery).pushBack bankQuery r.packet) := rfl
  refine ⟨_, _, ?_, ⟨2, 0, 6, bankQuery_command⟩, ⟨_, hstart⟩, rfl, _, hpush, ?_, ?_⟩
  · rw [exec_append, hstart, Option.bind_some, hpush]
  · exact ⟨⟨nofun, nofun⟩, fun _ _ => trivial⟩
  · exact congrArg (fun line => [line]) hpkt

/-- The data of the TID end the read and are recorded. -/
theorem bank_read_ends_data :
    Finishes dataReply.packet ∧
      (∃ s t, BlockedRun bankQuery () s t 3 [dataReply] ∧ (t.call ()).pc ≠ .waiting 3) ∧
      ∃ t, ReturnedRead bankQuery () 2 0 6 t 3 [dataReply] ∧
        ¬ SilentSuccess 2 0 6 3 (t.call ()).captured := by
  have hpkt : dataReply.packet.toString = dataReply.line := by decide +kernel
  refine ⟨(@bank_read_ends_iff Unit _).1 dataReply _ hpkt |>.mpr trivial, ?_, ?_⟩
  · obtain ⟨s, t, -, hblocked⟩ := blockedRun_bankQuery dataReply hpkt
    exact ⟨s, t, hblocked, (bank_read_ends_iff.2.1 bankQuery () s t 3 _ hblocked).mpr
      ⟨dataReply, List.mem_singleton_self _, trivial⟩⟩
  · have hcall : (exec (step bankQuery) (Sys.init bankQuery)
        (blockedQuery ++ .pushBack dataReply.packet :: answeredEnd)).map
          (fun t => ((t.call ()).pc, (t.call ()).delivered)) =
            some (.returned 3, [dataReply.packet]) := by decide +kernel
    obtain ⟨t, ht, hcall⟩ := Option.map_eq_some_iff.mp hcall
    obtain ⟨hreturned, hdelivered⟩ := Prod.mk.inj hcall
    have hread : ReturnedRead bankQuery () 2 0 6 t 3 [dataReply] :=
      ⟨bankQuery_command, ⟨_, ht⟩, hreturned, by decide, by
        rw [hdelivered]
        exact congrArg (fun line => [line]) hpkt⟩
    refine ⟨t, hread, fun hsilent => ?_⟩
    exact (bank_read_ends_iff.2.2 bankQuery () 2 0 6 t 3 _ hread).mp hsilent dataReply
      (List.mem_singleton_self _) trivial

/-- An error code satisfies no finish condition and leaves the read blocked until its watchdog
ends it, and `ReadBank` then reports a success without a result. -/
theorem error_code_unanswered :
    ¬ Finishes errorReply.packet ∧
      (∃ t, exec (step bankQuery) (Sys.init bankQuery)
        (blockedQuery ++ [.pushBack errorReply.packet]) = some t ∧ (t.call ()).pc = .waiting 3) ∧
      ∃ t, exec (step bankQuery) (Sys.init bankQuery)
        (blockedQuery ++ .pushBack errorReply.packet :: (expire () ++ cancelledEnd)) = some t ∧
          (t.call ()).pc = .returned 3 ∧ SilentSuccess 2 0 6 3 (t.call ()).captured := by
  have hpkt : errorReply.packet.toString = errorReply.line := by decide +kernel
  refine ⟨fun hfinishes => (finishes_iff errorReply hpkt).mp hfinishes, ?_, ?_⟩
  · obtain ⟨s, t, ht, hblocked⟩ := blockedRun_bankQuery errorReply hpkt
    refine ⟨t, ht, ?_⟩
    by_contra hleft
    obtain ⟨r, hr, hdata⟩ := hblocked.leaves_iff.mp hleft
    obtain rfl := List.mem_singleton.mp hr
    exact hdata
  · have hstart : exec (step bankQuery) (Sys.init bankQuery) blockedQuery =
        some (stateAfter bankQuery blockedQuery) := rfl
    have hpush : step bankQuery (stateAfter bankQuery blockedQuery)
        (.pushBack errorReply.packet) =
          some ((stateAfter bankQuery blockedQuery).pushBack bankQuery errorReply.packet) := rfl
    have hexpired : exec (step bankQuery)
        ((stateAfter bankQuery blockedQuery).pushBack bankQuery errorReply.packet)
          (expire () ++ cancelledEnd) =
        exec (step bankQuery) (((stateAfter bankQuery blockedQuery).pushBack bankQuery
          errorReply.packet).setWatchDog () ⟨.triggered, false, false⟩) cancelledEnd :=
      exec_expire rfl rfl cancelledEnd
    have hcall : (exec (step bankQuery) (((stateAfter bankQuery blockedQuery).pushBack bankQuery
        errorReply.packet).setWatchDog () ⟨.triggered, false, false⟩) cancelledEnd).map
          (fun t => ((t.call ()).pc, (t.call ()).captured)) = some (.returned 3, []) := by
      decide +kernel
    obtain ⟨t, ht, hcall⟩ := Option.map_eq_some_iff.mp hcall
    obtain ⟨hreturned, hcaptured⟩ := Prod.mk.inj hcall
    have hok : (Reading.readBank false 2 0 6).returned 3 = rfidOk := by decide +kernel
    refine ⟨t, ?_, hreturned, hok, hcaptured⟩
    rw [exec_append, hstart, Option.bind_some, exec_cons, hpush, Option.bind_some, hexpired]
    exact ht

end RfidEngine.RfidInterface
