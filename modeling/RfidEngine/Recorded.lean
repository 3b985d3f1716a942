import RfidEngine.ReceivePath
import RfidEngine.Api.Inventory
import RfidEngine.RfidInterface.BankWait

/-!
# What a reading records of the reader's stream

`InventoryEPC`, `ReadMultiBank` and `ReadBank` hand the texts of packets to
their caller. In every run these are the lines of their form among contiguous
frames of the stream. A looped reading that detaches on time has the lines of
its form up to the end of the round.
-/

namespace RfidEngine

open BacktrackRegex StepSystem AsyncSend TaggedQueue RfidInterface ReceivePath

namespace RfidInterface

/-- The expression of the packets a reading records. -/
def Reading.form : Reading → Regex Char
  | .inventoryEPC _ _ | .readMultiBank _ _ _ _ _ => rgxU
  | .readBank _ _ _ _ => rgxR

/-- The packet type a reading goes under. -/
def Reading.label : Reading → Nat
  | .inventoryEPC _ loop => if loop then rfPtReqGetMultiTagEpcLoop else rfPtReqGetMultiTagEpc
  | .readMultiBank _ loop _ _ _ => if loop then rfPtReqGetMultiBankLoop else rfPtReqGetMultiBankOnce
  | .readBank loop _ _ _ => if loop then rfPtReqGetTagBankLoop else rfPtReqGetTagBank

def Reading.loop : Reading → Bool
  | .inventoryEPC _ loop | .readMultiBank _ loop _ _ _ | .readBank loop _ _ _ => loop

/-- The packet ends the wait of the reading. -/
def Reading.ends (r : Reading) (pkt : PacketContent) : Bool :=
  (compileFinishConditions r.label).any fun f => f pkt

/-- All readings hand one kind of command to `AsyncSend`. -/
theorem Reading.command_eq {r : Reading} {cmd : Command (List Str)} (h : r.command = some cmd) :
    ∃ szSend, cmd = reading r.label szSend r.form := by
  cases r with
  | inventoryEPC exponent loop =>
      obtain rfl := Option.some.inj h
      cases loop with
      | true => exact ⟨_, rfl⟩
      | false => exact ⟨_, rfl⟩
  | readMultiBank slot loop bankType nStart nLength =>
      simp only [Reading.command, RfidInterface.readMultiBank] at h
      split at h
      · cases loop with
        | true => exact ⟨_, (Option.some.inj h).symm⟩
        | false => exact ⟨_, (Option.some.inj h).symm⟩
      · exact absurd h (by simp)
  | readBank loop bankType nStart nLength =>
      simp only [Reading.command, RfidInterface.readBank] at h
      split at h
      · cases loop with
        | true => exact ⟨_, (Option.some.inj h).symm⟩
        | false => exact ⟨_, (Option.some.inj h).symm⟩
      · exact absurd h (by simp)

/-- Every line of a form has the dash of its head. -/
theorem Reading.dash_of_form {r : Reading} {response : Str}
    (h : regexMatch r.form response = true) : '-' ∈ response := by
  have hline : ∃ (letter : Char) (head : ReadHead) (data : Str),
      response = head.text ++ (letter :: data) := by
    cases r with
    | readBank loop bankType nStart nLength =>
        obtain ⟨head, data, hline, -⟩ := (regexMatch_rgxR_iff response).mp h
        exact ⟨'R', head, data, hline⟩
    | _ =>
        obtain ⟨head, data, hline, -⟩ := (regexMatch_rgxU_iff response).mp h
        exact ⟨'U', head, data, hline⟩
  obtain ⟨letter, head, data, rfl⟩ := hline
  simp [ReadHead.text]

theorem isEOP_iff (pkt : PacketContent) : isEOP pkt = true ↔ pkt.toString = "@END".toList := by
  have hseq : (.seqs [.lineStart, .lit "@END".toList, .lineEnd] : Regex Char) =
      .seq .lineStart (.seqs [.lit "@END".toList, .lineEnd]) := rfl
  rw [isEOP, regexMatch, hseq, fullMatch_lineStart, fullMatch_isSome_iff]
  simp only [Regex.seqs, derives_seq_lit_iff]
  constructor
  · rintro ⟨c, v, htext, hend⟩
    obtain ⟨-, rfl, -⟩ := (derives_lineEnd_iff _ _ _ _).mp hend
    rw [htext, List.append_nil]
  · intro htext
    exact ⟨[], [], by rw [htext, List.append_nil],
      (derives_lineEnd_iff _ _ _ _).mpr ⟨rfl, rfl, rfl⟩⟩

theorem isRestartSystem_iff (pkt : PacketContent) :
    isRestartSystem pkt = true ↔ pkt.toString = "@Please Restart System".toList := by
  rw [isRestartSystem, regexMatch, fullMatch_isSome_iff]
  simp only [Regex.seqs, derives_seq_lit_iff]
  constructor
  · rintro ⟨c, v, htext, hend⟩
    obtain ⟨-, rfl, -⟩ := (derives_lineEnd_iff _ _ _ _).mp hend
    rw [htext, List.append_nil]
  · intro htext
    exact ⟨[], [], by rw [htext, List.append_nil],
      (derives_lineEnd_iff _ _ _ _).mpr ⟨rfl, rfl, rfl⟩⟩

/-- A looped reading ends with the end of its round or with the reader's request for a restart. -/
theorem Reading.ends_loop_iff {r : Reading} (hloop : r.loop = true) (pkt : PacketContent) :
    r.ends pkt = true ↔ pkt.toString = "@END".toList ∨
      pkt.toString = "@Please Restart System".toList := by
  have hconditions : compileFinishConditions r.label = [isEOP, isRestartSystem] := by
    cases r <;> obtain rfl := hloop <;> rfl
  rw [Reading.ends, hconditions, List.any_cons, List.any_cons, List.any_nil, Bool.or_false,
    Bool.or_eq_true, isEOP_iff, isRestartSystem_iff]

/-- What ends a looped reading is not recorded. -/
theorem Reading.not_form_of_ends {r : Reading} (hloop : r.loop = true) {pkt : PacketContent}
    (hends : r.ends pkt = true) : regexMatch r.form pkt.toString = false := by
  rw [Bool.eq_false_iff]
  intro hform
  have hdash := Reading.dash_of_form hform
  obtain htext | htext := (Reading.ends_loop_iff hloop pkt).mp hends
  · rw [htext] at hdash
    exact absurd hdash (by decide)
  · rw [htext] at hdash
    exact absurd hdash (by decide)

/-- The window of a looped reading holds, of its form, what comes before the end. -/
theorem Reading.filter_window {r : Reading} (hloop : r.loop = true) (szSend : Str)
    (pkts : List PacketContent) (resultVec : List Str) :
    ((Judge.window (reading r.label szSend r.form).judge resultVec pkts).map
        PacketContent.toString).filter (regexMatch r.form) =
      ((pkts.takeWhile fun pkt => !r.ends pkt).map PacketContent.toString).filter
        (regexMatch r.form) := by
  induction pkts generalizing resultVec with
  | nil => rfl
  | cons pkt pkts ih =>
      have hjudge : ((reading r.label szSend r.form).judge resultVec pkt).2 = r.ends pkt :=
        Bool.false_or _
      rw [Judge.window, hjudge, List.takeWhile_cons]
      cases hends : r.ends pkt with
      | true => simp [Reading.not_form_of_ends hloop hends]
      | false => simp [List.filter_cons, ih]

end RfidInterface

/-- Where only normal packets count, their contents are enough. -/
theorem filter_texts {f : Str → Bool} {pkts : List PacketContent}
    (h : ∀ pkt ∈ pkts, pkt.packetType ≠ .normal → f pkt.toString = false) :
    (pkts.map PacketContent.toString).filter f =
      ((texts .normal pkts).map trim).filter f := by
  induction pkts with
  | nil => rfl
  | cons pkt pkts ih =>
      have hrest := ih fun p hp => h p (List.mem_cons_of_mem pkt hp)
      by_cases htype : pkt.packetType = .normal
      · have htexts : texts .normal (pkt :: pkts) = pkt.vtBuffer :: texts .normal pkts := by
          simp [texts, htype]
        rw [htexts, List.map_cons, List.map_cons, List.filter_cons, List.filter_cons, hrest]
        rfl
      · have htexts : texts .normal (pkt :: pkts) = texts .normal pkts := by
          simp [texts, htype]
        have hno := h pkt List.mem_cons_self htype
        rw [htexts, List.map_cons, List.filter_cons_of_neg (by simp [hno]), hrest]

section Runs

variable {ι κ : Type*} [DecidableEq ι] {cfg : Config ι (List Str)} {callback : Option κ}

/-- A packet of the reader's stream that is no normal frame has no line of a reading. -/
theorem not_form_of_reboot {units : List StreamUnit} {events : List (ReceivePath.Event ι)}
    {t : ReceivePath ι (List Str) κ}
    (hrun : exec (ReceivePath.step cfg) (ReceivePath.init cfg callback) events = some t)
    (hstream : (chunks events).flatten <+: stream units) {c : ι} {pkt : PacketContent}
    (hpkt : pkt ∈ (t.sys.call c).delivered) (htype : pkt.packetType ≠ .normal) (r : Reading) :
    regexMatch r.form pkt.toString = false := by
  have hreboot : pkt.packetType = .reboot := by
    have hbeat := not_heartBeat_receive ((delivered_contiguous hrun c).subset hpkt)
    cases hpt : pkt.packetType with
    | normal => exact absurd hpt htype
    | heartBeat => exact absurd hpt hbeat
    | reboot => rfl
  have htext : pkt.vtBuffer ∈ texts .reboot (t.sys.call c).delivered :=
    List.mem_filterMap.mpr ⟨pkt, hpkt, if_pos hreboot⟩
  obtain ⟨u, hu, hbytes⟩ :=
    List.mem_map.mp ((texts_infix_stream hrun hstream (by decide) c).subset htext)
  have hkind : u.kind = .reboot := of_decide_eq_true (List.mem_filter.mp hu).2
  have hmarker : pkt.vtBuffer = ['\x02', 'A', '\r'] := by
    cases u with
    | reboot => exact hbytes.symm
    | _ => exact absurd hkind (by simp [StreamUnit.kind])
  rw [Bool.eq_false_iff]
  intro hform
  have hdash := Reading.dash_of_form hform
  rw [PacketContent.toString, hmarker] at hdash
  exact absurd hdash (by decide)

/-- In every run a reading has recorded the lines of its form among the frames it received. -/
theorem captured_of_exec {units : List StreamUnit} {events : List (ReceivePath.Event ι)}
    {t : ReceivePath ι (List Str) κ}
    (hrun : exec (ReceivePath.step cfg) (ReceivePath.init cfg callback) events = some t)
    (hstream : (chunks events).flatten <+: stream units) {r : Reading} {c : ι}
    (hcommand : r.command = some (cfg.command c)) :
    (t.sys.call c).captured =
      ((texts .normal (t.sys.call c).delivered).map trim).filter (regexMatch r.form) := by
  obtain ⟨acts, h⟩ := handedOn_of_exec hrun
  obtain ⟨szSend, hreading⟩ := Reading.command_eq hcommand
  rw [captured_reading hreading (wellFormed_of_exec (wellFormed_init cfg) h.run)]
  exact filter_texts fun pkt hpkt htype => not_form_of_reboot hrun hstream hpkt htype r

/-- These frames stand together in the stream. -/
theorem recorded_of_exec {units : List StreamUnit} {events : List (ReceivePath.Event ι)}
    {t : ReceivePath ι (List Str) κ}
    (hrun : exec (ReceivePath.step cfg) (ReceivePath.init cfg callback) events = some t)
    (hstream : (chunks events).flatten <+: stream units) {r : Reading} {c : ι}
    (hcommand : r.command = some (cfg.command c)) :
    ∃ frames, frames <:+: (ofTag StreamUnit.kind .normal units).map StreamUnit.bytes ∧
      (t.sys.call c).captured = (frames.map trim).filter (regexMatch r.form) :=
  ⟨_, texts_infix_stream hrun hstream (by decide) c, captured_of_exec hrun hstream hcommand⟩

/-- A looped reading that detaches on time has recorded the lines of its form up to the end of the
round. -/
theorem recorded_of_onTime {s t : Sys ι (List Str)} {acts : List (Action ι)} {r : Reading} {c : ι}
    (hcommand : r.command = some (cfg.command c)) (hloop : r.loop = true)
    (hrun : RunsAfterAttach cfg c s acts t) (htime : DetachesOnTime cfg c s acts) :
    (t.call c).captured =
      (((pushes acts).takeWhile fun pkt => !r.ends pkt).map PacketContent.toString).filter
        (regexMatch r.form) := by
  obtain ⟨szSend, hreading⟩ := Reading.command_eq hcommand
  have hwindow : (t.call c).delivered = Judge.window (cfg.command c).judge
      (cfg.command c).captured (pushes acts) := (exactWindow_iff hrun).mpr htime
  rw [captured_reading hreading hrun.wellFormed, hwindow, hreading]
  exact Reading.filter_window hloop szSend _ _

end Runs

/-- Whatever the cut of the stream and the schedule, a reading hands out the lines of its form among
contiguous frames of the reader's stream, each once and in order; and a looped reading that detaches
on time hands out all of them up to the end of the round or the request for a restart. -/
theorem reading_hands_out {ι κ : Type*} [DecidableEq ι] (cfg : Config ι (List Str)) (r : Reading)
    (c : ι) (hcommand : r.command = some (cfg.command c)) :
    (∀ (callback : Option κ) (units : List StreamUnit) (events : List (ReceivePath.Event ι))
      (t : ReceivePath ι (List Str) κ),
      exec (ReceivePath.step cfg) (ReceivePath.init cfg callback) events = some t →
      (chunks events).flatten <+: stream units →
        ∃ frames, frames <:+: (ofTag StreamUnit.kind .normal units).map StreamUnit.bytes ∧
          (t.sys.call c).captured = (frames.map trim).filter (regexMatch r.form)) ∧
    ∀ (s : Sys ι (List Str)) (acts : List (Action ι)) (t : Sys ι (List Str)), r.loop = true →
      RunsAfterAttach cfg c s acts t → DetachesOnTime cfg c s acts →
        (t.call c).captured =
          (((pushes acts).takeWhile fun pkt =>
            !(decide (pkt.toString = "@END".toList) ||
              decide (pkt.toString = "@Please Restart System".toList))).map
            PacketContent.toString).filter (regexMatch r.form) := by
  refine ⟨fun callback units events t hrun hstream => recorded_of_exec hrun hstream hcommand, ?_⟩
  intro s acts t hloop hrun htime
  have hends : ∀ pkt, r.ends pkt = (decide (pkt.toString = "@END".toList) ||
      decide (pkt.toString = "@Please Restart System".toList)) := by
    intro pkt
    rw [Bool.eq_iff_iff, Reading.ends_loop_iff hloop, Bool.or_eq_true, decide_eq_true_iff,
      decide_eq_true_iff]
  rw [recorded_of_onTime hcommand hloop hrun htime]
  simp only [hends]

def loopedInventory : Config Unit (List Str) := ⟨true, fun _ => inventoryEPC 4 true⟩

def tagBody : FrameBody where
  text := "@2021/04/15 11:22:27.944-Antenna1-U3000AABB1234".toList
  no_lf := by decide
  no_cr := by decide
  no_stx := by decide
  no_heartbeat := by decide

def roundTag : PacketContent := ⟨tagBody.frame, .normal⟩

def roundEnd : PacketContent := ⟨endBody.frame, .normal⟩

/-- The steps of the calls in the round. -/
def roundSteps : List (Action Unit) :=
  [.sender () (.send (.count 5)), .sender () .enterWait, .pushBack roundTag,
    .pushBack roundEnd, .sender () .leaveWait, .sender () .detach]

/-- The round with its reads. -/
def roundEvents : List (ReceivePath.Event Unit) :=
  [.sender () .launch, .sender () .attach, .sender () (.send (.count 5)), .sender () .enterWait,
    .received (tagBody.frame ++ ['\n', '@', 'E']), .handOn, .received ['N', 'D', '\r', '\n'],
    .handOn, .sender () .leaveWait, .sender () .detach]

theorem reading_hands_out_round :
    (∃ t, exec (ReceivePath.step loopedInventory)
        (ReceivePath.init loopedInventory (none : Option Unit)) roundEvents = some t ∧
      ∃ frames, frames <:+: [tagBody.frame, endBody.frame] ∧
        (t.sys.call ()).captured = (frames.map trim).filter (regexMatch rgxU)) ∧
    ((stateAfter loopedInventory
        ([.sender () .launch, .sender () .attach] ++ roundSteps)).call ()).captured =
      [tagBody.text] := by
  constructor
  · have hrun : (exec (ReceivePath.step loopedInventory)
        (ReceivePath.init loopedInventory (none : Option Unit)) roundEvents).map
          (fun t => (t.sys.call ()).captured) = some [tagBody.text] := rfl
    obtain ⟨t, ht, -⟩ := Option.map_eq_some_iff.mp hrun
    exact ⟨t, ht, (reading_hands_out loopedInventory (.inventoryEPC 4 true) () rfl).1 none
      [.frame tagBody, .frame endBody] roundEvents t ht (by decide)⟩
  · have hrun : RunsAfterAttach loopedInventory ()
        (stateAfter loopedInventory [.sender () .launch, .sender () .attach]) roundSteps
        (stateAfter loopedInventory
          ([.sender () .launch, .sender () .attach] ++ roundSteps)) :=
      ⟨[.sender () .launch], stateAfter loopedInventory [.sender () .launch], rfl, rfl, rfl⟩
    have htime := (exactWindow_iff hrun).mp rfl
    exact (reading_hands_out (κ := Unit) loopedInventory (.inventoryEPC 4 true) () rfl).2 _ _ _
      rfl hrun htime

end RfidEngine
