import RfidEngine.Framing.Drain

/-!
# A byte lost on the line

A frame that has lost a byte leaves a residue in the buffer, or is taken as a
packet of its own. The frames behind it begin with an LF, which no residue but
one can use: a frame without its last LF is completed by the first LF of the
next, whose rest is then a residue in its place.

## Main results

The other frames are pushed, unaltered and in order, exactly where the lost
byte is not the last LF of its frame, or the next frame has the same body.
-/

namespace RfidEngine

open BacktrackRegex CmdHandler

variable {κ : Type*}

theorem Matches.cr_mem {w : Str} (h : Matches .normal w) : '\r' ∈ w := by
  obtain ⟨body, -, -, rfl⟩ := h
  simp

theorem Matches.two_le_count_lf {w : Str} (h : Matches .normal w) : 2 ≤ w.count '\n' := by
  obtain ⟨body, -, -, rfl⟩ := h
  simp

/-- The buffer holds no packet of any kind. -/
def Quiet (s : Str) : Prop := ∀ k, NoMatch k s

/-- A text is quiet that has only one LF or no CR, and neither the byte of the reboot marker nor
the word of a heartbeat. -/
theorem quiet_of {s : Str} (hnormal : s.count '\n' ≤ 1 ∨ '\r' ∉ s)
    (hword : ¬ "heartbeat".toList <:+: s) (hstx : '\x02' ∉ s) : Quiet s := by
  intro k w hw hm
  cases k with
  | normal =>
      obtain hlf | hcr := hnormal
      · have hle := (hw.sublist.count_le '\n').trans hlf
        have htwo := hm.two_le_count_lf
        omega
      · exact hcr (hw.subset hm.cr_mem)
  | heartBeat => exact hword (hm.has_heartbeat.trans hw)
  | reboot =>
      obtain ⟨w', rfl⟩ := hm.head_stx
      exact hstx (hw.subset List.mem_cons_self)

theorem quiet_nil : Quiet [] := quiet_of (Or.inl (by simp)) (by decide) List.not_mem_nil

theorem extractLoop_of_noMatch {k : PacketType} {h : CmdHandler κ} (hno : NoMatch k h.buffer)
    (n : Nat) : extractLoop (pattern k) k n h = (h, []) := by
  cases n with
  | zero => rfl
  | succ n => simp [extractLoop, extract, (search_eq_none_iff k h.buffer).mpr hno]

/-- The loops find nothing in a quiet buffer. -/
theorem loops_of_quiet (h : CmdHandler κ) (hquiet : Quiet h.buffer) (n : Nat) :
    extractLoop rgx .normal n h = (h, []) ∧ extractLoop rgxHb .heartBeat n h = (h, []) ∧
      extractLoop rgxBoot .reboot n h = (h, []) :=
  ⟨extractLoop_of_noMatch (hquiet .normal) n, extractLoop_of_noMatch (hquiet .heartBeat) n,
    extractLoop_of_noMatch (hquiet .reboot) n⟩

/-- The outputs that push texts as normal packets. -/
def pushBacks (texts : List Str) : List (Output κ) := texts.map fun w => .pushBack ⟨w, .normal⟩

theorem delivered_pushBacks (texts : List Str) :
    delivered .normal (pushBacks texts : List (Output κ)) = texts := by
  induction texts with
  | nil => rfl
  | cons w texts ih => exact congrArg (List.cons w) ih

theorem taskFunc_of_quiet {buffer inData : Str} (callback : Option κ)
    (hquiet : Quiet (buffer ++ inData)) :
    taskFunc ⟨buffer, callback⟩ inData = (⟨buffer ++ inData, callback⟩, pushBacks []) := by
  obtain ⟨hnormal, hheartbeat, hreboot⟩ :=
    loops_of_quiet ⟨buffer ++ inData, callback⟩ hquiet maxPacketExtractCount
  simp [taskFunc, hnormal, hheartbeat, hreboot, pushBacks]

/-- Two packets at the head of one text are the same. -/
theorem Matches.normal_unique {w w' t t' : Str} (hm : Matches .normal w)
    (hm' : Matches .normal w') (heq : w ++ t = w' ++ t') : w' = w := by
  obtain ⟨body, -, hcr, rfl⟩ := hm
  obtain ⟨body', -, hcr', rfl⟩ := hm'
  have hsplit : body ++ '\r' :: ('\n' :: t) = body' ++ '\r' :: ('\n' :: t') := by
    simpa using heq
  rw [(append_cons_inj_of_first hcr hcr' hsplit).1]

/-- A packet behind a front in which none begins is the one that is found. -/
theorem search_packet {front w : Str} (back : Str) (hm : Matches .normal w)
    (hfront : ∀ v, v <:+ front → v ≠ [] → NoHead .normal (v ++ (w ++ back))) :
    ∃ c, search rgx (front ++ (w ++ back)) = some ⟨front, w, back, c⟩ := by
  obtain ⟨b, hb⟩ := searchFrom_append_of_dead (r := rgx) (t := w ++ back)
    (fun v hv hne => (hfront v hv hne).dead) true
  obtain ⟨c, hc⟩ := searchFrom_of_head ((derives_rgx_iff b w back _).mpr ⟨hm, rfl⟩)
    fun w' t' c' heq hd => hm.normal_unique ((derives_rgx_iff b w' t' c').mp hd).1 heq
  refine ⟨c, ?_⟩
  rw [search, hb, hc]
  simp [Found.shift]

/-- A call with one packet in front of it, behind which the buffer is quiet. -/
theorem taskFunc_packet {buffer inData front w back : Str} (callback : Option κ)
    (hbuf : buffer ++ inData = front ++ (w ++ back)) (hm : Matches .normal w)
    (hfront : ∀ v, v <:+ front → v ≠ [] → NoHead .normal (v ++ (w ++ back)))
    (hquiet : Quiet (front ++ back)) :
    taskFunc ⟨buffer, callback⟩ inData = (⟨front ++ back, callback⟩, pushBacks [w]) := by
  obtain ⟨c, hc⟩ := search_packet back hm hfront
  have hextract : extract rgx .normal (⟨front ++ (w ++ back), callback⟩ : CmdHandler κ) =
      some (⟨front ++ back, callback⟩, pushBacks [w]) := by
    rw [extract, hc, Option.map_some, erase_stream]
    rfl
  obtain ⟨hnormal, -, -⟩ := loops_of_quiet ⟨front ++ back, callback⟩ hquiet 19
  have hfirst : extractLoop rgx .normal maxPacketExtractCount
      (⟨front ++ (w ++ back), callback⟩ : CmdHandler κ) =
      (⟨front ++ back, callback⟩, pushBacks [w]) := by
    rw [maxPacketExtractCount, extractLoop, hextract]
    simp [hnormal]
  obtain ⟨-, hheartbeat, hreboot⟩ :=
    loops_of_quiet ⟨front ++ back, callback⟩ hquiet maxPacketExtractCount
  simp [taskFunc, hbuf, hfirst, hheartbeat, hreboot]

/-- What a damaged frame may leave in the buffer for good: nothing in it is a packet, and none
begins in it in front of an LF. -/
structure Residue (r : Str) : Prop where
  quiet : Quiet r
  passed : ∀ v, v <:+ r → v ≠ [] → ∀ t, NoHead .normal (v ++ '\n' :: t)

theorem residue_nil : Residue [] :=
  ⟨quiet_nil, fun _ hv hne => absurd (List.suffix_nil.mp hv) hne⟩

/-- Behind a residue a packet is taken and the residue is left. -/
theorem Residue.taskFunc {r w : Str} (h : Residue r) (hm : Matches .normal w)
    (callback : Option κ) :
    CmdHandler.taskFunc ⟨r, callback⟩ w = (⟨r, callback⟩, pushBacks [w]) := by
  obtain ⟨w', rfl⟩ := hm.head_lf
  have hfront : ∀ v, v <:+ r → v ≠ [] → NoHead .normal (v ++ ('\n' :: w' ++ [])) :=
    fun v hv hne => h.passed v hv hne _
  have hquiet : Quiet (r ++ []) := (List.append_nil r).symm ▸ h.quiet
  have hbuf : r ++ '\n' :: w' = r ++ ('\n' :: w' ++ []) := by rw [List.append_nil]
  have hcall := taskFunc_packet callback hbuf hm hfront hquiet
  rwa [List.append_nil] at hcall

theorem FrameBody.matches_frame (body : FrameBody) : Matches .normal body.frame :=
  ⟨body.text, body.no_lf, body.no_cr, rfl⟩

/-- Behind a residue all frames are taken, one by one. -/
theorem Residue.receive {r : Str} (h : Residue r) (bodies : List FrameBody)
    (callback : Option κ) :
    CmdHandler.receive ⟨r, callback⟩ (bodies.map FrameBody.frame) =
      (⟨r, callback⟩, pushBacks (bodies.map FrameBody.frame)) := by
  induction bodies with
  | nil => rfl
  | cons body bodies ih =>
      rw [List.map_cons, CmdHandler.receive, h.taskFunc body.matches_frame callback]
      simp only [ih]
      rfl

/-- An LF that another one follows without a CR between them begins no packet. -/
theorem noHead_of_lf {s : Str} (hlf : '\n' ∉ s) (hcr : '\r' ∉ s) (t : Str) :
    NoHead .normal ('\n' :: s ++ '\n' :: t) := by
  rintro w hw ⟨body, hbody, -, rfl⟩
  obtain ⟨t', ht'⟩ := hw
  have hsplit : (body ++ ['\r']) ++ '\n' :: t' = s ++ '\n' :: t := by
    simpa using ht'
  have hfirst : '\n' ∉ body ++ ['\r'] := by
    rw [List.mem_append, not_or]
    exact ⟨hbody, by decide⟩
  obtain ⟨heq, -⟩ := append_cons_inj_of_first hfirst hlf hsplit
  exact hcr (heq ▸ List.mem_append_right body List.mem_cons_self)

/-- The last LF of a residue begins no packet in front of the next LF. -/
theorem passed_snoc {s : Str}
    (h : ∀ v, v <:+ s → v ≠ [] → ∀ t, NoHead .normal (v ++ '\n' :: t)) :
    ∀ v, v <:+ s ++ ['\n'] → v ≠ [] → ∀ t, NoHead .normal (v ++ '\n' :: t) := by
  have hlast : ∀ t, NoHead .normal (['\n'] ++ '\n' :: t) :=
    noHead_of_lf List.not_mem_nil List.not_mem_nil
  intro v hv hne t
  obtain hv' | ⟨v', rfl, hv'⟩ := suffix_append_cases hv
  · obtain rfl | hnil := List.suffix_cons_iff.mp hv'
    · exact hlast t
    · exact absurd (List.suffix_nil.mp hnil) hne
  · by_cases hnil : v' = []
    · rw [hnil]
      exact hlast t
    · rw [List.append_assoc]
      exact h v' hv' hnil ('\n' :: t)

/-- A text reaches into a character at the end only if it has that character. -/
theorem infix_of_infix_concat {w s : Str} {ch : Char} (hch : ch ∉ w) (h : w <:+: s ++ [ch]) :
    w <:+: s := by
  obtain hsuffix | hinfix := List.infix_concat_iff.mp h
  · obtain rfl | ⟨w', rfl, -⟩ := List.suffix_concat_iff.mp hsuffix
    · exact List.nil_infix
    · exact absurd (List.mem_append_right w' List.mem_cons_self) hch
  · exact hinfix

theorem infix_of_infix_cons {w s : Str} {ch : Char} (hch : ch ∉ w) (h : w <:+: ch :: s) :
    w <:+: s := by
  obtain hprefix | hinfix := List.infix_cons_iff.mp h
  · obtain rfl | ⟨w', rfl, -⟩ := List.prefix_cons_iff.mp hprefix
    · exact List.nil_infix
    · exact absurd List.mem_cons_self hch
  · exact hinfix

namespace FrameBody

variable (body : FrameBody)

/-- A frame without its first LF. -/
def headless : Str := body.text ++ ['\r'] ++ ['\n']

/-- A frame without its CR. -/
def unreturned : Str := '\n' :: body.text ++ ['\n']

/-- A frame without its last LF. -/
def unclosed : Str := '\n' :: body.text ++ ['\r']

/-- No packet begins in the body, nor with its CR. -/
theorem passed_text {s v : Str} (hs : '\n' ∉ s) (hv : v <:+ s) (hne : v ≠ []) (t : Str) :
    NoHead .normal (v ++ t) :=
  noHead_of_suffix hv hne fun _ ha heq => hs (heq ▸ ha)

theorem residue_headless : Residue body.headless where
  quiet := by
    refine quiet_of (Or.inl ?_) (fun h => ?_) ?_
    · simp [headless, List.count_eq_zero_of_not_mem body.no_lf]
    · exact body.no_heartbeat
        (infix_of_infix_concat (by decide) (infix_of_infix_concat (by decide) h))
    · simp [headless, body.no_stx]
  passed := by
    have hlf : '\n' ∉ body.text ++ ['\r'] := by simp [body.no_lf]
    exact passed_snoc fun v hv hne t => passed_text hlf hv hne _

theorem residue_unreturned : Residue body.unreturned where
  quiet := by
    refine quiet_of (Or.inr ?_) (fun h => ?_) ?_
    · simp [unreturned, body.no_cr]
    · exact body.no_heartbeat
        (infix_of_infix_cons (by decide) (infix_of_infix_concat (by decide) h))
    · simp [unreturned, body.no_stx]
  passed := by
    apply passed_snoc
    intro v hv hne t
    obtain rfl | hv' := List.suffix_cons_iff.mp hv
    · exact noHead_of_lf body.no_lf body.no_cr t
    · exact passed_text body.no_lf hv' hne _

theorem quiet_unclosed : Quiet body.unclosed := by
  refine quiet_of (Or.inl ?_) (fun h => ?_) ?_
  · simp [unclosed, List.count_eq_zero_of_not_mem body.no_lf]
  · exact body.no_heartbeat
      (infix_of_infix_cons (by decide) (infix_of_infix_concat (by decide) h))
  · simp [unclosed, body.no_stx]

/-- What is left of a frame without one byte: a text that lacks its first LF or its CR, another
packet, or a text that lacks its last LF. -/
theorem eraseIdx_frame (i : Fin body.frame.length) :
    ((i : Nat) + 1 < body.frame.length ∧
      (body.frame.eraseIdx i = body.headless ∨ body.frame.eraseIdx i = body.unreturned ∨
        Matches .normal (body.frame.eraseIdx i))) ∨
    ((i : Nat) + 1 = body.frame.length ∧ body.frame.eraseIdx i = body.unclosed) := by
  obtain ⟨i, hi⟩ := i
  have hlen : body.frame.length = body.text.length + 3 := by simp [frame]
  cases i with
  | zero =>
      refine Or.inl ⟨?_, Or.inl (by simp [frame, headless])⟩
      simp only
      omega
  | succ j =>
      have herase : body.frame.eraseIdx (j + 1) =
          '\n' :: (body.text ++ ['\r', '\n']).eraseIdx j := rfl
      simp only [herase]
      by_cases hj : j < body.text.length
      · rw [List.eraseIdx_append_of_lt_length hj]
        refine Or.inl ⟨by omega, Or.inr (Or.inr ⟨body.text.eraseIdx j, ?_, ?_, rfl⟩)⟩
        · exact fun h => body.no_lf (List.mem_of_mem_eraseIdx h)
        · exact fun h => body.no_cr (List.mem_of_mem_eraseIdx h)
      · rw [List.eraseIdx_append_of_length_le (by omega)]
        obtain hcr | hlf : j - body.text.length = 0 ∨ j - body.text.length = 1 := by omega
        · refine Or.inl ⟨by omega, Or.inr (Or.inl ?_)⟩
          rw [hcr]
          rfl
        · refine Or.inr ⟨by omega, ?_⟩
          rw [hlf]
          rfl

end FrameBody

theorem receive_append (h : CmdHandler κ) (chunks later : List Str) :
    receive h (chunks ++ later) =
      ((receive (receive h chunks).1 later).1,
        (receive h chunks).2 ++ (receive (receive h chunks).1 later).2) := by
  induction chunks generalizing h with
  | nil => rfl
  | cons c chunks ih => simp [receive, ih]

theorem pushBacks_append (texts more : List Str) :
    (pushBacks (texts ++ more) : List (Output κ)) = pushBacks texts ++ pushBacks more :=
  List.map_append

/-- The frames before the damaged one leave nothing behind them. -/
theorem receive_frames_append (callback : Option κ) (before : List FrameBody)
    (chunks : List Str) :
    (receive (init callback) (before.map FrameBody.frame ++ chunks)).2 =
      pushBacks (before.map FrameBody.frame) ++ (receive (init callback) chunks).2 := by
  have hbefore : receive (init callback) (before.map FrameBody.frame) =
      (init callback, pushBacks (before.map FrameBody.frame)) :=
    residue_nil.receive before callback
  rw [receive_append, hbefore]

/-- A frame that keeps its last LF leaves a residue, and is pushed itself or not. -/
theorem FrameBody.taskFunc_damaged (body : FrameBody) (callback : Option κ)
    {i : Fin body.frame.length} (hi : (i : Nat) + 1 < body.frame.length) :
    ∃ r texts, Residue r ∧
      taskFunc (init callback) (body.frame.eraseIdx i) = (⟨r, callback⟩, pushBacks texts) := by
  have hresidue : ∀ r, Residue r →
      taskFunc (init callback) r = (⟨r, callback⟩, pushBacks []) := fun r hr =>
    taskFunc_of_quiet callback hr.quiet
  obtain ⟨-, hhead | hcr | hpacket⟩ | ⟨hlast, -⟩ := body.eraseIdx_frame i
  · rw [hhead]
    exact ⟨_, [], body.residue_headless, hresidue _ body.residue_headless⟩
  · rw [hcr]
    exact ⟨_, [], body.residue_unreturned, hresidue _ body.residue_unreturned⟩
  · exact ⟨[], [_], residue_nil, residue_nil.taskFunc hpacket callback⟩
  · omega

/-- A frame without its last LF is completed by the next frame, whose rest is left. -/
theorem FrameBody.taskFunc_completed (body next : FrameBody) (callback : Option κ) :
    taskFunc ⟨body.unclosed, callback⟩ next.frame =
      (⟨next.headless, callback⟩, pushBacks [body.frame]) := by
  have hbuf : body.unclosed ++ next.frame = [] ++ (body.frame ++ next.headless) := by
    simp [unclosed, frame, headless]
  exact @taskFunc_packet κ _ _ [] body.frame next.headless callback hbuf body.matches_frame
    (fun v hv hne => absurd (List.suffix_nil.mp hv) hne) next.residue_headless.quiet

/-- The packets pushed where the damaged frame keeps its last LF. -/
theorem delivered_of_closed (callback : Option κ) (before after : List FrameBody)
    (body : FrameBody) {i : Fin body.frame.length} (hi : (i : Nat) + 1 < body.frame.length) :
    ∃ texts, delivered .normal (receive (init callback)
        (before.map FrameBody.frame ++ body.frame.eraseIdx i :: after.map FrameBody.frame)).2 =
      before.map FrameBody.frame ++ (texts ++ after.map FrameBody.frame) := by
  obtain ⟨r, texts, hr, htask⟩ := body.taskFunc_damaged callback hi
  have hrest : (receive (init callback)
      (body.frame.eraseIdx i :: after.map FrameBody.frame)).2 =
      pushBacks (texts ++ after.map FrameBody.frame) := by
    rw [receive, htask, pushBacks_append]
    simp only [hr.receive after callback]
  refine ⟨texts, ?_⟩
  rw [receive_frames_append, hrest, ← pushBacks_append, delivered_pushBacks]

/-- A frame without its last LF waits in the buffer. -/
theorem receive_unclosed (callback : Option κ) (body : FrameBody) (chunks : List Str) :
    (receive (init callback) (body.unclosed :: chunks)).2 =
      (receive ⟨body.unclosed, callback⟩ chunks).2 := by
  have htask : taskFunc (init callback) body.unclosed =
      (⟨body.unclosed, callback⟩, pushBacks []) :=
    taskFunc_of_quiet callback body.quiet_unclosed
  rw [receive, htask]
  rfl

/-- The packets pushed where the damaged frame has lost its last LF and another follows: the
damaged frame is among them, the one behind it is not. -/
theorem delivered_of_unclosed (callback : Option κ) (before rest : List FrameBody)
    (body next : FrameBody) :
    delivered .normal (receive (init callback)
        (before.map FrameBody.frame ++
          body.unclosed :: (next :: rest).map FrameBody.frame)).2 =
      before.map FrameBody.frame ++ body.frame :: rest.map FrameBody.frame := by
  have hnext : (receive ⟨body.unclosed, callback⟩ ((next :: rest).map FrameBody.frame)).2 =
      pushBacks (body.frame :: rest.map FrameBody.frame) := by
    rw [List.map_cons, receive, body.taskFunc_completed next callback]
    simp only [next.residue_headless.receive rest callback]
    rfl
  rw [receive_frames_append, receive_unclosed, hnext, ← pushBacks_append, delivered_pushBacks]

theorem delivered_of_last (callback : Option κ) (before : List FrameBody) (body : FrameBody) :
    delivered .normal (receive (init callback)
        (before.map FrameBody.frame ++ [body.unclosed])).2 = before.map FrameBody.frame := by
  rw [receive_frames_append, receive_unclosed]
  exact (congrArg (delivered .normal) (List.append_nil _)).trans (delivered_pushBacks _)

theorem FrameBody.frame_inj {body next : FrameBody} (h : body.frame = next.frame) :
    body.text = next.text :=
  List.append_cancel_right (List.cons.inj h).2

/-- All frames but the damaged one are pushed, unaltered and in order, exactly where the lost
byte is not the last of its frame or a frame that follows has the same body. -/
theorem lostByte_resynchronised_iff (callback : Option κ) (before after : List FrameBody)
    (body : FrameBody) (i : Fin body.frame.length) :
    ((before ++ after).map FrameBody.frame).Sublist (delivered .normal (receive (init callback)
        (before.map FrameBody.frame ++ body.frame.eraseIdx i :: after.map FrameBody.frame)).2) ↔
      (i : Nat) + 1 < body.frame.length ∨
        ∀ next, after.head? = some next → next.text = body.text := by
  rw [List.map_append]
  by_cases hi : (i : Nat) + 1 < body.frame.length
  · obtain ⟨texts, hdelivered⟩ := delivered_of_closed callback before after body hi
    rw [hdelivered]
    refine iff_of_true ?_ (Or.inl hi)
    exact (List.sublist_append_right texts _).append_left _
  · obtain ⟨hlt, -⟩ | ⟨-, hunclosed⟩ := body.eraseIdx_frame i
    · exact absurd hlt hi
    rw [hunclosed]
    cases after with
    | nil =>
        rw [List.map_nil, delivered_of_last callback before body, List.append_nil]
        exact iff_of_true (List.Sublist.refl _) (Or.inr fun next hnext => by simp at hnext)
    | cons next rest =>
        rw [delivered_of_unclosed callback before rest body next]
        constructor
        · intro hsub
          have heq := hsub.eq_of_length (by simp)
          have hcons := List.append_cancel_left heq
          refine Or.inr fun next' hnext => ?_
          obtain rfl := Option.some.inj hnext
          exact FrameBody.frame_inj (List.cons.inj hcons).1
        · rintro (hlt | hsame)
          · exact absurd hlt hi
          · have hframe : next.frame = body.frame :=
              congrArg (fun s => '\n' :: s ++ ['\r', '\n']) (hsame next rfl)
            rw [List.map_cons, hframe]

/-- The frame of a round without a tag. -/
def emptyRoundBody : FrameBody where
  text := ['U']
  no_lf := by decide
  no_cr := by decide
  no_stx := by decide
  no_heartbeat := by decide

/-- `@END` without its last LF is pushed in full, and the frame behind it is not. -/
theorem frame_lost_behind_unclosed :
    delivered .normal (receive (init (none : Option Unit))
        [endBody.frame.eraseIdx 6, emptyRoundBody.frame]).2 = [endBody.frame] ∧
      ¬ ([emptyRoundBody].map FrameBody.frame).Sublist (delivered .normal
        (receive (init (none : Option Unit)) [endBody.frame.eraseIdx 6,
          emptyRoundBody.frame]).2) := by
  have hdelivered := delivered_of_unclosed (none : Option Unit) [] [] endBody emptyRoundBody
  have hchunks : [endBody.frame.eraseIdx 6, emptyRoundBody.frame] =
      [].map FrameBody.frame ++ endBody.unclosed :: [emptyRoundBody].map FrameBody.frame := rfl
  rw [hchunks, hdelivered]
  exact ⟨rfl, by decide⟩

end RfidEngine
