import RfidEngine.Framing.Delivery

/-!
# What a call leaves in the buffer

Each extraction loop ends after `maxPacketExtractCount` packets, so a longer
burst of one kind stays in the buffer until more bytes come. An erase can also
join its two sides into a match of a pattern searched before. The theorems
state how far a call drains the buffer in spite of both.
-/

namespace RfidEngine

open BacktrackRegex TaggedQueue CmdHandler

variable {κ : Type*}

/-- No text in the buffer matches the pattern of the kind. -/
def NoMatch (k : PacketType) (buffer : Str) : Prop :=
  ∀ w, w <:+: buffer → ¬ Matches k w

theorem search_eq_none_iff (k : PacketType) (buffer : Str) :
    search (pattern k) buffer = none ↔ NoMatch k buffer := by
  constructor
  · intro hnone w hw hm
    obtain ⟨u, t, rfl⟩ := hw
    rw [List.append_assoc] at hnone
    exact searchFrom_ne_none
      (fun b => ⟨_, (derives_pattern_iff k b w t _).mpr ⟨hm, rfl⟩⟩) true hnone
  · intro hno
    cases hs : search (pattern k) buffer with
    | none => rfl
    | some m =>
        obtain ⟨hbuf, b, hd⟩ := searchFrom_sound hs
        have hm := ((derives_pattern_iff k b _ _ _).mp hd).1
        exact absurd hm (hno m.text ⟨m.before, m.after, hbuf.symm⟩)

/-- The texts that a loop erases from a buffer, one leftmost match at a time,
and the buffer it leaves. -/
def eraseLoop (r : Regex Char) : Nat → Str → List Str × Str
  | 0, buffer => ([], buffer)
  | n + 1, buffer =>
      match search r buffer with
      | none => ([], buffer)
      | some m =>
          let rest := eraseLoop r n (erase buffer m.before.length m.text.length)
          (m.text :: rest.1, rest.2)

theorem extractLoop_buffer (r : Regex Char) (k : PacketType) (n : Nat) (h : CmdHandler κ) :
    (extractLoop r k n h).1.buffer = (eraseLoop r n h.buffer).2 := by
  induction n generalizing h with
  | zero => rfl
  | succ n ih =>
      cases hs : search r h.buffer with
      | none => simp [extractLoop, extract, eraseLoop, hs]
      | some m => simp [extractLoop, extract, eraseLoop, hs, ih]

/-- A loop that ended before its cap left no match of its pattern. -/
theorem eraseLoop_noMatch (k : PacketType) {n : Nat} {buffer : Str}
    (h : (eraseLoop (pattern k) n buffer).1.length < n) :
    NoMatch k (eraseLoop (pattern k) n buffer).2 := by
  induction n generalizing buffer with
  | zero => exact absurd h (Nat.not_lt_zero _)
  | succ n ih =>
      cases hs : search (pattern k) buffer with
      | none =>
          simp only [eraseLoop, hs]
          exact (search_eq_none_iff k buffer).mp hs
      | some m =>
          simp only [eraseLoop, hs, List.length_cons] at h ⊢
          exact ih (by omega)

theorem eraseLoop_of_nil {r : Regex Char} {n : Nat} {buffer : Str}
    (h : (eraseLoop r n buffer).1 = []) : (eraseLoop r n buffer).2 = buffer := by
  cases n with
  | zero => rfl
  | succ n =>
      cases hs : search r buffer with
      | none => simp [eraseLoop, hs]
      | some m => simp [eraseLoop, hs] at h

/-- The three loops of a call: what each erased and what it left. -/
structure LoopTrace where
  normal : List Str × Str
  heartBeat : List Str × Str
  reboot : List Str × Str

def loopTrace (buffer : Str) : LoopTrace :=
  let normal := eraseLoop rgx maxPacketExtractCount buffer
  let heartBeat := eraseLoop rgxHb maxPacketExtractCount normal.2
  ⟨normal, heartBeat, eraseLoop rgxBoot maxPacketExtractCount heartBeat.2⟩

theorem taskFunc_buffer (h : CmdHandler κ) (inData : Str) :
    (taskFunc h inData).1.buffer = (loopTrace (h.buffer ++ inData)).reboot.2 := by
  simp [taskFunc, loopTrace, extractLoop_buffer]

/-- What a trace promises about the buffer that the call leaves. -/
structure DrainedUpTo (trace : LoopTrace) (buffer : Str) : Prop where
  reboot : trace.reboot.1.length < maxPacketExtractCount → NoMatch .reboot buffer
  heartBeat : trace.heartBeat.1.length < maxPacketExtractCount → trace.reboot.1 = [] →
    NoMatch .heartBeat buffer
  normal : trace.normal.1.length < maxPacketExtractCount → trace.heartBeat.1 = [] →
    trace.reboot.1 = [] → NoMatch .normal buffer

theorem taskFunc_drainedUpTo (h : CmdHandler κ) (inData : Str) :
    DrainedUpTo (loopTrace (h.buffer ++ inData)) (taskFunc h inData).1.buffer := by
  rw [taskFunc_buffer]
  refine ⟨fun hboot => eraseLoop_noMatch .reboot hboot, fun hhb hboot => ?_,
    fun hnormal hhb hboot => ?_⟩
  · have hleft : (loopTrace (h.buffer ++ inData)).reboot.2 =
        (loopTrace (h.buffer ++ inData)).heartBeat.2 := eraseLoop_of_nil hboot
    rw [hleft]
    exact eraseLoop_noMatch .heartBeat hhb
  · have hleft : (loopTrace (h.buffer ++ inData)).reboot.2 =
        (loopTrace (h.buffer ++ inData)).normal.2 :=
      (eraseLoop_of_nil hboot).trans (eraseLoop_of_nil hhb)
    rw [hleft]
    exact eraseLoop_noMatch .normal hnormal

/-- A buffer of units has a match of a kind exactly when it has a unit of the kind. -/
theorem noMatch_stream_iff (k : PacketType) (pending : List StreamUnit) {part : Str}
    (hpart : Incomplete part) :
    NoMatch k (stream pending ++ part) ↔ ofTag StreamUnit.kind k pending = [] := by
  rw [← search_eq_none_iff]
  rcases exists_first StreamUnit.kind k pending with hall | ⟨front, u, back, rfl, hfront, hu⟩
  · have hnil : ofTag StreamUnit.kind k pending = [] := by simpa [ofTag] using hall
    simp [search_pattern_eq_none hall hpart, hnil]
  · obtain ⟨c, hc⟩ := search_pattern_eq_some hfront hu (stream back ++ part)
    have hbuf : stream (front ++ u :: back) ++ part =
        stream front ++ (u.bytes ++ (stream back ++ part)) := by
      simp
    rw [hbuf, hc, ofTag_of_first StreamUnit.kind hfront hu]
    simp

/-- Before a call on a stream the buffer and the new bytes hold `waiting` units and
part of the next; after it a unit of a kind is left iff more than the cap waited. -/
theorem taskFunc_drains_stream (callback : Option κ) {units : List StreamUnit}
    {chunks : List Str} {c : Str} (h : (chunks ++ [c]).flatten <+: stream units) :
    ∃ waiting part, Incomplete part ∧
      (receive (init callback) chunks).1.buffer ++ c = stream waiting ++ part ∧
      ∀ k, NoMatch k (taskFunc (receive (init callback) chunks).1 c).1.buffer ↔
        (ofTag StreamUnit.kind k waiting).length ≤ maxPacketExtractCount := by
  rw [List.flatten_append, List.flatten_singleton] at h
  obtain ⟨full, pending, part, hacc⟩ :=
    accounted_receive callback ((List.prefix_append _ _).trans h)
  obtain ⟨newly, part', hpart', hnewly, hacc'⟩ := hacc.taskFunc (receive_callback _ chunks) h
  refine ⟨pending ++ newly, part', hpart', ?_, fun k => ?_⟩
  · rw [hacc.buffer_eq, List.append_assoc, hnewly, stream_append, List.append_assoc]
  · have hbuf : (taskFunc (receive (init callback) chunks).1 c).1.buffer =
        stream (drainAll (pending ++ newly)) ++ part' := hacc'.buffer_eq
    rw [hbuf, noMatch_stream_iff k _ hpart', ofTag_drainAll, List.drop_eq_nil_iff]

/-- A call drains the buffer up to the cap: any buffer as far as its loops ended
early and erased nothing behind a pattern's back, and a stream of units exactly
when no more than the cap of a kind were waiting. -/
theorem taskFunc_drains :
    (∀ (h : CmdHandler κ) (inData : Str),
      DrainedUpTo (loopTrace (h.buffer ++ inData)) (taskFunc h inData).1.buffer) ∧
    ∀ (callback : Option κ) (units : List StreamUnit) (chunks : List Str) (c : Str),
      (chunks ++ [c]).flatten <+: stream units →
      ∃ waiting part, Incomplete part ∧
        (receive (init callback) chunks).1.buffer ++ c = stream waiting ++ part ∧
        ∀ k, NoMatch k (taskFunc (receive (init callback) chunks).1 c).1.buffer ↔
          (ofTag StreamUnit.kind k waiting).length ≤ maxPacketExtractCount :=
  ⟨taskFunc_drainedUpTo, fun callback _ _ _ h => taskFunc_drains_stream callback h⟩

/-- Twenty-one `@END` frames. -/
def endBurst : List StreamUnit := List.replicate 21 (.frame endBody)

theorem endBurst_length : (stream endBurst).length = 147 := by
  simp [stream, endBurst, StreamUnit.bytes, FrameBody.frame, endBody]

/-- A burst of 147 bytes in one read: the last of its frames is held back. -/
theorem taskFunc_holds_back :
    ¬ ∀ (chunks : List Str) (inData : Str), inData.length ≤ 1024 → ∀ k,
      NoMatch k (taskFunc (receive (init (none : Option Unit)) chunks).1 inData).1.buffer := by
  intro hall
  have hno := hall [] (stream endBurst) (by rw [endBurst_length]; omega) .normal
  have hbuf : [] ++ stream endBurst = stream endBurst ++ [] := (List.append_nil _).symm
  obtain ⟨out, hrun, -⟩ := taskFunc_stream endBurst incomplete_nil (none : Option Unit) hbuf
  have hrun' : taskFunc (receive (init (none : Option Unit)) []).1 (stream endBurst) = _ := hrun
  rw [hrun'] at hno
  have hnil := (noMatch_stream_iff .normal _ incomplete_nil).mp hno
  rw [ofTag_drainAll] at hnil
  exact absurd (congrArg List.length hnil) (by decide)

/-- The burst as one chunk of a stream. -/
theorem taskFunc_drains_endBurst :
    ∃ waiting part, Incomplete part ∧
      (receive (init (none : Option Unit)) []).1.buffer ++ stream endBurst =
        stream waiting ++ part ∧
      ∀ k, NoMatch k (taskFunc (receive (init (none : Option Unit)) []).1
          (stream endBurst)).1.buffer ↔
        (ofTag StreamUnit.kind k waiting).length ≤ maxPacketExtractCount :=
  taskFunc_drains.2 none endBurst [] (stream endBurst) (by simp)

end RfidEngine
