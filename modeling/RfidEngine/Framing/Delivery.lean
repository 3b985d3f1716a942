import RfidEngine.Framing.Matches

/-!
# Framing delivers every unit once and in order

On a stream of well-formed units the handler is a queue drained by kind: each
extraction loop takes the oldest units of its kind, at most
`maxPacketExtractCount` of them, and leaves the bytes of all other units and of
the incomplete unit at the end as they are.
-/

namespace RfidEngine

open BacktrackRegex TaggedQueue CmdHandler

variable {κ : Type*}

/-- The texts of a kind that left the handler, in order. -/
def delivered (k : PacketType) (out : List (Output κ)) : List Str :=
  out.filterMap fun
    | .pushBack pkt => if pkt.packetType = k then some pkt.vtBuffer else none
    | .heartbeat _ echo => if k = .heartBeat then some echo else none

@[simp] theorem delivered_nil (k : PacketType) : delivered k ([] : List (Output κ)) = [] := rfl

@[simp] theorem delivered_append (k : PacketType) (out more : List (Output κ)) :
    delivered k (out ++ more) = delivered k out ++ delivered k more := by
  simp [delivered]

/-- Units of kind `k` are handed over unless they are heartbeats and no callback is set. -/
def Listened (k : PacketType) (callback : Option κ) : Prop :=
  k = .heartBeat → callback.isSome = true

/-- A unit leaves the handler under its own kind only, and unaltered. -/
theorem delivered_emit (u : StreamUnit) (k : PacketType) (callback : Option κ)
    (hcb : Listened k callback) :
    delivered k (emit u.kind callback ⟨u.bytes, u.kind⟩) =
      if u.kind = k then [u.bytes] else [] := by
  cases u with
  | frame body => cases k <;> simp [StreamUnit.kind, emit, delivered]
  | heartbeat b =>
      cases callback with
      | none =>
          have hne : k ≠ .heartBeat := fun hk => by simpa using hcb hk
          simp [StreamUnit.kind, emit, Ne.symm hne]
      | some cb =>
          cases k <;> simp [StreamUnit.kind, emit, delivered, PacketContent.toString,
            StreamUnit.bytes, b.trim_text]
  | reboot => cases k <;> simp [StreamUnit.kind, emit, delivered]

/-- Erasing the found unit splices its two sides. -/
theorem erase_stream (front t text : Str) :
    erase (front ++ (text ++ t)) front.length text.length = front ++ t := by
  have hfront : (front ++ (text ++ t)).take front.length = front := List.take_left
  have hback : (front ++ (text ++ t)).drop (front.length + text.length) = t := by
    rw [← List.append_assoc, ← List.length_append, List.drop_left]
  rw [erase, hfront, hback]

theorem extract_eq_none {k : PacketType} {pending : List StreamUnit} {part : Str}
    (callback : Option κ) (h : ∀ u ∈ pending, u.kind ≠ k) (hpart : Incomplete part) :
    extract (pattern k) k (⟨stream pending ++ part, callback⟩ : CmdHandler κ) = none := by
  simp [extract, search_pattern_eq_none h hpart]

theorem extract_eq_some {front back : List StreamUnit} {u : StreamUnit} (part : Str)
    (callback : Option κ) (hfront : ∀ x ∈ front, x.kind ≠ u.kind) :
    extract (pattern u.kind) u.kind
        (⟨stream (front ++ u :: back) ++ part, callback⟩ : CmdHandler κ) =
      some (⟨stream (front ++ back) ++ part, callback⟩,
        emit u.kind callback ⟨u.bytes, u.kind⟩) := by
  obtain ⟨c, hc⟩ := search_pattern_eq_some hfront rfl (stream back ++ part)
  have hbuf : stream (front ++ u :: back) ++ part =
      stream front ++ (u.bytes ++ (stream back ++ part)) := by
    simp
  simp only [extract, hbuf, hc, Option.map_some, erase_stream]
  simp

/-- One loop drains the units of its kind, at most as many as it may extract. -/
theorem extractLoop_stream (k : PacketType) (n : Nat) (pending : List StreamUnit)
    {part : Str} (hpart : Incomplete part) (callback : Option κ) :
    ∃ out, extractLoop (pattern k) k n ⟨stream pending ++ part, callback⟩ =
        (⟨stream (drain StreamUnit.kind k n pending) ++ part, callback⟩, out) ∧
      ∀ k', Listened k' callback → delivered k' out =
        if k' = k then ((ofTag StreamUnit.kind k pending).take n).map StreamUnit.bytes
        else [] := by
  induction n generalizing pending with
  | zero => exact ⟨[], by simp [extractLoop, drain], by simp⟩
  | succ n ih =>
      rcases exists_first StreamUnit.kind k pending with hall | ⟨front, u, back, rfl, hfront, rfl⟩
      · refine ⟨[], ?_, ?_⟩
        · simp [extractLoop, extract_eq_none callback hall hpart,
            drain_eq_self StreamUnit.kind hall]
        · have hnil : ofTag StreamUnit.kind k pending = [] := by simpa [ofTag] using hall
          simp [hnil]
      · obtain ⟨out, hrun, hout⟩ := ih (front ++ back)
        refine ⟨emit u.kind callback ⟨u.bytes, u.kind⟩ ++ out, ?_, fun k' hk' => ?_⟩
        · rw [drain_succ_of_first StreamUnit.kind hfront rfl, extractLoop,
            extract_eq_some part callback hfront]
          simp only [hrun]
        · rw [delivered_append, delivered_emit u k' callback hk', hout k' hk',
            ofTag_of_first StreamUnit.kind hfront rfl]
          by_cases hk : u.kind = k'
          · simp [hk]
          · simp [hk, Ne.symm hk]

/-- The units that one call of `taskFunc` leaves pending. -/
def drainAll (pending : List StreamUnit) : List StreamUnit :=
  drain StreamUnit.kind .reboot maxPacketExtractCount
    (drain StreamUnit.kind .heartBeat maxPacketExtractCount
      (drain StreamUnit.kind .normal maxPacketExtractCount pending))

/-- Of each kind a call takes the oldest units up to the cap. -/
theorem ofTag_drainAll (k : PacketType) (pending : List StreamUnit) :
    ofTag StreamUnit.kind k (drainAll pending) =
      (ofTag StreamUnit.kind k pending).drop maxPacketExtractCount := by
  cases k <;> simp [drainAll, ofTag_drain_self, ofTag_drain_of_ne]

theorem drainAll_sublist (pending : List StreamUnit) : (drainAll pending).Sublist pending :=
  ((drain_sublist _ _ _ _).trans (drain_sublist _ _ _ _)).trans (drain_sublist _ _ _ _)

/-- One call on a buffer of pending units and an incomplete one. -/
theorem taskFunc_stream (pending : List StreamUnit) {part : Str} (hpart : Incomplete part)
    (callback : Option κ) {buffer inData : Str} (hbuf : buffer ++ inData = stream pending ++ part) :
    ∃ out, taskFunc ⟨buffer, callback⟩ inData =
        (⟨stream (drainAll pending) ++ part, callback⟩, out) ∧
      ∀ k, Listened k callback → delivered k out =
        ((ofTag StreamUnit.kind k pending).take maxPacketExtractCount).map StreamUnit.bytes := by
  obtain ⟨out₁, hrun₁, hout₁⟩ :=
    extractLoop_stream .normal maxPacketExtractCount pending hpart callback
  obtain ⟨out₂, hrun₂, hout₂⟩ := extractLoop_stream .heartBeat maxPacketExtractCount
    (drain StreamUnit.kind .normal maxPacketExtractCount pending) hpart callback
  obtain ⟨out₃, hrun₃, hout₃⟩ := extractLoop_stream .reboot maxPacketExtractCount
    (drain StreamUnit.kind .heartBeat maxPacketExtractCount
      (drain StreamUnit.kind .normal maxPacketExtractCount pending)) hpart callback
  refine ⟨out₁ ++ out₂ ++ out₃, ?_, fun k hk => ?_⟩
  · simp only [pattern] at hrun₁ hrun₂ hrun₃
    simp [taskFunc, hbuf, hrun₁, hrun₂, hrun₃, drainAll]
  · rw [delivered_append, delivered_append, hout₁ k hk, hout₂ k hk, hout₃ k hk]
    cases k <;> simp [ofTag_drain_of_ne]

/-- The units received in full, those of them pending in the buffer and the part
received of the next unit account for all received bytes and all outputs. -/
structure Accounted (units : List StreamUnit) (callback : Option κ) (received : Str)
    (r : CmdHandler κ × List (Output κ)) (full pending : List StreamUnit) (part : Str) :
    Prop where
  full_prefix : full <+: units
  received_eq : received = stream full ++ part
  part_next : part ≠ [] → ∃ u, full ++ [u] <+: units ∧ part <+: u.bytes ∧ part ≠ u.bytes
  buffer_eq : r.1.buffer = stream pending ++ part
  pending_sublist : pending.Sublist full
  delivered_eq : ∀ k, Listened k callback →
    delivered k r.2 ++ (ofTag StreamUnit.kind k pending).map StreamUnit.bytes =
      (ofTag StreamUnit.kind k full).map StreamUnit.bytes

/-- What has been handed over is an initial segment of the stream's units of the kind. -/
theorem Accounted.delivered_prefix {units : List StreamUnit} {callback : Option κ}
    {received : Str} {r : CmdHandler κ × List (Output κ)} {full pending : List StreamUnit}
    {part : Str} (h : Accounted units callback received r full pending part)
    {k : PacketType} (hk : Listened k callback) :
    delivered k r.2 <+: (ofTag StreamUnit.kind k units).map StreamUnit.bytes := by
  obtain ⟨more, rfl⟩ := h.full_prefix
  rw [ofTag_append, List.map_append, ← h.delivered_eq k hk, List.append_assoc]
  exact List.prefix_append _ _

/-- Two accounts of one text agree on the units received in full. -/
theorem stream_append_inj {units full full' : List StreamUnit} {part part' more : Str}
    (hfull : full <+: units) (hfull' : full' <+: units)
    (hlong : stream full' ++ part' = stream full ++ part ++ more)
    (hnext : part' ≠ [] → ∃ u, full' ++ [u] <+: units ∧ part' <+: u.bytes ∧ part' ≠ u.bytes) :
    ∃ newly, full' = full ++ newly ∧ part ++ more = stream newly ++ part' := by
  rcases List.prefix_or_prefix_of_prefix hfull hfull' with ⟨newly, rfl⟩ | ⟨extra, rfl⟩
  · refine ⟨newly, rfl, ?_⟩
    simpa using hlong.symm
  · cases extra with
    | nil => exact ⟨[], by simp, by simpa using hlong.symm⟩
    | cons u extra =>
        -- The shorter account would have the whole of `u` in its incomplete part.
        have heq : part' = u.bytes ++ (stream extra ++ (part ++ more)) := by
          simpa using hlong
        have hne : part' ≠ [] := by
          rw [heq]
          simp [u.bytes_ne_nil]
        obtain ⟨v, hv, hpre, hpv⟩ := hnext hne
        have huv : v = u := by
          obtain ⟨rest, rfl⟩ := hfull
          simpa using hv
        subst huv
        have hle := hpre.length_le
        rw [heq] at hle hpv
        simp only [List.length_append] at hle
        have hnil : stream extra ++ (part ++ more) = [] := by
          apply List.eq_nil_of_length_eq_zero
          simp only [List.length_append]
          omega
        exact absurd (by rw [hnil, List.append_nil]) hpv

theorem accounted_init (units : List StreamUnit) (callback : Option κ) :
    Accounted units callback [] (init callback, []) [] [] [] where
  full_prefix := List.nil_prefix
  received_eq := rfl
  part_next := fun h => absurd rfl h
  buffer_eq := rfl
  pending_sublist := List.Sublist.refl _
  delivered_eq := by simp [ofTag]

theorem taskFunc_callback (h : CmdHandler κ) (inData : Str) :
    (taskFunc h inData).1.heartbeatCallbackFunction = h.heartbeatCallbackFunction := by
  have hloop : ∀ (r : Regex Char) (k : PacketType) (n : Nat) (h : CmdHandler κ),
      (extractLoop r k n h).1.heartbeatCallbackFunction = h.heartbeatCallbackFunction := by
    intro r k n
    induction n with
    | zero => intro h; rfl
    | succ n ih =>
        intro h
        cases he : extract r k h with
        | none => simp [extractLoop, he]
        | some p =>
            obtain ⟨m, -, rfl⟩ := Option.map_eq_some_iff.mp he
            simp [extractLoop, he, ih]
  simp [taskFunc, hloop]

theorem receive_callback (h : CmdHandler κ) (chunks : List Str) :
    (receive h chunks).1.heartbeatCallbackFunction = h.heartbeatCallbackFunction := by
  induction chunks generalizing h with
  | nil => rfl
  | cons c chunks ih => simp [receive, ih, taskFunc_callback]

/-- One more chunk keeps the account. -/
theorem Accounted.taskFunc {units : List StreamUnit} {callback : Option κ} {received c : Str}
    {r : CmdHandler κ × List (Output κ)} {full pending : List StreamUnit} {part : Str}
    (h : Accounted units callback received r full pending part)
    (hcb : r.1.heartbeatCallbackFunction = callback) (hc : received ++ c <+: stream units) :
    ∃ newly part', Incomplete part' ∧ part ++ c = stream newly ++ part' ∧
      Accounted units callback (received ++ c)
        ((CmdHandler.taskFunc r.1 c).1, r.2 ++ (CmdHandler.taskFunc r.1 c).2)
        (full ++ newly) (drainAll (pending ++ newly)) part' := by
  obtain ⟨full', part', hfull', hreceived', hpart', hnext'⟩ := stream_prefix hc
  obtain ⟨newly, rfl, hnewly⟩ := stream_append_inj h.full_prefix hfull'
    (by rw [← hreceived', h.received_eq]) hnext'
  have hbuf : r.1.buffer ++ c = stream (pending ++ newly) ++ part' := by
    rw [h.buffer_eq, List.append_assoc, hnewly, stream_append, List.append_assoc]
  obtain ⟨out, hrun, hout⟩ := taskFunc_stream (pending ++ newly) hpart' callback hbuf
  have hrun' : CmdHandler.taskFunc r.1 c =
      (⟨stream (drainAll (pending ++ newly)) ++ part', callback⟩, out) := by
    rw [← hrun, ← hcb]
  refine ⟨newly, part', hpart', hnewly, ?_⟩
  rw [hrun']
  refine ⟨hfull', hreceived', hnext', rfl, ?_, fun k hk => ?_⟩
  · exact (drainAll_sublist _).trans (h.pending_sublist.append (List.Sublist.refl newly))
  · calc
      delivered k (r.2 ++ out) ++
            (ofTag StreamUnit.kind k (drainAll (pending ++ newly))).map StreamUnit.bytes =
          delivered k r.2 ++ (ofTag StreamUnit.kind k (pending ++ newly)).map StreamUnit.bytes := by
        rw [delivered_append, hout k hk, ofTag_drainAll, List.append_assoc, ← List.map_append,
          List.take_append_drop]
      _ = (ofTag StreamUnit.kind k (full ++ newly)).map StreamUnit.bytes := by
        rw [ofTag_append, ofTag_append, List.map_append, List.map_append, ← List.append_assoc,
          h.delivered_eq k hk]

/-- Every chunking of a stream keeps the account. -/
theorem accounted_receive {units : List StreamUnit} (callback : Option κ) {chunks : List Str}
    (h : chunks.flatten <+: stream units) :
    ∃ full pending part, Accounted units callback chunks.flatten
      (receive (init callback) chunks) full pending part := by
  induction chunks using List.reverseRecOn with
  | nil => exact ⟨[], [], [], accounted_init units callback⟩
  | append_singleton chunks c ih =>
      rw [List.flatten_append, List.flatten_singleton] at h
      obtain ⟨full, pending, part, hacc⟩ := ih ((List.prefix_append _ _).trans h)
      obtain ⟨newly, part', -, -, hacc'⟩ := hacc.taskFunc (receive_callback _ chunks) h
      exact ⟨full ++ newly, drainAll (pending ++ newly), part', by
        simpa [receive_snoc] using hacc'⟩

/-- Framing loses nothing: after any chunks of a stream, what was handed over of
a kind is an initial segment of the stream's units of that kind, and the other
units received in full are in the buffer, complete and in order. -/
theorem framing_loses_nothing (callback : Option κ) (units : List StreamUnit)
    (chunks later : List Str) (hcut : (chunks ++ later).flatten = stream units) :
    ∃ full pending part,
      Accounted units callback chunks.flatten (receive (init callback) chunks)
        full pending part ∧
      ∀ k, Listened k callback →
        delivered k (receive (init callback) chunks).2 <+:
          (ofTag StreamUnit.kind k units).map StreamUnit.bytes := by
  have hpre : chunks.flatten <+: stream units := by
    rw [← hcut, List.flatten_append]
    exact List.prefix_append _ _
  obtain ⟨full, pending, part, hacc⟩ := accounted_receive callback hpre
  exact ⟨full, pending, part, hacc, fun k hk => hacc.delivered_prefix hk⟩

def endBody : FrameBody where
  text := "@END".toList
  no_lf := by decide
  no_cr := by decide
  no_stx := by decide
  no_heartbeat := by decide

def sampleHeartbeat : HeartbeatText where
  id := ['3']
  id_ne := by decide
  id_hex := List.all_eq_true.mp rfl
  first := ⟨'0', '0', by decide, by decide⟩
  second := ⟨'1', '6', by decide, by decide⟩
  third := ⟨'4', '4', by decide, by decide⟩

/-- A chunk boundary inside a frame and another one inside a heartbeat. -/
theorem framing_loses_nothing_mixed :
    ∃ full pending part,
      Accounted [.frame endBody, .heartbeat sampleHeartbeat, .reboot] (some ())
        ["\n@E".toList, "ND\r\n3heart".toList].flatten
        (receive (init (some ())) ["\n@E".toList, "ND\r\n3heart".toList])
        full pending part ∧
      ∀ k, Listened k (some ()) →
        delivered k (receive (init (some ())) ["\n@E".toList, "ND\r\n3heart".toList]).2 <+:
          (ofTag StreamUnit.kind k
            [.frame endBody, .heartbeat sampleHeartbeat, .reboot]).map StreamUnit.bytes :=
  framing_loses_nothing (some ()) [.frame endBody, .heartbeat sampleHeartbeat, .reboot]
    ["\n@E".toList, "ND\r\n3heart".toList] ["beat00-16-44\x02A\r".toList] (by decide)

end RfidEngine
