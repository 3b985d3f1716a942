import RfidEngine.AsyncSend.Window
import RfidEngine.Framing.LostByte

/-!
# From the received bytes to the calls

The receive thread frames what it has read and hands the packets on one at a
time, while senders and watchdogs take their own steps in between; it reads
again when the last packet has been handed on. A call therefore sees a
contiguous part of the reader's stream, however the stream was cut into reads
and however the threads were scheduled.

A `push_back` is one step with all its updates, as in `AsyncSend`: no observer
comes or goes while `notify` is in its loop.
-/

namespace RfidEngine

open StepSystem AsyncSend TaggedQueue

variable {ι ρ κ : Type*}

/-- The system with the receive thread's handler and what it has framed but not handed on. -/
structure ReceivePath (ι ρ κ : Type*) where
  sys : Sys ι ρ
  handler : CmdHandler κ
  pending : List (Output κ)

namespace ReceivePath

inductive Event (ι : Type*) where
  | received (inData : Str)
  | handOn
  | sender (c : ι) (move : Move)
  | watchDog (c : ι) (move : WatchDogMove)
  deriving DecidableEq

/-- The reads of a run. -/
def chunks (events : List (Event ι)) : List Str :=
  events.filterMap fun
    | .received inData => some inData
    | _ => none

theorem chunks_snoc_received (events : List (Event ι)) (inData : Str) :
    chunks (events ++ [.received inData]) = chunks events ++ [inData] := by
  simp [chunks]

/-- Only a read is counted. -/
theorem chunks_snoc {event : Event ι} (h : chunks [event] = []) (events : List (Event ι)) :
    chunks (events ++ [event]) = chunks events := by
  rw [chunks, List.filterMap_append]
  exact (congrArg _ h).trans (List.append_nil _)

/-- The packets among some outputs. -/
def pushed (out : List (Output κ)) : List PacketContent :=
  out.filterMap fun
    | .pushBack pkt => some pkt
    | .heartbeat _ _ => none

/-- The contents of the packets of a type. -/
def texts (k : PacketType) (packets : List PacketContent) : List Str :=
  packets.filterMap fun pkt => if pkt.packetType = k then some pkt.vtBuffer else none

section Step

variable [DecidableEq ι]

/-- `recv_callback` and what it calls, with the threads of the calls beside it; a packet is pushed
and given to all observers in one step. -/
def step (cfg : Config ι ρ) (s : ReceivePath ι ρ κ) : Event ι → Option (ReceivePath ι ρ κ)
  | .received inData =>
      match s.sys.abort, s.pending with
      | none, [] =>
          let framed := s.handler.taskFunc inData
          some { s with handler := framed.1, pending := framed.2 }
      | _, _ => none
  | .handOn =>
      match s.pending with
      | [] => none
      | .pushBack pkt :: rest =>
          (AsyncSend.step cfg s.sys (.pushBack pkt)).map fun sys =>
            { s with sys := sys, pending := rest }
      | .heartbeat _ _ :: rest =>
          match s.sys.abort with
          | some _ => none
          | none => some { s with pending := rest }
  | .sender c move =>
      (AsyncSend.step cfg s.sys (.sender c move)).map fun sys => { s with sys := sys }
  | .watchDog c move =>
      (AsyncSend.step cfg s.sys (.watchDog c move)).map fun sys => { s with sys := sys }

end Step

/-- A connected reader before its first read. -/
def init (cfg : Config ι ρ) (callback : Option κ) : ReceivePath ι ρ κ :=
  ⟨Sys.init cfg, CmdHandler.init callback, []⟩

/-- What an event asks of the calls. -/
def acts (s : ReceivePath ι ρ κ) : Event ι → List (Action ι)
  | .received _ => []
  | .handOn =>
      match s.pending with
      | .pushBack pkt :: _ => [.pushBack pkt]
      | _ => []
  | .sender c move => [.sender c move]
  | .watchDog c move => [.watchDog c move]

@[simp] theorem pushed_nil : pushed ([] : List (Output κ)) = [] := rfl

@[simp] theorem pushed_append (out more : List (Output κ)) :
    pushed (out ++ more) = pushed out ++ pushed more := List.filterMap_append ..

@[simp] theorem pushed_pushBack (pkt : PacketContent) (rest : List (Output κ)) :
    pushed (.pushBack pkt :: rest) = pkt :: pushed rest := rfl

@[simp] theorem pushed_heartbeat (callback : κ) (echo : Str) (rest : List (Output κ)) :
    pushed (.heartbeat callback echo :: rest) = pushed rest := rfl

/-- What is handed over of a type that is no heartbeat is in the packets. -/
theorem delivered_eq_texts {k : PacketType} (hk : k ≠ .heartBeat) (out : List (Output κ)) :
    delivered k out = texts k (pushed out) := by
  induction out with
  | nil => rfl
  | cons output out ih =>
      cases output with
      | pushBack pkt =>
          by_cases hpkt : pkt.packetType = k
          · simpa [delivered, texts, hpkt] using ih
          · simpa [delivered, texts, hpkt] using ih
      | heartbeat callback echo => simpa [delivered, texts, hk] using ih

theorem texts_contiguous {k : PacketType} {packets more : List PacketContent}
    (h : packets <:+: more) :
    texts k packets <:+: texts k more := h.filterMap _

/-- A heartbeat is never pushed. -/
theorem not_heartBeat_emit {ptype : PacketType} {callback : Option κ} {w : Str}
    {pkt : PacketContent} (h : pkt ∈ pushed (CmdHandler.emit ptype callback ⟨w, ptype⟩)) :
    pkt.packetType ≠ .heartBeat := by
  cases ptype with
  | heartBeat => cases callback <;> exact absurd h List.not_mem_nil
  | normal =>
      obtain rfl := List.mem_singleton.mp h
      exact nofun
  | reboot =>
      obtain rfl := List.mem_singleton.mp h
      exact nofun

theorem not_heartBeat_extractLoop {r : BacktrackRegex.Regex Char} {ptype : PacketType} {n : Nat}
    {handler : CmdHandler κ} {pkt : PacketContent}
    (h : pkt ∈ pushed (CmdHandler.extractLoop r ptype n handler).2) :
    pkt.packetType ≠ .heartBeat := by
  induction n generalizing handler with
  | zero => exact absurd h List.not_mem_nil
  | succ n ih =>
      cases hextract : CmdHandler.extract r ptype handler with
      | none =>
          rw [CmdHandler.extractLoop, hextract] at h
          exact absurd h List.not_mem_nil
      | some found =>
          rw [CmdHandler.extractLoop, hextract, pushed_append, List.mem_append] at h
          obtain hfirst | hrest := h
          · obtain ⟨m, -, rfl⟩ := Option.map_eq_some_iff.mp hextract
            exact not_heartBeat_emit hfirst
          · exact ih hrest

theorem not_heartBeat_receive {handler : CmdHandler κ} {chunks : List Str} {pkt : PacketContent}
    (h : pkt ∈ pushed (handler.receive chunks).2) : pkt.packetType ≠ .heartBeat := by
  induction chunks generalizing handler with
  | nil => exact absurd h List.not_mem_nil
  | cons inData chunks ih =>
      rw [CmdHandler.receive, pushed_append, List.mem_append] at h
      obtain hfirst | hrest := h
      · simp only [CmdHandler.taskFunc, pushed_append, List.mem_append] at hfirst
        obtain (hnormal | hheartbeat) | hreboot := hfirst
        · exact not_heartBeat_extractLoop hnormal
        · exact not_heartBeat_extractLoop hheartbeat
        · exact not_heartBeat_extractLoop hreboot
      · exact ih hrest

section Runs

variable [DecidableEq ι] {cfg : Config ι ρ} {callback : Option κ}

/-- A run hands on in order what the handler has made of the reads: it is a run of the calls whose
pushes, with what is still pending, are the packets of the handler. -/
structure HandedOn (cfg : Config ι ρ) (callback : Option κ) (events : List (Event ι))
    (t : ReceivePath ι ρ κ) (acts : List (Action ι)) : Prop where
  run : exec (AsyncSend.step cfg) (Sys.init cfg) acts = some t.sys
  handler_eq : t.handler = ((CmdHandler.init callback).receive (chunks events)).1
  pushes_append : pushes acts ++ pushed t.pending =
    pushed ((CmdHandler.init callback).receive (chunks events)).2

theorem HandedOn.own {events : List (Event ι)} {event : Event ι} {u : ReceivePath ι ρ κ}
    {acts : List (Action ι)} (h : HandedOn cfg callback events u acts) {a : Action ι}
    {sys : Sys ι ρ} (hstep : AsyncSend.step cfg u.sys a = some sys)
    (hpush : ∀ p, a ≠ .pushBack p) (hevent : chunks (events ++ [event]) = chunks events) :
    HandedOn cfg callback (events ++ [event]) { u with sys := sys } (acts ++ [a]) where
  run := exec_snoc h.run hstep
  handler_eq := hevent ▸ h.handler_eq
  pushes_append := by
    rw [AsyncSend.pushes_append, pushes_singleton hpush, List.append_nil, hevent]
    exact h.pushes_append

theorem HandedOn.step {events : List (Event ι)} {event : Event ι} {u u' : ReceivePath ι ρ κ}
    {acts : List (Action ι)} (h : HandedOn cfg callback events u acts)
    (hstep : ReceivePath.step cfg u event = some u') :
    HandedOn cfg callback (events ++ [event]) u' (acts ++ u.acts event) := by
  obtain ⟨sys, handler, pending⟩ := u
  cases event with
  | received inData =>
      have hacts : acts ++ ReceivePath.acts ⟨sys, handler, pending⟩ (.received inData) = acts :=
        List.append_nil acts
      rw [hacts]
      cases habort : sys.abort with
      | some fault => simp [ReceivePath.step, habort] at hstep
      | none =>
          cases pending with
          | cons output pending => simp [ReceivePath.step, habort] at hstep
          | nil =>
              obtain rfl :
                  ⟨sys, (handler.taskFunc inData).1, (handler.taskFunc inData).2⟩ = u' := by
                simpa [ReceivePath.step, habort] using hstep
              have hhandler : handler = _ := h.handler_eq
              have hpushes : pushes acts ++ [] = _ := h.pushes_append
              refine ⟨h.run, ?_, ?_⟩
              · rw [chunks_snoc_received, CmdHandler.receive_snoc, ← hhandler]
              · rw [chunks_snoc_received, CmdHandler.receive_snoc, ← hhandler, pushed_append,
                  ← hpushes, List.append_nil]
  | handOn =>
      cases pending with
      | nil => simp [ReceivePath.step] at hstep
      | cons output pending =>
          have hchunks : chunks (events ++ [.handOn]) = chunks events := chunks_snoc rfl events
          cases output with
          | pushBack pkt =>
              obtain ⟨sys', hsys, rfl⟩ := Option.map_eq_some_iff.mp hstep
              change HandedOn cfg callback _ _ (acts ++ [.pushBack pkt])
              refine ⟨?_, ?_, ?_⟩
              · exact exec_snoc h.run hsys
              · exact hchunks.symm ▸ h.handler_eq
              · rw [hchunks, AsyncSend.pushes_append, List.append_assoc]
                exact h.pushes_append
          | heartbeat cb echo =>
              cases habort : sys.abort with
              | some fault => simp [ReceivePath.step, habort] at hstep
              | none =>
                  obtain rfl : ⟨sys, handler, pending⟩ = u' := by
                    simpa [ReceivePath.step, habort] using hstep
                  have hacts : acts ++ ReceivePath.acts
                      ⟨sys, handler, .heartbeat cb echo :: pending⟩ .handOn = acts :=
                    List.append_nil acts
                  rw [hacts]
                  refine ⟨h.run, ?_, ?_⟩
                  · exact hchunks.symm ▸ h.handler_eq
                  · exact hchunks.symm ▸ h.pushes_append
  | sender c move =>
      obtain ⟨sys', hsys, rfl⟩ := Option.map_eq_some_iff.mp hstep
      exact h.own hsys (by simp) (chunks_snoc rfl events)
  | watchDog c move =>
      obtain ⟨sys', hsys, rfl⟩ := Option.map_eq_some_iff.mp hstep
      exact h.own hsys (by simp) (chunks_snoc rfl events)

theorem handedOn_of_exec {events : List (Event ι)} {t : ReceivePath ι ρ κ}
    (hrun : exec (step cfg) (init cfg callback) events = some t) :
    ∃ acts, HandedOn cfg callback events t acts := by
  refine exec_history (M := fun events u => ∃ acts, HandedOn cfg callback events u acts) ?_ ?_ hrun
  · exact ⟨[], rfl, rfl, rfl⟩
  · rintro events u event u' - ⟨acts, h⟩ hstep
    exact ⟨_, h.step hstep⟩

/-- What a call has seen of the packets pushed in a run from the start. -/
structure Block (k : Call ρ) (packets : List PacketContent) : Prop where
  fresh : k.pc.beforeAttach = true → k.delivered = []
  suffix : k.pc.holdsObserver = true → k.delivered <:+ packets
  infix_of : k.delivered <:+: packets

theorem Block.step {u u' : Sys ι ρ} {a : Action ι} {c : ι} {packets : List PacketContent}
    (hu : WellFormed cfg u) (h : AsyncSend.step cfg u a = some u')
    (hk : Block (u.call c) packets) : Block (u'.call c) (packets ++ pushes [a]) := by
  have hcall := callStep hu h c
  generalize u'.call c = k at hcall ⊢
  cases hcall with
  | moved move pc hnext =>
      rw [pushes_singleton (by simp), List.append_nil]
      refine ⟨fun hpc => hk.fresh (next_beforeAttach hnext hpc), fun hpc => ?_, hk.infix_of⟩
      cases hbefore : (u.call c).pc.beforeAttach with
      | true => exact (hk.fresh hbefore).symm ▸ List.nil_suffix
      | false => exact hk.suffix (next_of_attached hnext hbefore hpc)
  | updated p hpc =>
      have hsuffix : ((u.call c).update (cfg.command c) p).delivered <:+
          packets ++ pushes [Action.pushBack (ι := ι) p] := by
        rw [Call.update_delivered]
        exact (List.suffix_append_inj_of_length_eq rfl).mpr ⟨hk.suffix hpc, rfl⟩
      refine ⟨fun hbefore => ?_, fun _ => hsuffix, hsuffix.isInfix⟩
      rw [Call.update_beforeAttach, Pc.beforeAttach_eq_false hpc] at hbefore
      exact absurd hbefore Bool.false_ne_true
  | missed p hpc =>
      refine ⟨hk.fresh, fun hpc' => ?_, hk.infix_of.trans (List.prefix_append _ _).isInfix⟩
      exact absurd (hpc.symm.trans hpc') Bool.false_ne_true
  | notified d htarget =>
      rw [pushes_singleton (by simp), List.append_nil]
      exact ⟨fun hpc => hk.fresh (by simpa using hpc), fun hpc => hk.suffix (by simpa using hpc),
        hk.infix_of⟩
  | unchanged a hsender hpush =>
      rw [pushes_singleton hpush, List.append_nil]
      exact hk

/-- A call has received a contiguous part of all packets pushed. -/
theorem block_of_exec {acts : List (Action ι)} {u : Sys ι ρ}
    (hrun : exec (AsyncSend.step cfg) (Sys.init cfg) acts = some u) (c : ι) :
    Block (u.call c) (pushes acts) := by
  refine exec_history (M := fun as u => Block (u.call c) (pushes as)) ?_ ?_ hrun
  · exact ⟨fun _ => rfl, fun _ => List.suffix_refl _, List.infix_refl _⟩
  · intro as u a u' hu hblock hstep
    rw [AsyncSend.pushes_append]
    exact hblock.step (wellFormed_of_exec (wellFormed_init cfg) hu) hstep

/-- What was delivered to a call is a contiguous part of what the handler has made of the reads. -/
theorem delivered_contiguous {events : List (Event ι)} {t : ReceivePath ι ρ κ}
    (hrun : exec (step cfg) (init cfg callback) events = some t) (c : ι) :
    (t.sys.call c).delivered <:+:
      pushed ((CmdHandler.init callback).receive (chunks events)).2 := by
  obtain ⟨acts, h⟩ := handedOn_of_exec hrun
  rw [← h.pushes_append]
  exact (block_of_exec h.run c).infix_of.trans (List.prefix_append _ _).isInfix

/-- However the stream is cut into reads and whatever the threads do in between, what a call
receives of a type is a contiguous part of the reader's units of that type: each whole, in order
and once. -/
theorem texts_infix_stream {units : List StreamUnit} {events : List (Event ι)}
    {t : ReceivePath ι ρ κ} (hrun : exec (step cfg) (init cfg callback) events = some t)
    (hstream : (chunks events).flatten <+: stream units) {k : PacketType} (hk : k ≠ .heartBeat)
    (c : ι) :
    texts k (t.sys.call c).delivered <:+:
      (ofTag StreamUnit.kind k units).map StreamUnit.bytes := by
  obtain ⟨full, pending, part, hacc⟩ := accounted_receive callback hstream
  have hprefix := hacc.delivered_prefix (k := k) fun heq => absurd heq hk
  rw [delivered_eq_texts hk] at hprefix
  exact (texts_contiguous (delivered_contiguous hrun c)).trans hprefix.isInfix

end Runs

/-- The response of a `Send` is the text of the last packet delivered. -/
theorem final_sendCommand (uiCommandType : Nat) (lpBuf response x : Str)
    (packets : List PacketContent) :
    Judge.final (RfidInterface.sendCommand uiCommandType lpBuf response).judge x packets =
      ((packets.getLast?).map PacketContent.toString).getD x := by
  induction packets using List.reverseRecOn with
  | nil => rfl
  | append_singleton packets pkt =>
      rw [Judge.final_snoc, List.getLast?_concat]
      rfl

/-- The response of a `Send` is the one it began with or the text of one whole unit of the
reader. -/
theorem response_of_stream [DecidableEq ι] {cfg : Config ι Str} {callback : Option κ}
    {units : List StreamUnit} {events : List (Event ι)} {t : ReceivePath ι Str κ}
    (hrun : exec (step cfg) (init cfg callback) events = some t)
    (hstream : (chunks events).flatten <+: stream units) {c : ι} {uiCommandType : Nat}
    {lpBuf response : Str}
    (hsend : cfg.command c = RfidInterface.sendCommand uiCommandType lpBuf response) :
    (t.sys.call c).captured = response ∨
      ∃ u ∈ units, u.kind ≠ .heartBeat ∧ (t.sys.call c).captured = trim u.bytes := by
  obtain ⟨acts, h⟩ := handedOn_of_exec hrun
  have hcaptured : (t.sys.call c).captured =
      (((t.sys.call c).delivered.getLast?).map PacketContent.toString).getD response := by
    rw [((wellFormed_of_exec (wellFormed_init cfg) h.run).traced c).captured_eq, hsend]
    exact final_sendCommand uiCommandType lpBuf response response _
  rw [hcaptured]
  cases hlast : (t.sys.call c).delivered.getLast? with
  | none => exact Or.inl rfl
  | some pkt =>
      have hmem : pkt ∈ (t.sys.call c).delivered := List.mem_of_getLast? hlast
      have hkind : pkt.packetType ≠ .heartBeat :=
        not_heartBeat_receive ((delivered_contiguous hrun c).subset hmem)
      have htext : pkt.vtBuffer ∈ texts pkt.packetType (t.sys.call c).delivered :=
        List.mem_filterMap.mpr ⟨pkt, hmem, if_pos rfl⟩
      obtain ⟨u, hu, hbytes⟩ :=
        List.mem_map.mp ((texts_infix_stream hrun hstream hkind c).subset htext)
      obtain ⟨hunit, htag⟩ := List.mem_filter.mp hu
      refine Or.inr ⟨u, hunit, ?_, ?_⟩
      · rw [of_decide_eq_true htag]
        exact hkind
      · rw [hbytes]
        rfl

/-- However the reader's stream is cut into reads and whatever senders and watchdogs do in between,
each call receives of a type a contiguous part of the stream's units, and the response of a `Send`
is the one it began with or the text of one whole unit. -/
theorem calls_receive_blocks [DecidableEq ι] :
    (∀ (cfg : Config ι ρ) (callback : Option κ) (units : List StreamUnit)
      (events : List (Event ι)) (t : ReceivePath ι ρ κ),
      exec (step cfg) (init cfg callback) events = some t →
      (chunks events).flatten <+: stream units → ∀ (c : ι) (k : PacketType), k ≠ .heartBeat →
        texts k (t.sys.call c).delivered <:+:
          (ofTag StreamUnit.kind k units).map StreamUnit.bytes) ∧
    ∀ (cfg : Config ι Str) (callback : Option κ) (units : List StreamUnit)
      (events : List (Event ι)) (t : ReceivePath ι Str κ),
      exec (step cfg) (init cfg callback) events = some t →
      (chunks events).flatten <+: stream units →
      ∀ (c : ι) (uiCommandType : Nat) (lpBuf response : Str),
        cfg.command c = RfidInterface.sendCommand uiCommandType lpBuf response →
          (t.sys.call c).captured = response ∨
            ∃ u ∈ units, u.kind ≠ .heartBeat ∧ (t.sys.call c).captured = trim u.bytes :=
  ⟨fun _ _ _ _ _ hrun hstream c _ hk => texts_infix_stream hrun hstream hk c,
    fun _ _ _ _ _ hrun hstream _ _ _ _ hsend => response_of_stream hrun hstream hsend⟩

def versionBody : FrameBody where
  text := "V0300".toList
  no_lf := by decide
  no_cr := by decide
  no_stx := by decide
  no_heartbeat := by decide

/-- The reply comes in two reads, the second of them with a frame that nobody waits for. -/
def splitReply : List (Event Unit) :=
  [.sender () .launch, .sender () .attach, .sender () (.send (.count 3)),
    .received "\nV03".toList, .sender () .enterWait, .received "00\r\n\n@END\r\n".toList,
    .handOn, .sender () .leaveWait, .sender () .detach, .handOn]

theorem calls_receive_blocks_splitReply :
    ∃ t, exec (step versionQuery) (init versionQuery (none : Option Unit)) splitReply = some t ∧
      texts .normal (t.sys.call ()).delivered <:+: [versionBody, endBody].map FrameBody.frame ∧
      ((t.sys.call ()).captured = [] ∨
        ∃ u ∈ [StreamUnit.frame versionBody, .frame endBody], u.kind ≠ .heartBeat ∧
          (t.sys.call ()).captured = trim u.bytes) := by
  have hrun : (exec (step versionQuery) (init versionQuery (none : Option Unit))
      splitReply).map (fun t => (t.sys.call ()).captured) = some "V0300".toList := rfl
  obtain ⟨t, ht, -⟩ := Option.map_eq_some_iff.mp hrun
  have hstream : (chunks splitReply).flatten <+:
      stream [.frame versionBody, .frame endBody] := by decide
  refine ⟨t, ht, ?_, ?_⟩
  · exact (calls_receive_blocks (ι := Unit)).1 versionQuery none _ splitReply t ht hstream ()
      .normal (by decide)
  · exact (calls_receive_blocks (ρ := Unit)).2 versionQuery none _ splitReply t ht hstream ()
      RfidInterface.rfPtReqGetFirmwareVersion "\nV\r".toList [] rfl

end ReceivePath

end RfidEngine
