import RfidEngine.Api.FrameCount

/-!
# From the frames of a reader to the reads of a caller

`RFInventoryEPC` and `RFReadMultiBank` parse the lines that a reading has
recorded, keep the reads of tags, and hand them out as a JSON text. A caller who
decodes the text has the reads of the lines among the frames received, or
nothing at all where one of them does not come back.
-/

namespace RfidEngine

open BacktrackRegex Api RfidInterface AsyncSend StepSystem TaggedQueue ReceivePath JsonValue

/-- The lines of tags among some frames. -/
def tagLines (frames : List Str) : List Str :=
  (frames.map trim).filter fun line => decide (IsTagLine line)

/-- What a function makes of a line, which reads it keeps, and for which lines these come back. -/
structure LineReads (α : Type) where
  parse : Str → Option α
  kept : α → Bool
  encode : α → Json
  decode : Json → Option α
  comesBack : Str → Prop
  respects : Json.Respects decode
  parses : ∀ line, (parse line).isSome = true
  kept_iff : ∀ {line x}, parse line = some x → (kept x = true ↔ IsTagLine line)
  roundTrips_iff : ∀ {line x}, parse line = some x → kept x = true →
    (RoundTrips encode decode x ↔ comesBack line)
  refused : ∀ {line x}, parse line = some x → kept x = true →
    ¬ RoundTrips encode decode x → decode (encode x) = none

namespace LineReads

variable {α : Type} (r : LineReads α)

/-- The reads of some lines. -/
def Reads : List Str → List α → Prop := List.Forall₂ fun line x => r.parse line = some x

theorem exists_reads (lines : List Str) :
    ∃ parsed, lines.mapM r.parse = some parsed ∧ r.Reads lines parsed := by
  induction lines with
  | nil => exact ⟨[], rfl, .nil⟩
  | cons line lines ih =>
      obtain ⟨x, hx⟩ := Option.isSome_iff_exists.mp (r.parses line)
      obtain ⟨parsed, hparsed, hreads⟩ := ih
      exact ⟨x :: parsed, by simp [List.mapM_cons, hx, hparsed], .cons hx hreads⟩

/-- What is kept are the reads of the lines of tags. -/
theorem reads_kept {lines : List Str} {parsed : List α} (h : r.Reads lines parsed) :
    r.Reads (lines.filter fun line => decide (IsTagLine line)) (parsed.filter r.kept) := by
  refine List.rel_filter ?_ h
  intro line x hx
  exact decide_eq_true_iff.trans (r.kept_iff hx).symm

variable {r}

theorem Reads.exists_line {lines : List Str} {reads : List α} (h : r.Reads lines reads) {x : α}
    (hx : x ∈ reads) : ∃ line ∈ lines, r.parse line = some x := by
  induction h with
  | nil => exact absurd hx List.not_mem_nil
  | cons hfirst hrest ih =>
      obtain rfl | hlater := List.mem_cons.mp hx
      · exact ⟨_, List.mem_cons_self, hfirst⟩
      · obtain ⟨line, hline, hparse⟩ := ih hlater
        exact ⟨line, List.mem_cons_of_mem _ hline, hparse⟩

theorem Reads.exists_read {lines : List Str} {reads : List α} (h : r.Reads lines reads) {line : Str}
    (hline : line ∈ lines) : ∃ x ∈ reads, r.parse line = some x := by
  induction h with
  | nil => exact absurd hline List.not_mem_nil
  | cons hfirst hrest ih =>
      obtain rfl | hlater := List.mem_cons.mp hline
      · exact ⟨_, List.mem_cons_self, hfirst⟩
      · obtain ⟨x, hx, hparse⟩ := ih hlater
        exact ⟨x, List.mem_cons_of_mem _ hx, hparse⟩

/-- The reads of tags are decoded if all their lines come back, and refused otherwise. -/
theorem Reads.decoded {lines : List Str} {reads : List α} (h : r.Reads lines reads)
    (htags : ∀ line ∈ lines, IsTagLine line) :
    ((∀ line ∈ lines, r.comesBack line) → (reads.map r.encode).mapM r.decode = some reads) ∧
      (¬ (∀ line ∈ lines, r.comesBack line) → (reads.map r.encode).mapM r.decode = none) := by
  have hback : (∀ x ∈ reads, RoundTrips r.encode r.decode x) ↔
      ∀ line ∈ lines, r.comesBack line := by
    constructor
    · intro hall line hline
      obtain ⟨x, hx, hparse⟩ := h.exists_read hline
      have hkept := (r.kept_iff hparse).mpr (htags line hline)
      exact (r.roundTrips_iff hparse hkept).mp (hall x hx)
    · intro hall x hx
      obtain ⟨line, hline, hparse⟩ := h.exists_line hx
      have hkept := (r.kept_iff hparse).mpr (htags line hline)
      exact (r.roundTrips_iff hparse hkept).mpr (hall line hline)
  have heach : ∀ x ∈ reads, RoundTrips r.encode r.decode x ∨ r.decode (r.encode x) = none := by
    intro x hx
    obtain ⟨line, hline, hparse⟩ := h.exists_line hx
    have hkept := (r.kept_iff hparse).mpr (htags line hline)
    by_cases hx : RoundTrips r.encode r.decode x
    · exact Or.inl hx
    · exact Or.inr (r.refused hparse hkept hx)
  rw [← hback]
  obtain ⟨hread, hall⟩ | ⟨hnone, x, hx, hrefused⟩ := mapM_map_encode heach
  · exact ⟨fun _ => hread, fun hnot => absurd hall hnot⟩
  · exact ⟨fun hall => absurd (hall x hx) hrefused, fun _ => hnone⟩

end LineReads

theorem ReadsData.unique {line data data' : Str} (h : ReadsData line data)
    (h' : ReadsData line data') : data = data' := by
  obtain ⟨head, rfl, -, -⟩ := h
  obtain ⟨head', hline, -, -⟩ := h'
  exact (List.cons.inj (ReadHead.text_append_inj hline).2).2

/-- The line of a tag has data, with the time of its head. -/
theorem RfidParseU.exists_data {u : Unset} {line : Str} {x : RfidParseU}
    (hx : RfidParseU.parse u line = some x) (hkept : (x.isMatch && x.hasData) = true) :
    ∃ data, ReadsData line data ∧ x.time.isMatch = true ∧ x.epc = RfidParseEPC.parse data := by
  obtain ⟨hmatch, hdata⟩ := (Bool.and_eq_true _ _).mp hkept
  obtain ⟨head, data, rfl, hdot⟩ := RfidParseU.exists_line hx hmatch
  obtain rfl := Option.some.inj ((RfidParseU.parse_line u head hdot).symm.trans hx)
  have hne : data ≠ [] := by
    rintro rfl
    exact absurd hdata Bool.false_ne_true
  refine ⟨data, ⟨head, rfl, hdot, hne⟩, rfl, ?_⟩
  exact if_neg (by simpa using hne)

theorem RfidParseU.fromJson_toJson {x : RfidParseU} (hmatch : x.isMatch = true)
    (hdata : x.hasData = true) (htime : x.time.isMatch = true) :
    RfidParseU.fromJson x.toJson = if x.epc.isMatch then some x else none := by
  obtain ⟨isMatch, hasData, time, antenna, data, epc⟩ := x
  simp only at hmatch hdata htime
  subst hmatch hdata
  cases hepc : epc.isMatch with
  | false =>
      simp [toJson, fromJson, RfidTime.fromJson_toJson, RfidParseEPC.fromJson_toJson, htime, hepc]
  | true =>
      simp [toJson, fromJson, RfidTime.fromJson_toJson, RfidParseEPC.fromJson_toJson, htime, hepc]

theorem RfidParseUR.fromJson_toJson {x : RfidParseUR} (hmatch : x.isMatch = true)
    (hdata : x.hasData = true) (htime : x.time.isMatch = true) :
    RfidParseUR.fromJson x.toJson = if x.epc.isMatch then some x else none := by
  obtain ⟨isMatch, hasData, time, antenna, data, epc, tid, user, err⟩ := x
  simp only at hmatch hdata htime
  subst hmatch hdata
  cases hepc : epc.isMatch with
  | false =>
      simp [toJson, fromJson, RfidTime.fromJson_toJson, RfidParseEPC.fromJson_toJson, htime, hepc]
  | true =>
      simp [toJson, fromJson, RfidTime.fromJson_toJson, RfidParseEPC.fromJson_toJson, htime, hepc]

/-- The reads of `RFInventoryEPC`. -/
def inventoryReads (u : Unset) : LineReads RfidParseU where
  parse := RfidParseU.parse u
  kept parseU := parseU.isMatch && parseU.hasData
  encode := RfidParseU.toJson
  decode := RfidParseU.fromJson
  comesBack line := ∀ data, ReadsData line data → IsEpcText data
  respects := RfidParseU.respects
  parses line := by
    obtain ⟨x, hx, -⟩ := RfidParseU.parse_classifies u line
    exact Option.isSome_of_eq_some hx
  kept_iff hx := RfidParseU.kept_iff hx
  roundTrips_iff := by
    intro line x hx hkept
    obtain ⟨hmatch, hdata⟩ := (Bool.and_eq_true _ _).mp hkept
    obtain ⟨data, hread, htime, hepc⟩ := RfidParseU.exists_data hx hkept
    rw [RfidParseU.roundTrips_iff hmatch hdata htime, hepc, parse_epc_isMatch_iff]
    exact ⟨fun h data' hread' => hread.unique hread' ▸ h, fun h => h data hread⟩
  refused := by
    intro line x hx hkept hrefused
    obtain ⟨hmatch, hdata⟩ := (Bool.and_eq_true _ _).mp hkept
    obtain ⟨data, -, htime, -⟩ := RfidParseU.exists_data hx hkept
    rw [RfidParseU.roundTrips_iff hmatch hdata htime] at hrefused
    rw [RfidParseU.fromJson_toJson hmatch hdata htime, if_neg hrefused]

/-- Hex digits stand in front of the first comma of the data. -/
def HexBeforeComma (data : Str) : Prop :=
  ∃ hex rest, data = hex ++ (',' :: rest) ∧ ∀ ch ∈ hex, isHexDigit ch = true

/-- The flag of the EPC is read off the data, or left as it was. -/
def EpcReadOrSet (u : Unset) (bank : Int) (data : Str) : Prop :=
  (TakesApart bank ∧ EpcBeforeComma data) ∨
    (u.epcIsMatch = true ∧ ¬ (TakesApart bank ∧ HexBeforeComma data))

theorem fullMatch_dataRgx_isSome_iff {data : Str} (hdot : ∀ ch ∈ data, isDot ch = true) :
    (fullMatch dataRgx data).isSome = true ↔ HexBeforeComma data := by
  constructor
  · intro h
    obtain ⟨m, hm⟩ := Option.isSome_iff_exists.mp h
    obtain ⟨⟨rest, hrest⟩, hhex, -⟩ := dataRgx_parts hm
    exact ⟨_, rest, hrest, hhex⟩
  · rintro ⟨hex, rest, rfl, hhex⟩
    obtain ⟨m, hm, -⟩ := fullMatch_dataRgx_comma hhex fun ch hch =>
      hdot ch (List.mem_append_right hex (List.mem_cons_of_mem ',' hch))
    exact Option.isSome_of_eq_some hm

/-- The flag of a bank read's EPC, which starts as it was left. -/
theorem epc_isMatch_parseData_iff {u : Unset} {x : RfidParseUR} (bank : Int)
    (hdot : ∀ ch ∈ x.data, isDot ch = true) (hepc : x.epc = ⟨u.epcIsMatch, [], [], []⟩) :
    (x.parseData bank).epc.isMatch = true ↔ EpcReadOrSet u bank x.data := by
  rw [(parseData_kept x bank).2.2, EpcReadOrSet, ← fullMatch_dataRgx_isSome_iff hdot]
  by_cases htakes : TakesApart bank
  · rw [if_pos htakes]
    cases hm : fullMatch dataRgx x.data with
    | none =>
        have hno : ¬ EpcBeforeComma x.data := by
          rintro ⟨epc, rest, hsplit, hhex, -⟩
          have hsome := (fullMatch_dataRgx_isSome_iff hdot).mpr ⟨epc, rest, hsplit, hhex⟩
          rw [hm] at hsome
          exact absurd hsome Bool.false_ne_true
        simp [hepc, hno]
    | some m =>
        obtain ⟨⟨rest, hrest⟩, -, -⟩ := dataRgx_parts hm
        simp only [Option.elim_some, Option.isSome_some, htakes, true_and, not_true_eq_false,
          and_false, or_false]
        constructor
        · intro h
          exact ⟨_, rest, hrest, parse_epc_isMatch_iff.mp h⟩
        · rintro ⟨epc, rest', hsplit, hepc⟩
          have hcomma : ∀ ch ∈ rest', isDot ch = true := fun ch hch =>
            hdot ch (hsplit ▸ List.mem_append_right epc (List.mem_cons_of_mem ',' hch))
          obtain ⟨m', hm', hstr⟩ := fullMatch_dataRgx_comma hepc.1 hcomma
          rw [← hsplit, hm] at hm'
          obtain rfl := Option.some.inj hm'
          rw [hstr]
          exact parse_epc_isMatch_iff.mpr hepc
  · simp [htakes, hepc]

/-- The line of a tag has data, which a bank read takes apart. -/
theorem RfidParseUR.exists_data {u : Unset} {line : Str} {bank : Int} {x : RfidParseUR}
    (hx : RfidParseUR.parse u line bank = some x) (hmatch : x.isMatch = true)
    (hhas : x.hasData = true) :
    ∃ data, ReadsData line data ∧ x.time.isMatch = true ∧
      (x.epc.isMatch = true ↔ EpcReadOrSet u bank data) := by
  obtain ⟨data, head, rfl, hdot, hne⟩ := RfidParseUR.exists_line hx hmatch hhas
  have hparse := parse_text u head bank hdot hne
  obtain rfl := Option.some.inj (hparse.symm.trans hx)
  exact ⟨data, ⟨head, rfl, hdot, hne⟩, congrArg RfidTime.isMatch (parseData_kept _ bank).2.1,
    epc_isMatch_parseData_iff bank hdot rfl⟩

/-- A bank read is kept exactly if its line is one of a tag. -/
theorem RfidParseUR.kept_iff {u : Unset} {line : Str} {bank : Int} {x : RfidParseUR}
    (hx : RfidParseUR.parse u line bank = some x) :
    (x.isMatch && x.hasData) = true ↔ IsTagLine line := by
  constructor
  · intro hkept
    obtain ⟨hmatch, hhas⟩ := (Bool.and_eq_true _ _).mp hkept
    exact RfidParseUR.exists_line hx hmatch hhas
  · rintro ⟨data, head, rfl, hdot, hne⟩
    obtain rfl := Option.some.inj ((parse_text u head bank hdot hne).symm.trans hx)
    rw [parseData_isMatch, (parseData_kept _ bank).1]
    rfl

/-- The reads of `RFReadMultiBank`. -/
def bankReads (u : Unset) (bank : Int) : LineReads RfidParseUR where
  parse line := RfidParseUR.parse u line bank
  kept parseUR := parseUR.isMatch && parseUR.hasData
  encode := RfidParseUR.toJson
  decode := RfidParseUR.fromJson
  comesBack line := ∀ data, ReadsData line data → EpcReadOrSet u bank data
  respects := RfidParseUR.respects
  parses line := parse_isSome u line bank
  kept_iff hx := RfidParseUR.kept_iff hx
  roundTrips_iff := by
    intro line x hx hkept
    obtain ⟨hmatch, hhas⟩ := (Bool.and_eq_true _ _).mp hkept
    obtain ⟨data, hread, htime, hepc⟩ := RfidParseUR.exists_data hx hmatch hhas
    rw [RfidParseUR.roundTrips_iff hmatch hhas htime, hepc]
    exact ⟨fun h data' hread' => hread.unique hread' ▸ h, fun h => h data hread⟩
  refused := by
    intro line x hx hkept hrefused
    obtain ⟨hmatch, hhas⟩ := (Bool.and_eq_true _ _).mp hkept
    obtain ⟨data, -, htime, -⟩ := RfidParseUR.exists_data hx hmatch hhas
    rw [RfidParseUR.roundTrips_iff hmatch hhas htime] at hrefused
    rw [RfidParseUR.fromJson_toJson hmatch hhas htime, if_neg hrefused]

variable {ι κ π : Type}

/-- The texts that are handed out are those of a JSON library. -/
def Host.withTexts (host : Host π) (jsonTexts : ArrayTexts) : Host π :=
  { host with
    dumpU := fun convert => jsonTexts.dump (convert.map RfidParseU.toJson)
    dumpUR := fun convert => jsonTexts.dump (convert.map RfidParseUR.toJson) }

/-- A call returns exactly if its reads can be written; the text that it hands out is decoded as
these reads if all of them come back, and refused otherwise. -/
structure HandsOutReads {α : Type} (jsonTexts : ArrayTexts) (encode : α → Json)
    (decode : Json → Option α) (call : Option ((Int × Option (Option Str × Int)) × World π))
    (reads : List α) (allBack : Prop) : Prop where
  returns : call.isSome = (jsonTexts.dump (reads.map encode)).isSome
  text : ∀ ret json w', call = some ((ret, json), w') →
    ∃ s, json = some (some s, toInt s.length) ∧
      (allBack → jsonTexts.read decode s = some reads) ∧
      (¬ allBack → jsonTexts.read decode s = none)

theorem getData_answer {m : HandleManager π} {h : Int} {p : π} (hptr : m.getRfidPtr h = some p)
    (s : Str) : ((m.clearBuffer h).appendData h s).getData h = (some s, toInt s.length) := by
  rw [HandleManager.getRfidPtr_eq] at hptr
  obtain ⟨unit, hunit, -⟩ := Option.bind_eq_some_iff.mp hptr
  have hfound : ((m.clearBuffer h).appendData h s).findHandle h =
      some ((unit.clear).append s) := by
    rw [HandleManager.findHandle_appendData, if_pos rfl, HandleManager.findHandle_clearBuffer,
      if_pos rfl, hunit]
    rfl
  rw [HandleManager.getData, hfound]
  rfl

/-- A call that dumps the reads of some lines hands them out. -/
theorem LineReads.handsOut {α : Type} (r : LineReads α) (jsonTexts : ArrayTexts) {h : Int}
    {w : World π} {p : π} (hptr : w.hm.getRfidPtr h = some p) {lines : List Str} {reads : List α}
    (hreads : r.Reads lines reads) (htags : ∀ line ∈ lines, IsTagLine line) {ret : Int}
    {sent : List (π × InterfaceCall)}
    {call : Option ((Int × Option (Option Str × Int)) × World π)}
    (hcall : call = (jsonTexts.dump (reads.map r.encode)).map fun s =>
      ((ret, some (((w.hm.clearBuffer h).appendData h s).getData h)),
        ⟨(w.hm.clearBuffer h).appendData h s, sent⟩)) :
    HandsOutReads jsonTexts r.encode r.decode call reads (∀ line ∈ lines, r.comesBack line) where
  returns := by rw [hcall, Option.isSome_map]
  text := by
    intro ret' json w' hreturned
    rw [hcall] at hreturned
    obtain ⟨s, hs, heq⟩ := Option.map_eq_some_iff.mp hreturned
    obtain ⟨hanswer, -⟩ := Prod.mk.inj heq
    obtain ⟨-, rfl⟩ := Prod.mk.inj hanswer
    refine ⟨s, by rw [getData_answer hptr], ?_⟩
    rw [jsonTexts.read_dump r.respects hs]
    exact hreads.decoded htags

variable [DecidableEq ι] {cfg : Config ι (List Str)} {callback : Option κ}
  {units : List StreamUnit} {events : List (ReceivePath.Event ι)}
  {t : ReceivePath ι (List Str) κ}

/-- The lines of tags that a reading has recorded are those among its frames. -/
theorem tagLines_captured
    (hrun : exec (ReceivePath.step cfg) (ReceivePath.init cfg callback) events = some t)
    (hstream : (chunks events).flatten <+: stream units) {r : Reading} (hform : r.form = rgxU)
    {c : ι} (hcommand : r.command = some (cfg.command c)) :
    ((t.sys.call c).captured.filter fun line => decide (IsTagLine line)) =
      tagLines (framesOf [c] t) := by
  have hframes : framesOf [c] t = texts .normal (t.sys.call c).delivered :=
    List.flatMap_singleton ..
  have hrecorded : ∀ line : Str,
      (decide (IsTagLine line) && regexMatch rgxU line) = decide (IsTagLine line) := by
    intro line
    by_cases htag : IsTagLine line
    · rw [((isTagLine_iff line).mp htag).1, Bool.and_true]
    · rw [decide_eq_false htag, Bool.false_and]
  rw [captured_of_exec hrun hstream hcommand, hform, tagLines, hframes, List.filter_filter]
  simp only [hrecorded]

theorem isTagLine_of_mem_tagLines {frames : List Str} {line : Str} (h : line ∈ tagLines frames) :
    IsTagLine line := decide_eq_true_iff.mp (List.mem_filter.mp h).2

/-- Behind every run in which a reading has returned whose lines `RFInventoryEPC` or
`RFReadMultiBank` hands out, the caller decodes the reads of the lines of tags among contiguous
frames of the stream, in their order, if the EPC of each is one, and is refused otherwise; only in a
bank read without a comma the flag is the one that was left unset. -/
theorem reads_decoded (cfg : Config ι (List Str)) (callback : Option κ) (units : List StreamUnit)
    (events : List (ReceivePath.Event ι)) (t : ReceivePath ι (List Str) κ)
    (hrun : exec (ReceivePath.step cfg) (ReceivePath.init cfg callback) events = some t)
    (hstream : (chunks events).flatten <+: stream units) (c : ι) (jsonTexts : ArrayTexts)
    (host : Host π) (asyncSend : SendAnswers π) (h : Int) (w : World π) (p : π)
    (hptr : w.hm.getRfidPtr h = some p)
    (hanswer : (t.sys.call c).ReturnedWith (asyncSend w.sent p (cfg.command c))) :
    framesOf [c] t <:+: (ofTag StreamUnit.kind .normal units).map StreamUnit.bytes ∧
    (∀ slot loop, RfidInterface.inventoryEPC slot loop = cfg.command c →
      ∃ reads, ReadsOf host.unset (tagLines (framesOf [c] t)) reads ∧
        HandsOutReads jsonTexts RfidParseU.toJson RfidParseU.fromJson
          (rfInventoryEPC ((host.withTexts jsonTexts).withInventory asyncSend) h slot loop w) reads
          (∀ line ∈ tagLines (framesOf [c] t), ∀ data, ReadsData line data → IsEpcText data)) ∧
    ∀ a : ReadArguments,
      RfidInterface.readMultiBank a.slot a.loop a.bankType a.start a.wordLen =
        some (cfg.command c) →
      ∃ reads, List.Forall₂ (fun line x => RfidParseUR.parse host.unset line a.bankType = some x)
          (tagLines (framesOf [c] t)) reads ∧
        HandsOutReads jsonTexts RfidParseUR.toJson RfidParseUR.fromJson
          (rfReadMultiBank ((host.withTexts jsonTexts).withReads asyncSend) h a.slot a.loop
            a.bankType a.start a.wordLen w) reads
          (∀ line ∈ tagLines (framesOf [c] t), ∀ data, ReadsData line data →
            EpcReadOrSet host.unset a.bankType data) := by
  have hframes : framesOf [c] t = texts .normal (t.sys.call c).delivered :=
    List.flatMap_singleton ..
  refine ⟨hframes ▸ texts_infix_stream hrun hstream (by decide) c, ?_, ?_⟩
  · intro slot loop hcommand
    obtain ⟨parsed, hparsed, hreads⟩ :=
      (inventoryReads host.unset).exists_reads (t.sys.call c).captured
    have hkept := (inventoryReads host.unset).reads_kept hreads
    rw [tagLines_captured hrun hstream (r := .inventoryEPC slot loop) rfl
      (congrArg some hcommand)] at hkept
    have hcall : ((host.withTexts jsonTexts).withInventory asyncSend).answer w.sent p
        (.inventoryEPC slot loop) = ((Reading.inventoryEPC slot loop).returned
          (asyncSend w.sent p (cfg.command c)).1, (t.sys.call c).captured) := by
      simp only [Host.withInventory, hcommand, hanswer.captured]
    have hparsed' : (((host.withTexts jsonTexts).withInventory asyncSend).answer w.sent p
        (.inventoryEPC slot loop)).2.mapM (fun response => RfidParseU.parse host.unset response) =
          some parsed := by
      rw [hcall]
      exact hparsed
    exact ⟨_, hkept, (inventoryReads host.unset).handsOut jsonTexts hptr hkept
      (fun line hline => isTagLine_of_mem_tagLines hline) (rfInventoryEPC_of_parsed hptr hparsed')⟩
  · intro a hcommand
    obtain ⟨parsed, hparsed, hreads⟩ :=
      (bankReads host.unset a.bankType).exists_reads (t.sys.call c).captured
    have hkept := (bankReads host.unset a.bankType).reads_kept hreads
    rw [tagLines_captured hrun hstream
      (r := .readMultiBank a.slot a.loop a.bankType a.start a.wordLen) rfl hcommand] at hkept
    have hcall : ((host.withTexts jsonTexts).withReads asyncSend).answer w.sent p a.call =
        ((Reading.readMultiBank a.slot a.loop a.bankType a.start a.wordLen).result
          (asyncSend w.sent p (cfg.command c)).1, (t.sys.call c).captured) := by
      simp only [ReadArguments.call, Host.withReads, hcommand, hanswer.captured]
    have hparsed' : (((host.withTexts jsonTexts).withReads asyncSend).answer w.sent p
        a.call).2.mapM (fun response => RfidParseUR.parse host.unset response a.bankType) =
          some parsed := by
      rw [hcall]
      exact hparsed
    exact ⟨_, hkept, (bankReads host.unset a.bankType).handsOut jsonTexts hptr hkept
      (fun line hline => isTagLine_of_mem_tagLines hline) (rfReadMultiBank_of_parsed hptr hparsed')⟩

/-- The read of the round's tag. -/
def roundRead : RfidParseU where
  isMatch := true
  hasData := true
  time := ⟨true, 2021, 4, 15, 11, 22, 27, 944⟩
  antenna := ['1']
  data := "3000AABB1234".toList
  epc := ⟨true, "3000".toList, "AABB".toList, "1234".toList⟩

def roundText : Str :=
  ("[\x7b\"antenna\":\"1\",\"data\":\"3000AABB1234\",\"epc\":\x7b\"crc\":\"1234\"," ++
    "\"epc\":\"AABB\",\"is_match\":true,\"proto\":\"3000\"\x7d,\"has_data\":true," ++
    "\"is_match\":true,\"time\":\x7b\"day\":15,\"hour\":11,\"is_match\":true,\"min\":22," ++
    "\"month\":4,\"ms\":944,\"sec\":27,\"year\":2021\x7d\x7d]").toList

/-- The read with the members in the order of the text. -/
def roundParsed : Json :=
  .object [("antenna", .text ['1']), ("data", .text "3000AABB1234".toList),
    ("epc", .object [("crc", .text "1234".toList), ("epc", .text "AABB".toList),
      ("is_match", .boolean true), ("proto", .text "3000".toList)]),
    ("has_data", .boolean true), ("is_match", .boolean true),
    ("time", .object [("day", .integer 15), ("hour", .integer 11), ("is_match", .boolean true),
      ("min", .integer 22), ("month", .integer 4), ("ms", .integer 944), ("sec", .integer 27),
      ("year", .integer 2021)])]

theorem same_roundParsed : Json.Same roundRead.toJson roundParsed := by
  have htime : Json.Same roundRead.time.toJson (.object [("day", .integer 15),
      ("hour", .integer 11), ("is_match", .boolean true), ("min", .integer 22),
      ("month", .integer 4), ("ms", .integer 944), ("sec", .integer 27),
      ("year", .integer 2021)]) := by
    refine .pick 2 rfl rfl (.boolean true) (.pick 6 rfl rfl (.integer 2021) ?_)
    refine .pick 3 rfl rfl (.integer 4) (.pick 0 rfl rfl (.integer 15) ?_)
    refine .pick 0 rfl rfl (.integer 11) (.pick 0 rfl rfl (.integer 22) ?_)
    exact .pick 1 rfl rfl (.integer 27) (.pick 0 rfl rfl (.integer 944) .empty)
  have hepc : Json.Same roundRead.epc.toJson (.object [("crc", .text "1234".toList),
      ("epc", .text "AABB".toList), ("is_match", .boolean true),
      ("proto", .text "3000".toList)]) := by
    refine .pick 2 rfl rfl (.boolean true) (.pick 2 rfl rfl (.text _) ?_)
    exact .pick 1 rfl rfl (.text _) (.pick 0 rfl rfl (.text _) .empty)
  refine .pick 4 rfl rfl (.boolean true) (.pick 3 rfl rfl (.boolean true) ?_)
  refine .pick 0 rfl rfl (.text _) (.pick 0 rfl rfl (.text _) ?_)
  exact .pick 1 rfl rfl htime (.pick 0 rfl rfl hepc .empty)

noncomputable def roundTexts : ArrayTexts :=
  .only [roundRead.toJson] [roundParsed] roundText (.cons same_roundParsed .nil)

/-- The round, from the launch of its call to the return. -/
def returnedRound : List (ReceivePath.Event Unit) :=
  roundEvents ++ [.sender () .setCancel, .watchDog () .sleep, .watchDog () .test, .sender () .join]

/-- The read of the round is decoded as it was. -/
theorem reads_decoded_round : ∃ (asyncSend : SendAnswers Char) (ret : Int) (s : Str)
    (w' : World Char), rfInventoryEPC ((silentHost.withTexts roundTexts).withInventory asyncSend)
        1 4 true sampleWorld = some ((ret, some (some s, toInt s.length)), w') ∧
      roundTexts.read RfidParseU.fromJson s = some [roundRead] := by
  have hrun : (exec (ReceivePath.step loopedInventory)
      (ReceivePath.init loopedInventory (none : Option Unit)) returnedRound).map
        (fun t => (framesOf [()] t, (t.sys.call ()).pc)) =
          some ([tagBody.frame, endBody.frame], .returned 5) := rfl
  obtain ⟨t, ht, hend⟩ := Option.map_eq_some_iff.mp hrun
  obtain ⟨hframes, hreturned⟩ := Prod.mk.inj hend
  have hdecoded := (reads_decoded loopedInventory none [.frame tagBody, .frame endBody]
    returnedRound t ht (by decide) () roundTexts silentHost
    (fun _ _ _ => (5, (t.sys.call ()).captured)) 1 sampleWorld 'b' rfl ⟨hreturned, rfl⟩).2.1 4 true
    rfl
  have hlines : tagLines [tagBody.frame, endBody.frame] = [tagBody.text] := by decide +kernel
  rw [hframes, hlines] at hdecoded
  obtain ⟨reads, hreads, hhands⟩ := hdecoded
  have hparse : RfidParseU.parse silentHost.unset tagBody.text = some roundRead := by decide +kernel
  obtain rfl : reads = [roundRead] := by
    cases hreads with
    | cons hfirst hrest =>
        cases hrest
        rw [hparse] at hfirst
        rw [Option.some.inj hfirst]
  have hparse' : (inventoryReads silentHost.unset).parse tagBody.text = some roundRead := hparse
  have hround : RoundTrips RfidParseU.toJson RfidParseU.fromJson roundRead :=
    (RfidParseU.roundTrips_iff rfl rfl rfl).mpr rfl
  have hback : ∀ line ∈ [tagBody.text], ∀ data, ReadsData line data → IsEpcText data :=
    List.forall_mem_singleton.mpr
      (((inventoryReads silentHost.unset).roundTrips_iff hparse' rfl).mp hround)
  have hreturns : (roundTexts.dump ([roundRead].map RfidParseU.toJson)).isSome = true := by
    simp [roundTexts, ArrayTexts.only]
  obtain ⟨⟨⟨ret, json⟩, w'⟩, hcall⟩ := Option.isSome_iff_exists.mp (hhands.returns.trans hreturns)
  obtain ⟨s, rfl, hread, -⟩ := hhands.text ret json w' hcall
  exact ⟨_, ret, s, w', hcall, hread hback⟩

end RfidEngine
