import RfidEngine.Lib.JsonValue
import RfidEngine.ReadLines

/-!
# Reads as JSON

`to_json` writes the fields of a read; where the flag `is_match` of a value is
false it writes the flag alone. `from_json` demands every key.

## Main results

A read of a bank comes back as it was. A read of the inventory comes back
exactly where its data are an EPC with protocol word and checksum, and a read of
both exactly where such an EPC stands in front of the first comma and the bank is
one that is taken apart.
-/

namespace RfidEngine

open BacktrackRegex JsonValue

def RfidTime.toJson (time : RfidTime) : Json :=
  if time.isMatch then
    .object [("is_match", .boolean time.isMatch), ("year", .integer time.year),
      ("month", .integer time.month), ("day", .integer time.day), ("hour", .integer time.hour),
      ("min", .integer time.min), ("sec", .integer time.sec), ("ms", .integer time.ms)]
  else .object [("is_match", .boolean time.isMatch)]

def RfidTime.fromJson (j : Json) : Option RfidTime := do
  let isMatch ← j.field "is_match" Json.getBoolean
  let year ← j.field "year" Json.getInteger
  let month ← j.field "month" Json.getInteger
  let day ← j.field "day" Json.getInteger
  let hour ← j.field "hour" Json.getInteger
  let min ← j.field "min" Json.getInteger
  let sec ← j.field "sec" Json.getInteger
  let ms ← j.field "ms" Json.getInteger
  some ⟨isMatch, year, month, day, hour, min, sec, ms⟩

def RfidParseEPC.toJson (pser : RfidParseEPC) : Json :=
  if pser.isMatch then
    .object [("is_match", .boolean pser.isMatch), ("proto", .text pser.proto),
      ("epc", .text pser.epc), ("crc", .text pser.crc)]
  else .object [("is_match", .boolean pser.isMatch)]

def RfidParseEPC.fromJson (j : Json) : Option RfidParseEPC := do
  let isMatch ← j.field "is_match" Json.getBoolean
  let proto ← j.field "proto" Json.getText
  let epc ← j.field "epc" Json.getText
  let crc ← j.field "crc" Json.getText
  some ⟨isMatch, proto, epc, crc⟩

def RfidParseUR.toJson (pser : RfidParseUR) : Json :=
  if pser.isMatch && pser.hasData then
    .object [("is_match", .boolean pser.isMatch), ("has_data", .boolean pser.hasData),
      ("antenna", .text pser.antenna), ("data", .text pser.data), ("tid", .text pser.tid),
      ("user", .text pser.user), ("err", .text pser.err), ("time", pser.time.toJson),
      ("epc", pser.epc.toJson)]
  else .object [("is_match", .boolean pser.isMatch), ("has_data", .boolean pser.hasData)]

def RfidParseUR.fromJson (j : Json) : Option RfidParseUR := do
  let isMatch ← j.field "is_match" Json.getBoolean
  let hasData ← j.field "has_data" Json.getBoolean
  let time ← j.field "time" RfidTime.fromJson
  let antenna ← j.field "antenna" Json.getText
  let data ← j.field "data" Json.getText
  let epc ← j.field "epc" RfidParseEPC.fromJson
  let tid ← j.field "tid" Json.getText
  let user ← j.field "user" Json.getText
  let err ← j.field "err" Json.getText
  some ⟨isMatch, hasData, time, antenna, data, epc, tid, user, err⟩

def RfidParseR.toJson (pser : RfidParseR) : Json :=
  if pser.isMatch && pser.hasData then
    .object [("is_match", .boolean pser.isMatch), ("has_data", .boolean pser.hasData),
      ("antenna", .text pser.antenna), ("data", .text pser.data), ("time", pser.time.toJson)]
  else .object [("is_match", .boolean pser.isMatch), ("has_data", .boolean pser.hasData)]

def RfidParseR.fromJson (j : Json) : Option RfidParseR := do
  let isMatch ← j.field "is_match" Json.getBoolean
  let hasData ← j.field "has_data" Json.getBoolean
  let time ← j.field "time" RfidTime.fromJson
  let antenna ← j.field "antenna" Json.getText
  let data ← j.field "data" Json.getText
  some ⟨isMatch, hasData, time, antenna, data⟩

def RfidParseU.toJson (pser : RfidParseU) : Json :=
  if pser.isMatch && pser.hasData then
    .object [("is_match", .boolean pser.isMatch), ("has_data", .boolean pser.hasData),
      ("antenna", .text pser.antenna), ("data", .text pser.data), ("time", pser.time.toJson),
      ("epc", pser.epc.toJson)]
  else .object [("is_match", .boolean pser.isMatch), ("has_data", .boolean pser.hasData)]

def RfidParseU.fromJson (j : Json) : Option RfidParseU := do
  let isMatch ← j.field "is_match" Json.getBoolean
  let hasData ← j.field "has_data" Json.getBoolean
  let time ← j.field "time" RfidTime.fromJson
  let antenna ← j.field "antenna" Json.getText
  let data ← j.field "data" Json.getText
  let epc ← j.field "epc" RfidParseEPC.fromJson
  some ⟨isMatch, hasData, time, antenna, data, epc⟩

theorem RfidTime.respects : Json.Respects RfidTime.fromJson := by
  intro j j' h
  simp only [fromJson, h.field _ Json.respects_getBoolean, h.field _ Json.respects_getInteger]

theorem RfidParseEPC.respects : Json.Respects RfidParseEPC.fromJson := by
  intro j j' h
  simp only [fromJson, h.field _ Json.respects_getBoolean, h.field _ Json.respects_getText]

theorem RfidParseUR.respects : Json.Respects RfidParseUR.fromJson := by
  intro j j' h
  simp only [fromJson, h.field _ Json.respects_getBoolean, h.field _ Json.respects_getText,
    h.field _ RfidTime.respects, h.field _ RfidParseEPC.respects]

theorem RfidParseU.respects : Json.Respects RfidParseU.fromJson := by
  intro j j' h
  simp only [fromJson, h.field _ Json.respects_getBoolean, h.field _ Json.respects_getText,
    h.field _ RfidTime.respects, h.field _ RfidParseEPC.respects]

/-- The decoder demands the keys that the encoder leaves out. -/
theorem RfidTime.fromJson_toJson (time : RfidTime) :
    RfidTime.fromJson time.toJson = if time.isMatch then some time else none := by
  obtain ⟨isMatch, year, month, day, hour, min, sec, ms⟩ := time
  cases isMatch with
  | false => simp [toJson, fromJson]
  | true => simp [toJson, fromJson]

theorem RfidParseEPC.fromJson_toJson (pser : RfidParseEPC) :
    RfidParseEPC.fromJson pser.toJson = if pser.isMatch then some pser else none := by
  obtain ⟨isMatch, proto, epc, crc⟩ := pser
  cases isMatch with
  | false => simp [toJson, fromJson]
  | true => simp [toJson, fromJson]

/-- A read with data comes back exactly if its time and its EPC do. -/
theorem RfidParseUR.roundTrips_iff {pser : RfidParseUR} (hmatch : pser.isMatch = true)
    (hdata : pser.hasData = true) (htime : pser.time.isMatch = true) :
    RoundTrips RfidParseUR.toJson RfidParseUR.fromJson pser ↔ pser.epc.isMatch = true := by
  obtain ⟨isMatch, hasData, time, antenna, data, epc, tid, user, err⟩ := pser
  simp only at hmatch hdata htime
  subst hmatch hdata
  cases hepc : epc.isMatch with
  | false =>
      simp [RoundTrips, toJson, fromJson, RfidTime.fromJson_toJson,
        RfidParseEPC.fromJson_toJson, htime, hepc]
  | true =>
      simp [RoundTrips, toJson, fromJson, RfidTime.fromJson_toJson,
        RfidParseEPC.fromJson_toJson, htime, hepc]

theorem RfidParseR.roundTrips {pser : RfidParseR} (hmatch : pser.isMatch = true)
    (hdata : pser.hasData = true) (htime : pser.time.isMatch = true) :
    RoundTrips RfidParseR.toJson RfidParseR.fromJson pser := by
  obtain ⟨isMatch, hasData, time, antenna, data⟩ := pser
  simp only at hmatch hdata htime
  subst hmatch hdata
  simp [RoundTrips, toJson, fromJson, RfidTime.fromJson_toJson, htime]

theorem RfidParseU.roundTrips_iff {pser : RfidParseU} (hmatch : pser.isMatch = true)
    (hdata : pser.hasData = true) (htime : pser.time.isMatch = true) :
    RoundTrips RfidParseU.toJson RfidParseU.fromJson pser ↔ pser.epc.isMatch = true := by
  obtain ⟨isMatch, hasData, time, antenna, data, epc⟩ := pser
  simp only at hmatch hdata htime
  subst hmatch hdata
  cases hepc : epc.isMatch with
  | false =>
      simp [RoundTrips, toJson, fromJson, RfidTime.fromJson_toJson,
        RfidParseEPC.fromJson_toJson, htime, hepc]
  | true =>
      simp [RoundTrips, toJson, fromJson, RfidTime.fromJson_toJson,
        RfidParseEPC.fromJson_toJson, htime, hepc]

/-- The response is a line of the inventory's expression with these data. -/
def ReadsData (response data : Str) : Prop :=
  ∃ head : ReadHead, response = head.text ++ ('U' :: data) ∧ (∀ ch ∈ data, isDot ch = true) ∧
    data ≠ []

/-- A text that is taken for an EPC with its protocol word and checksum. -/
def IsEpcText (text : Str) : Prop := (∀ ch ∈ text, isHexDigit ch = true) ∧ 8 ≤ text.length

/-- The lines of the inventory's expression. -/
theorem exists_line_of_rgxUR {response : Str} {m : Captures Char}
    (h : fullMatch rgxUR response = some m) :
    ∃ (head : ReadHead) (data : Str), response = head.text ++ ('U' :: data) ∧
      ∀ ch ∈ data, isDot ch = true := by
  have hseq : rgxUR = .seq .lineStart
      (.seqs (readHead ++ [.lit ['U'], .group 4 (.many isDot), .lineEnd])) := rfl
  rw [hseq, fullMatch_lineStart] at h
  exact (fullMatch_letter_iff ['U'] response).mp (Option.isSome_of_eq_some h)

theorem RfidParseU.parse_line (u : Unset) (head : ReadHead) {data : Str}
    (hdata : ∀ ch ∈ data, isDot ch = true) :
    RfidParseU.parse u (head.text ++ ('U' :: data)) =
      some ⟨true, !data.isEmpty, head.time.time, head.antenna, data,
        if data.isEmpty then ⟨u.epcIsMatch, [], [], []⟩ else RfidParseEPC.parse data⟩ := by
  have htime := head.time.parse_text u.time
  unfold RfidParseU.parse
  rw [fullMatch_rgxUR_text head hdata]
  simp [Captures.str, List.lookup_cons, htime]

theorem RfidParseU.exists_line {u : Unset} {response : Str} {x : RfidParseU}
    (hx : RfidParseU.parse u response = some x) (hmatch : x.isMatch = true) :
    ∃ (head : ReadHead) (data : Str), response = head.text ++ ('U' :: data) ∧
      ∀ ch ∈ data, isDot ch = true := by
  cases hm : fullMatch rgxUR response with
  | some m => exact exists_line_of_rgxUR hm
  | none =>
      simp only [RfidParseU.parse, hm, Option.some.injEq] at hx
      rw [← hx] at hmatch
      exact absurd hmatch Bool.false_ne_true

/-- Whatever was left unset, what is read of the line comes back. -/
def SurvivesU (response : Str) : Prop :=
  ∀ u x, RfidParseU.parse u response = some x → x.isMatch = true → x.hasData = true →
    RoundTrips RfidParseU.toJson RfidParseU.fromJson x

theorem survivesU_iff (response : Str) :
    SurvivesU response ↔ ∀ data, ReadsData response data → IsEpcText data := by
  constructor
  · rintro h data ⟨head, rfl, hdata, hne⟩
    have hhas : (!data.isEmpty) = true := by
      rw [List.isEmpty_eq_false_iff.mpr hne]
      rfl
    have hsurvives := h nothingSet _ (RfidParseU.parse_line nothingSet head hdata) rfl hhas
    have hepc := (RfidParseU.roundTrips_iff rfl hhas rfl).mp hsurvives
    rw [List.isEmpty_eq_false_iff.mpr hne] at hepc
    exact parse_epc_isMatch_iff.mp hepc
  · intro h u x hx hmatch hhas
    obtain ⟨head, data, rfl, hdata⟩ := RfidParseU.exists_line hx hmatch
    obtain rfl := Option.some.inj ((RfidParseU.parse_line u head hdata).symm.trans hx)
    have hne : data.isEmpty = false := Bool.not_eq_true' _ |>.mp hhas
    refine (RfidParseU.roundTrips_iff rfl hhas rfl).mpr ?_
    simp only [hne, Bool.false_eq_true, if_false]
    exact parse_epc_isMatch_iff.mpr (h data ⟨head, rfl, hdata, List.isEmpty_eq_false_iff.mp hne⟩)

/-- What the expression takes for the time of a read is a timestamp. -/
theorem exists_time_of_rgxReadR {response : Str} {m : Captures Char}
    (h : fullMatch rgxReadR response = some m) :
    ∃ t : Timestamp, Captures.str m 2 = t.text := by
  have hseq : rgxReadR = .seq .lineStart (.seqs (readHead ++
      [.opt (.lit ['R']), .group 4 (.many isDot), .lineEnd])) := rfl
  rw [hseq, fullMatch_lineStart] at h
  obtain ⟨head, v, c, -, hv, rfl⟩ := (derives_readHead_iff _ _ _ _ _).mp (fullMatch_sound h)
  rw [Regex.seqs, derives_seq_of_plain (derives_opt_lit_iff ['R'])] at hv
  obtain ⟨mark, data, -, -, hdata⟩ := hv
  obtain ⟨-, -, rfl⟩ := (derives_text_iff _ _ _ _).mp hdata
  exact ⟨head.time, by simp [Captures.str, ReadHead.captures, List.lookup_cons]⟩

def SurvivesR (response : Str) : Prop :=
  ∀ u x, RfidParseR.parse u response = some x → x.isMatch = true → x.hasData = true →
    RoundTrips RfidParseR.toJson RfidParseR.fromJson x

/-- A read without an EPC always comes back. -/
theorem survivesR (response : Str) : SurvivesR response := by
  intro u x hx hmatch hhas
  cases hm : fullMatch rgxReadR response with
  | none =>
      simp only [RfidParseR.parse, hm, Option.some.injEq] at hx
      rw [← hx] at hmatch
      exact absurd hmatch Bool.false_ne_true
  | some m =>
      obtain ⟨t, ht⟩ := exists_time_of_rgxReadR hm
      simp only [RfidParseR.parse, hm, ht, t.parse_text u.time, Option.bind_eq_bind,
        Option.bind_some, Option.some.injEq] at hx
      refine RfidParseR.roundTrips hmatch hhas ?_
      rw [← hx]
      rfl

/-- The data of a bank read are split at the comma behind hex digits. -/
theorem fullMatch_dataRgx_comma {hex rest : Str} (hhex : ∀ ch ∈ hex, isHexDigit ch = true)
    (hrest : ∀ ch ∈ rest, isDot ch = true) :
    ∃ m, fullMatch dataRgx (hex ++ (',' :: rest)) = some m ∧ Captures.str m 1 = hex := by
  by_cases hmark : rest.head? = some 'R'
  · obtain ⟨text, rfl⟩ := List.head?_eq_some_iff.mp hmark
    exact ⟨_, fullMatch_dataRgx_text true hhex
      (fun ch hch => hrest ch (List.mem_cons_of_mem 'R' hch)) (fun h => absurd h.symm
        Bool.false_ne_true), rfl⟩
  · exact ⟨_, fullMatch_dataRgx_text false hhex hrest fun _ => hmark, rfl⟩

/-- The banks whose reads are taken apart. -/
def TakesApart (bank : Int) : Prop := bank = rfidMbEpc ∨ bank = rfidMbTid ∨ bank = rfidMbUser

instance (bank : Int) : Decidable (TakesApart bank) := inferInstanceAs (Decidable (_ ∨ _ ∨ _))

/-- Taking the data apart stores the EPC and leaves flags and time. -/
theorem parseData_kept (x : RfidParseUR) (bank : Int) :
    (x.parseData bank).hasData = x.hasData ∧ (x.parseData bank).time = x.time ∧
      (x.parseData bank).epc = if TakesApart bank then
        (fullMatch dataRgx x.data).elim x.epc fun m => RfidParseEPC.parse (Captures.str m 1)
      else x.epc := by
  unfold RfidParseUR.parseData
  by_cases hfirst : bank = rfidMbEpc ∨ bank = rfidMbTid
  · have htakes : TakesApart bank := or_assoc.mp (.inl hfirst)
    rw [if_pos hfirst, if_pos htakes]
    cases fullMatch dataRgx x.data with
    | none => exact ⟨rfl, rfl, rfl⟩
    | some m =>
        simp only [Option.elim]
        split <;> exact ⟨rfl, rfl, rfl⟩
  · rw [if_neg hfirst]
    by_cases huser : bank = rfidMbUser
    · have htakes : TakesApart bank := .inr (.inr huser)
      rw [if_pos huser, if_pos htakes]
      cases fullMatch dataRgx x.data with
      | none => exact ⟨rfl, rfl, rfl⟩
      | some m =>
          simp only [Option.elim]
          split <;> exact ⟨rfl, rfl, rfl⟩
    · have htakes : ¬ TakesApart bank := by
        intro h
        exact (or_assoc.mpr h).elim hfirst huser
      rw [if_neg huser, if_neg htakes]
      exact ⟨rfl, rfl, rfl⟩

/-- An EPC stands in front of the first comma of the data. -/
def EpcBeforeComma (data : Str) : Prop := ∃ epc rest, data = epc ++ (',' :: rest) ∧ IsEpcText epc

/-- The EPC is stored and matched exactly where it stands in front of a comma. -/
theorem parseData_epc_isMatch_iff {x : RfidParseUR} (bank : Int)
    (hdata : ∀ ch ∈ x.data, isDot ch = true) (hunset : x.epc.isMatch = false) :
    (x.parseData bank).epc.isMatch = true ↔ TakesApart bank ∧ EpcBeforeComma x.data := by
  rw [(parseData_kept x bank).2.2]
  constructor
  · intro h
    split at h
    · rename_i htakes
      cases hm : fullMatch dataRgx x.data with
      | none =>
          rw [hm, Option.elim_none, hunset] at h
          exact absurd h Bool.false_ne_true
      | some m =>
          rw [hm, Option.elim_some, parse_epc_isMatch_iff] at h
          obtain ⟨⟨rest, hrest⟩, -⟩ := dataRgx_parts hm
          exact ⟨htakes, _, rest, hrest, h⟩
    · rw [hunset] at h
      exact absurd h Bool.false_ne_true
  · rintro ⟨htakes, epc, rest, hsplit, hepc⟩
    rw [hsplit] at hdata ⊢
    obtain ⟨m, hm, hstr⟩ := fullMatch_dataRgx_comma hepc.1
      fun ch hch => hdata ch (List.mem_append_right _ (List.mem_cons_of_mem ',' hch))
    rw [if_pos htakes, hm, Option.elim_some, hstr]
    exact parse_epc_isMatch_iff.mpr hepc

theorem RfidParseUR.exists_line {u : Unset} {response : Str} {bank : Int} {x : RfidParseUR}
    (hx : RfidParseUR.parse u response bank = some x) (hmatch : x.isMatch = true)
    (hhas : x.hasData = true) : ∃ data, ReadsData response data := by
  cases hm : fullMatch rgxUR response with
  | none =>
      simp only [RfidParseUR.parse, hm, Option.some.injEq] at hx
      rw [← hx] at hmatch
      exact absurd hmatch Bool.false_ne_true
  | some m =>
      obtain ⟨head, data, rfl, hdata⟩ := exists_line_of_rgxUR hm
      refine ⟨data, head, rfl, hdata, ?_⟩
      rintro rfl
      have htime := head.time.parse_text u.time
      unfold RfidParseUR.parse at hx
      rw [fullMatch_rgxUR_text head hdata] at hx
      simp [Captures.str, List.lookup_cons, htime] at hx
      rw [← hx] at hhas
      exact absurd hhas Bool.false_ne_true

def SurvivesUR (response : Str) (bank : Int) : Prop :=
  ∀ u x, RfidParseUR.parse u response bank = some x → x.isMatch = true → x.hasData = true →
    RoundTrips RfidParseUR.toJson RfidParseUR.fromJson x

theorem survivesUR_iff (response : Str) (bank : Int) :
    SurvivesUR response bank ↔
      ∀ data, ReadsData response data → TakesApart bank ∧ EpcBeforeComma data := by
  constructor
  · rintro h data ⟨head, rfl, hdata, hne⟩
    have hsurvives := h nothingSet _ (parse_text nothingSet head bank hdata hne)
    have hkept := parseData_kept { RfidParseUR.unset nothingSet with
      isMatch := true, hasData := true, time := head.time.time, antenna := head.antenna,
      data := data } bank
    have hmatch := parseData_isMatch { RfidParseUR.unset nothingSet with
      isMatch := true, hasData := true, time := head.time.time, antenna := head.antenna,
      data := data } bank
    have htime := congrArg RfidTime.isMatch hkept.2.1
    have hepc := (RfidParseUR.roundTrips_iff hmatch hkept.1 htime).mp (hsurvives hmatch hkept.1)
    exact (parseData_epc_isMatch_iff bank hdata rfl).mp hepc
  · intro h u x hx hmatch hhas
    obtain ⟨data, head, rfl, hdata, hne⟩ := RfidParseUR.exists_line hx hmatch hhas
    obtain ⟨htakes, epc, rest, hsplit, hepc⟩ := h data ⟨head, rfl, hdata, hne⟩
    obtain rfl := Option.some.inj ((parse_text u head bank hdata hne).symm.trans hx)
    have hkept := parseData_kept { RfidParseUR.unset u with
      isMatch := true, hasData := true, time := head.time.time, antenna := head.antenna,
      data := data } bank
    refine (RfidParseUR.roundTrips_iff hmatch hhas (congrArg RfidTime.isMatch hkept.2.1)).mpr ?_
    subst hsplit
    obtain ⟨m, hm, hstr⟩ := fullMatch_dataRgx_comma hepc.1
      fun ch hch => hdata ch (List.mem_append_right _ (List.mem_cons_of_mem ',' hch))
    rw [hkept.2.2, if_pos htakes, hm, Option.elim_some, hstr]
    exact parse_epc_isMatch_iff.mpr hepc

/-- Which reads of a line come back from JSON as they were. -/
theorem reads_survive_iff (response : Str) (bank : Int) :
    (SurvivesU response ↔ ∀ data, ReadsData response data → IsEpcText data) ∧
      SurvivesR response ∧
      (SurvivesUR response bank ↔
        ∀ data, ReadsData response data → TakesApart bank ∧ EpcBeforeComma data) :=
  ⟨survivesU_iff response, survivesR response, survivesUR_iff response bank⟩

/-- Four digits are no EPC: the inventory's read of them cannot be decoded. -/
theorem short_epc_lost :
    ¬ SurvivesU (sampleRead "3000".toList) ∧ ¬ SurvivesUR (sampleRead "3000".toList) rfidMbEpc := by
  have hread : ReadsData (sampleRead "3000".toList) "3000".toList :=
    ⟨sampleHead, rfl, List.all_eq_true.mp rfl, by decide⟩
  constructor
  · intro h
    exact absurd ((survivesU_iff _).mp h _ hread).2 (by decide)
  · intro h
    obtain ⟨-, epc, rest, hsplit, -⟩ := (survivesUR_iff _ _).mp h _ hread
    have hcomma : ',' ∈ "3000".toList := by
      rw [hsplit]
      exact List.mem_append_right epc List.mem_cons_self
    exact absurd hcomma (by decide)

end RfidEngine
