import Mathlib.Data.List.Forall2
import RfidEngine.Json
import RfidEngine.Api.ReadErrors
import RfidEngine.RfidInterface.Readings

/-!
# The lines of an inventory

Three expressions describe the lines of an inventory: that of the finish
condition, that of the callback that records packets, and that of the parser.
They divide all texts in one way, into the reads of a tag, the end and the rest.

## Main results

The division, and what `RFInventoryEPC` keeps of the packets delivered.
-/

namespace RfidEngine

open BacktrackRegex Api RfidInterface AsyncSend StepSystem

/-- `…-U$` -/
def rgxEOU : Regex Char := .seqs (readHead ++ [.lit ['U'], .lineEnd])

/-- The line of a read of a tag. -/
def IsTagLine (response : Str) : Prop := ∃ data, ReadsData response data

theorem regexMatch_rgxU_iff (response : Str) : regexMatch rgxU response = true ↔
    ∃ (head : ReadHead) (data : Str), response = head.text ++ ('U' :: data) ∧
      ∀ ch ∈ data, isDot ch = true :=
  fullMatch_letter_iff ['U'] response

theorem regexMatch_rgxEOU_iff (response : Str) :
    regexMatch rgxEOU response = true ↔ ∃ head : ReadHead, response = head.text ++ ['U'] := by
  rw [regexMatch, rgxEOU, fullMatch_readHead_iff]
  simp only [Regex.seqs, derives_seq_lit_iff]
  constructor
  · rintro ⟨head, -, rfl, c, v, rfl, hend⟩
    obtain ⟨-, rfl, -⟩ := (derives_lineEnd_iff _ _ _ _).mp hend
    exact ⟨head, by rw [List.append_nil]⟩
  · rintro ⟨head, rfl⟩
    exact ⟨head, ['U'], rfl, [], [], rfl, (derives_lineEnd_iff _ _ _ _).mpr ⟨rfl, rfl, rfl⟩⟩

/-- A line of the inventory's form is the end exactly if nothing stands behind the letter. -/
theorem regexMatch_rgxEOU_line_iff (head : ReadHead) (data : Str) :
    regexMatch rgxEOU (head.text ++ ('U' :: data)) = true ↔ data = [] := by
  rw [regexMatch_rgxEOU_iff]
  constructor
  · rintro ⟨head', hline⟩
    exact (List.cons.inj (ReadHead.text_append_inj hline).2).2
  · rintro rfl
    exact ⟨head, rfl⟩

/-- The reads of tags are what is recorded and not the end. -/
theorem isTagLine_iff (response : Str) : IsTagLine response ↔
    regexMatch rgxU response = true ∧ ¬ regexMatch rgxEOU response = true := by
  rw [regexMatch_rgxU_iff]
  constructor
  · rintro ⟨data, head, rfl, hdata, hne⟩
    rw [regexMatch_rgxEOU_line_iff]
    exact ⟨⟨head, data, rfl, hdata⟩, hne⟩
  · rintro ⟨⟨head, data, rfl, hdata⟩, hne⟩
    rw [regexMatch_rgxEOU_line_iff] at hne
    exact ⟨data, head, rfl, hdata, hne⟩

instance (response : Str) : Decidable (IsTagLine response) :=
  decidable_of_iff _ (isTagLine_iff response).symm

/-- The parser reads the line of a read. -/
theorem RfidParseU.parse_classifies (u : Unset) (response : Str) :
    ∃ x, RfidParseU.parse u response = some x ∧
      (x.isMatch = true ↔ regexMatch rgxU response = true) ∧
      (x.isMatch = true ∧ x.hasData = false ↔ regexMatch rgxEOU response = true) := by
  by_cases hline : regexMatch rgxU response = true
  · obtain ⟨head, data, rfl, hdata⟩ := (regexMatch_rgxU_iff response).mp hline
    refine ⟨_, RfidParseU.parse_line u head hdata, iff_of_true rfl hline, ?_⟩
    rw [regexMatch_rgxEOU_line_iff]
    simp
  · have hnone : fullMatch rgxUR response = none := by
      cases hm : fullMatch rgxUR response with
      | none => rfl
      | some m =>
          exact absurd ((regexMatch_rgxU_iff response).mpr (exists_line_of_rgxUR hm)) hline
    have hparse : RfidParseU.parse u response =
        some ⟨false, u.hasData, u.time, [], [], ⟨u.epcIsMatch, [], [], []⟩⟩ := by
      unfold RfidParseU.parse
      rw [hnone]
    refine ⟨_, hparse, iff_of_false Bool.false_ne_true hline, iff_of_false ?_ ?_⟩
    · exact fun h => Bool.false_ne_true h.1
    · intro hend
      obtain ⟨head, rfl⟩ := (regexMatch_rgxEOU_iff response).mp hend
      exact hline ((regexMatch_rgxU_iff _).mpr
        ⟨head, [], rfl, fun _ hch => absurd hch List.not_mem_nil⟩)

/-- What the parser yields of a line is kept exactly if it is the read of a tag. -/
theorem RfidParseU.kept_iff {u : Unset} {response : Str} {x : RfidParseU}
    (hx : RfidParseU.parse u response = some x) :
    (x.isMatch && x.hasData) = true ↔ IsTagLine response := by
  obtain ⟨y, hy, hmatch, hend⟩ := RfidParseU.parse_classifies u response
  obtain rfl := Option.some.inj (hx.symm.trans hy)
  rw [isTagLine_iff, ← hmatch, ← hend, Bool.and_eq_true, not_and, Bool.not_eq_false]
  constructor
  · rintro ⟨hline, hdata⟩
    exact ⟨hline, fun _ => hdata⟩
  · rintro ⟨hline, hdata⟩
    exact ⟨hline, hdata hline⟩

/-- What an inventory has recorded. -/
theorem captured_inventoryEPC {ι : Type*} {cfg : Config ι (List Str)} {c : ι} {exponent : Int}
    {loop : Bool} {t : Sys ι (List Str)} (hcommand : cfg.command c = inventoryEPC exponent loop)
    (ht : WellFormed cfg t) :
    (t.call c).captured =
      ((t.call c).delivered.map PacketContent.toString).filter (regexMatch rgxU) := by
  cases loop <;> exact captured_reading hcommand ht

/-- Of the lines recorded the reads of tags are those among the packets before the end. -/
theorem tagLines_recorded {pkts : List PacketContent} {last : PacketContent}
    (hlast : isEOU last = true) :
    (((pkts ++ [last]).map PacketContent.toString).filter (regexMatch rgxU)).filter
        (fun line => decide (IsTagLine line)) =
      (pkts.map PacketContent.toString).filter fun line => decide (IsTagLine line) := by
  have hdropped : ¬ IsTagLine last.toString := fun htag =>
    ((isTagLine_iff _).mp htag).2 hlast
  have hrecorded : ∀ line : Str,
      (decide (IsTagLine line) && regexMatch rgxU line) = decide (IsTagLine line) := by
    intro line
    by_cases htag : IsTagLine line
    · rw [((isTagLine_iff line).mp htag).1, Bool.and_true]
    · rw [decide_eq_false htag, Bool.false_and]
  rw [List.filter_filter]
  simp only [hrecorded]
  rw [List.map_append, List.filter_append, List.map_singleton,
    List.filter_cons_of_neg (by rwa [decide_eq_true_eq]), List.filter_nil, List.append_nil]

/-- The reads that the parser yields, one for each line. -/
def ReadsOf (u : Unset) : List Str → List RfidParseU → Prop :=
  List.Forall₂ fun line x => RfidParseU.parse u line = some x

theorem exists_readsOf (u : Unset) (lines : List Str) :
    ∃ parsed, lines.mapM (fun response => RfidParseU.parse u response) = some parsed ∧
      ReadsOf u lines parsed := by
  induction lines with
  | nil => exact ⟨[], rfl, .nil⟩
  | cons line lines ih =>
      obtain ⟨x, hx, -⟩ := RfidParseU.parse_classifies u line
      obtain ⟨parsed, hparsed, hreads⟩ := ih
      exact ⟨x :: parsed, by simp [List.mapM_cons, hx, hparsed], .cons hx hreads⟩

/-- The filter behind the parser keeps the reads of tags. -/
theorem ReadsOf.filter {u : Unset} {lines : List Str} {parsed : List RfidParseU}
    (h : ReadsOf u lines parsed) :
    ReadsOf u (lines.filter fun line => decide (IsTagLine line))
      (parsed.filter fun parseU => parseU.isMatch && parseU.hasData) := by
  refine List.rel_filter ?_ h
  intro line x hx
  exact decide_eq_true_iff.trans (RfidParseU.kept_iff hx).symm

variable {π : Type}

/-- The inventories are those of `InventoryEPC`. -/
def Host.withInventory (host : Host π) (asyncSend : SendAnswers π) : Host π where
  answer := fun sent p c =>
    match c with
    | .inventoryEPC slot loop =>
        ((Reading.inventoryEPC slot loop).returned
          (asyncSend sent p (RfidInterface.inventoryEPC slot loop)).1,
          (asyncSend sent p (RfidInterface.inventoryEPC slot loop)).2)
    | c => host.answer sent p c
  readerId := host.readerId
  dumpU := host.dumpU
  dumpUR := host.dumpUR
  unset := host.unset
  behind := host.behind

/-- `RFInventoryEPC` hands out the dump of these reads, with the code for `n` bytes sent. -/
def HandsOut (host : Host π) (asyncSend : SendAnswers π) (h slot : Int) (w : World π) (p : π)
    (n : Int) (kept : List RfidParseU) : Prop :=
  rfInventoryEPC (host.withInventory asyncSend) h slot false w =
    (host.dumpU kept).map fun s =>
      let hm := (w.hm.clearBuffer h).appendData h s
      (((Reading.inventoryEPC slot false).returned n, some (hm.getData h)),
        { hm := hm, sent := w.sent ++ [(p, .inventoryEPC slot false)] })

theorem handsOut_kept (host : Host π) {asyncSend : SendAnswers π} {h slot : Int} {w : World π}
    {p : π} {n : Int} {lines : List Str} (hptr : w.hm.getRfidPtr h = some p)
    (hanswer : asyncSend w.sent p (RfidInterface.inventoryEPC slot false) = (n, lines)) :
    ∃ kept, HandsOut host asyncSend h slot w p n kept ∧
      ReadsOf host.unset (lines.filter fun line => decide (IsTagLine line)) kept := by
  obtain ⟨parsed, hparsed, hreads⟩ := exists_readsOf host.unset lines
  refine ⟨_, ?_, hreads.filter⟩
  have hcall : (host.withInventory asyncSend).answer w.sent p (.inventoryEPC slot false) =
      ((Reading.inventoryEPC slot false).returned n, lines) := by
    unfold Host.withInventory
    simp only [hanswer]
  have hparsed' : ((host.withInventory asyncSend).answer w.sent p
      (.inventoryEPC slot false)).2.mapM (fun response => RfidParseU.parse host.unset response) =
        some parsed := by
    rw [hcall]
    exact hparsed
  unfold HandsOut
  rw [@rfInventoryEPC_of_parsed π (host.withInventory asyncSend) h w p slot false hptr parsed
    hparsed', hcall]
  rfl

/-- A call of a run is a single inventory; it has returned after `n` bytes were sent, with `pkts`
and an end delivered. -/
structure InventoryRun {ι : Type*} [DecidableEq ι] (cfg : Config ι (List Str)) (c : ι) (slot : Int)
    (t : Sys ι (List Str)) (pkts : List PacketContent) (n : Int) : Prop where
  command : cfg.command c = RfidInterface.inventoryEPC slot false
  reached : ∃ acts, exec (step cfg) (Sys.init cfg) acts = some t
  returned : (t.call c).pc = .returned n
  delivered : ∃ last, isEOU last = true ∧ (t.call c).delivered = pkts ++ [last]

/-- What `RFInventoryEPC` keeps of an inventory that it runs. -/
theorem InventoryRun.kept {ι : Type*} [DecidableEq ι] {cfg : Config ι (List Str)} {c : ι}
    {slot : Int} {t : Sys ι (List Str)} {pkts : List PacketContent} {n : Int}
    (hrun : InventoryRun cfg c slot t pkts n) {host : Host π} {asyncSend : SendAnswers π} {h : Int}
    {w : World π} {p : π} (hptr : w.hm.getRfidPtr h = some p)
    (hanswer : asyncSend w.sent p (RfidInterface.inventoryEPC slot false) =
      (n, (t.call c).captured)) :
    ∃ kept, HandsOut host asyncSend h slot w p n kept ∧ ReadsOf host.unset
      ((pkts.map PacketContent.toString).filter fun line => decide (IsTagLine line)) kept := by
  obtain ⟨acts, hacts⟩ := hrun.reached
  obtain ⟨last, hlast, hdelivered⟩ := hrun.delivered
  have ht := wellFormed_of_exec (wellFormed_init cfg) hacts
  rw [captured_inventoryEPC hrun.command ht, hdelivered] at hanswer
  obtain ⟨kept, hhands, hkept⟩ := handsOut_kept host hptr hanswer
  rw [tagLines_recorded hlast] at hkept
  exact ⟨kept, hhands, hkept⟩

/-- On every text the finish condition, the recording callback and the parser agree, and of the
packets that are delivered to a single inventory before its end `RFInventoryEPC` keeps the reads
of tags, one for each and in their order. -/
theorem inventory_lines_classified {ι : Type*} [DecidableEq ι] :
    (∀ u response, ∃ x, RfidParseU.parse u response = some x ∧
      (regexMatch rgxEOU response = true ↔ x.isMatch = true ∧ x.hasData = false) ∧
      (regexMatch rgxU response = true ↔ x.isMatch = true)) ∧
    (∀ pkt, isEOU pkt = regexMatch rgxEOU pkt.toString ∧ ∀ exponent loop resultVec,
      ((RfidInterface.inventoryEPC exponent loop).judge resultVec pkt).1 =
        if regexMatch rgxU pkt.toString then resultVec ++ [pkt.toString] else resultVec) ∧
    ∀ (cfg : Config ι (List Str)) (c : ι) (slot : Int) (t : Sys ι (List Str))
      (pkts : List PacketContent) (n : Int), InventoryRun cfg c slot t pkts n →
      ∀ (host : Host π) (asyncSend : SendAnswers π) (h : Int) (w : World π) (p : π),
        w.hm.getRfidPtr h = some p →
        asyncSend w.sent p (RfidInterface.inventoryEPC slot false) = (n, (t.call c).captured) →
        ∃ kept, HandsOut host asyncSend h slot w p n kept ∧ ReadsOf host.unset
          ((pkts.map PacketContent.toString).filter fun line => decide (IsTagLine line)) kept := by
  refine ⟨fun u response => ?_, fun pkt => ⟨rfl, fun exponent loop resultVec => ?_⟩, ?_⟩
  · obtain ⟨x, hx, hmatch, hend⟩ := RfidParseU.parse_classifies u response
    exact ⟨x, hx, hend.symm, hmatch.symm⟩
  · cases loop <;> rfl
  · intro cfg c slot t pkts n hrun host asyncSend h w p hptr hanswer
    exact hrun.kept hptr hanswer

def tagPacket : PacketContent :=
  ⟨'\n' :: sampleRead "3000E28011606000020D6842281F7C95".toList ++ "\r\n".toList, .normal⟩

def endPacket : PacketContent := ⟨'\n' :: sampleRead [] ++ "\r\n".toList, .normal⟩

/-- An inventory of one tag, from the call to its return. -/
def oneTagInventory : List (Action Unit) :=
  [.sender () .launch, .sender () .attach, .sender () (.send (.count 3)), .sender () .enterWait,
    .pushBack tagPacket, .pushBack endPacket, .sender () .leaveWait, .sender () .detach,
    .sender () .setCancel, .watchDog () .sleep, .watchDog () .test, .sender () .join]

theorem inventoryRun_oneTag :
    ∃ t, InventoryRun inventoryQuery () 0 t [tagPacket] 3 := by
  have hend : isEOU endPacket = true :=
    (regexMatch_rgxEOU_iff endPacket.toString).mpr ⟨sampleHead, by decide +kernel⟩
  have hcall : (exec (step inventoryQuery) (Sys.init inventoryQuery) oneTagInventory).map
      (fun t => ((t.call ()).pc, (t.call ()).delivered)) =
        some (.returned 3, [tagPacket, endPacket]) := by decide +kernel
  obtain ⟨t, ht, hcall⟩ := Option.map_eq_some_iff.mp hcall
  obtain ⟨hreturned, hdelivered⟩ := Prod.mk.inj hcall
  exact ⟨t, rfl, ⟨_, ht⟩, hreturned, endPacket, hend, hdelivered⟩

/-- The inventory of one tag keeps one read. -/
theorem inventory_lines_classified_oneTag : ∃ (t : Sys Unit (List Str)) (kept : List RfidParseU),
    HandsOut silentHost (fun _ _ _ => (3, (t.call ()).captured)) 1 0 sampleWorld 'b' 3 kept ∧
      ReadsOf nothingSet (([tagPacket].map PacketContent.toString).filter
        fun line => decide (IsTagLine line)) kept := by
  obtain ⟨t, hrun⟩ := inventoryRun_oneTag
  exact ⟨t, inventory_lines_classified.2.2 inventoryQuery () 0 t [tagPacket] 3 hrun silentHost
    (fun _ _ _ => (3, (t.call ()).captured)) 1 sampleWorld 'b' rfl rfl⟩

end RfidEngine
