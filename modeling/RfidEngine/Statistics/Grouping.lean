import RfidEngine.Statistics.Model
import RfidEngine.Lib.GroupCount

/-!
# Statistics by the EPC or by the TID

Where the text that a rule goes by fits its array, the records are the groups
of the reads' tags. A text that does not fit is read back with what follows it
in memory and no longer found.
-/

namespace RfidEngine

open CharArray

/-- The text that a rule goes by. -/
inductive TagText where
  | epc
  | tid
  deriving DecidableEq, Repr

namespace TagText

def rule : TagText → StatisticsRule
  | epc => .byEpc
  | tid => .byTid

/-- The text of a read; a missing TID is none. -/
def ofRead : TagText → RfidParseUR → Option Str
  | epc, parse => some parse.epc.epc
  | tid, parse => if parse.tid = [] then none else some parse.tid

def ofRecord : TagText → EpcStatistics → Option Str
  | epc, item => some item.epcText
  | tid, item => if item.tidText = [] then none else some item.tidText

end TagText

/-- What reads are grouped by: the antenna and the text. -/
structure Tag where
  antenna : Int
  text : Str
  deriving DecidableEq

variable (id : ReaderId) (κ : TagText)

/-- The tag of a read. -/
def tag (parse : RfidParseUR) : Option Tag :=
  (stoi parse.antenna).bind fun antenna => (κ.ofRead parse).map fun t => ⟨antenna, t⟩

/-- The tag that a record stands for. -/
def recordTag (item : EpcStatistics) : Option Tag :=
  (κ.ofRecord item).map fun t => ⟨item.antenna, t⟩

/-- The place of the record that a read is counted in, be it found or opened. -/
def countedAt (stats : List EpcStatistics) (x : Read) : Option Nat :=
  (stoi x.parse.antenna).map fun antenna => findRecord κ.rule stats antenna x

/-- The count of a tag over the records. -/
def countOf (stats : List EpcStatistics) (k : Tag) : Int :=
  (stats.map fun item => if recordTag κ item = some k then item.count else 0).sum

/-- The records group the reads by tag: two eligible reads with a tag share a record exactly
when their tags are equal, each tag's count is the number of its reads, and another order of the
reads gives the same counts. -/
structure GroupsByTag (reads : List Read) (stats : List EpcStatistics) : Prop where
  same_record : ∀ before x between y after statsX statsY,
    reads = before ++ x :: between ++ y :: after →
    x.parse.eligible = true → y.parse.eligible = true →
    doStatisticHelper id κ.rule before = some statsX →
    doStatisticHelper id κ.rule (before ++ x :: between) = some statsY →
    ∀ k k', tag κ x.parse = some k → tag κ y.parse = some k' →
      (countedAt κ statsX x = countedAt κ statsY y ↔ k = k')
  counts : ∀ k, countOf κ stats k =
    reads.countP fun x => x.parse.eligible && decide (tag κ x.parse = some k)
  any_order : ∀ reads' stats', (reads'.map Read.parse).Perm (reads.map Read.parse) →
    doStatisticHelper id κ.rule reads' = some stats' →
    ∀ k, countOf κ stats' k = countOf κ stats k

/-- The text can be read back from its array: it is shorter, so that its terminator is copied
with it; or, for a TID, what sticks out of the array is just the reader's identifier behind it. -/
def Fits : TagText → Str → Prop
  | .epc, t => t.length < epcLen
  | .tid, t => nul ∉ t ∧
      (t.length < tidLen ∨ id.text.length < readerIdLen ∧ t.drop tidLen = id.text)

/-- The text ends before the count, which later reads change. -/
def Terminated : TagText → EpcStatistics → Prop
  | .epc, item => nul ∈ item.epc.cells
  | .tid, item => nul ∈ item.tid.cells ++ item.readerID.cells

theorem epcText_of_terminated {item : EpcStatistics} (h : Terminated .epc item) :
    item.epcText = text nul item.epc.cells := text_append_of_mem h _

theorem tidText_of_terminated {item : EpcStatistics} (h : Terminated .tid item) :
    item.tidText = text nul (item.tid.cells ++ item.readerID.cells) := by
  rw [EpcStatistics.tidText, ← List.append_assoc, text_append_of_mem h]

theorem nul_not_mem_of_hex {t : Str} (h : ∀ ch ∈ t, isHexDigit ch = true) : nul ∉ t :=
  fun hmem => ne_of_class (h nul hmem) (c := nul) (by decide) rfl

theorem tidText_newStat_of_lt (antenna : Int) {x : Read} (hnul : nul ∉ x.parse.tid)
    (hlen : x.parse.tid.length < tidLen) : (newStat id antenna x).tidText = x.parse.tid :=
  text_memcpy_of_lt hnul hlen _ _

theorem tidText_newStat_of_le (antenna : Int) {x : Read} (hnul : nul ∉ x.parse.tid)
    (hlen : tidLen ≤ x.parse.tid.length) :
    (newStat id antenna x).tidText = x.parse.tid.take tidLen ++
      text nul ((newStat id antenna x).readerID.cells ++ (newStat id antenna x).numbers) :=
  text_memcpy_of_le hnul hlen _ _

variable {id κ}

/-- A record opened by a read whose text fits stands for the read's text. -/
theorem newStat_of_fits (antenna : Int) {x : Read} (hx : Parsed x.parse)
    (hfits : ∀ t, κ.ofRead x.parse = some t → Fits id κ t) :
    κ.ofRecord (newStat id antenna x) = κ.ofRead x.parse ∧
      Terminated κ (newStat id antenna x) := by
  cases κ with
  | epc =>
      have hlen : x.parse.epc.epc.length < epcLen := hfits _ rfl
      refine ⟨congrArg some ?_, nul_mem_memcpy hlen _⟩
      exact text_memcpy_of_lt (nul_not_mem_of_hex hx.epc_hex) hlen _ _
  | tid =>
      have hfits' : x.parse.tid ≠ [] → Fits id .tid x.parse.tid :=
        fun hne => hfits _ (if_neg hne)
      have hrecord : (newStat id antenna x).tidText = x.parse.tid →
          TagText.tid.ofRecord (newStat id antenna x) = TagText.tid.ofRead x.parse := by
        intro htext
        rw [TagText.ofRecord, TagText.ofRead, htext]
      obtain hlt | hle := Nat.lt_or_ge x.parse.tid.length tidLen
      · have hnul : nul ∉ x.parse.tid := by
          obtain hnil | hne := eq_or_ne x.parse.tid []
          · simp [hnil]
          · exact (hfits' hne).1
        refine ⟨hrecord (tidText_newStat_of_lt id antenna hnul hlt), ?_⟩
        exact List.mem_append_left _ (nul_mem_memcpy hlt _)
      · -- The text reads on into the identifier, whose terminator ends it.
        have hne : x.parse.tid ≠ [] :=
          List.ne_nil_of_length_pos (Nat.lt_of_lt_of_le (by decide) hle)
        obtain ⟨hnul, hlt | ⟨hid, hdrop⟩⟩ := hfits' hne
        · omega
        · refine ⟨hrecord ?_, List.mem_append_right _ (nul_mem_memcpy hid _)⟩
          have hreader : text nul ((newStat id antenna x).readerID.cells ++
              (newStat id antenna x).numbers) = id.text :=
            text_memcpy_of_lt id.no_nul hid _ _
          calc (newStat id antenna x).tidText
              = x.parse.tid.take tidLen ++ id.text := by
                rw [tidText_newStat_of_le id antenna hnul hle, hreader]
            _ = x.parse.tid := by rw [← hdrop, List.take_append_drop]

theorem recordTag_eq_some_iff {antenna : Int} {t : Str} {item : EpcStatistics} :
    recordTag κ item = some ⟨antenna, t⟩ ↔ κ.ofRecord item = some t ∧ item.antenna = antenna := by
  simp only [recordTag, Option.map_eq_some_iff, Tag.mk.injEq]
  constructor
  · intro h
    obtain ⟨t', ht, ha, rfl⟩ := h
    exact ⟨ht, ha⟩
  · intro h
    exact ⟨t, h.1, h.2, rfl⟩

/-- The search finds the records of the read's tag. -/
theorem sameTag_iff {antenna : Int} {parse : RfidParseUR} {item : EpcStatistics} :
    sameTag κ.rule antenna parse.epc.epc parse.tid item = true ↔
      ∃ t, κ.ofRead parse = some t ∧ recordTag κ item = some ⟨antenna, t⟩ := by
  simp only [recordTag_eq_some_iff]
  obtain ha | ha := ne_or_eq item.antenna antenna
  · simp [sameTag, ha]
  · cases κ with
    | epc => simp [sameTag, TagText.rule, TagText.ofRead, TagText.ofRecord, ha]
    | tid =>
        simp only [sameTag, TagText.rule, TagText.ofRead, TagText.ofRecord, ha]
        obtain hnil | hne := eq_or_ne parse.tid []
        · simp [hnil]
        · simp only [hne, if_false, Option.some.injEq, exists_eq_left', and_true]
          obtain hrec | hrec := eq_or_ne item.tidText []
          · simp [hrec]
          · simp [hne, hrec]

/-- A read counted in a record of its tag leaves the record one of that tag. -/
theorem countRead_of_sameTag {x : Read} {item : EpcStatistics} {antenna : Int}
    (hterm : Terminated κ item)
    (hsame : sameTag κ.rule antenna x.parse.epc.epc x.parse.tid item = true) :
    recordTag κ (countRead x item) = recordTag κ item ∧ Terminated κ (countRead x item) := by
  cases κ with
  | epc =>
      have hepc : (countRead x item).epc = item.epc := by rw [countRead_eq]
      have hantenna : (countRead x item).antenna = item.antenna := by rw [countRead_eq]
      have hterm' : Terminated .epc (countRead x item) := by
        change nul ∈ (countRead x item).epc.cells
        rw [hepc]
        exact hterm
      refine ⟨?_, hterm'⟩
      simp only [recordTag, TagText.ofRecord, epcText_of_terminated hterm,
        epcText_of_terminated hterm', hepc, hantenna]
  | tid =>
      obtain ⟨t, -, htag⟩ := sameTag_iff.mp hsame
      have hne : item.tidField ≠ [] := by
        intro hnil
        rw [recordTag, TagText.ofRecord, if_pos ((item.tidText_eq_nil_iff).mpr hnil)] at htag
        exact absurd htag (by simp)
      rw [countRead_of_tidField x item hne]
      have hterm' : Terminated .tid { item with count := item.count + 1 } := hterm
      refine ⟨?_, hterm'⟩
      simp only [recordTag, TagText.ofRecord, tidText_of_terminated hterm,
        tidText_of_terminated hterm']

variable (κ)

/-- The records as groups of tags. -/
def groupsOf (stats : List EpcStatistics) : GroupCount.Groups Tag :=
  stats.map fun item => (recordTag κ item, item.count)

/-- The tags of the reads that are counted. -/
def tags (reads : List Read) : List (Option Tag) :=
  (reads.filter fun x => x.parse.eligible).map fun x => tag κ x.parse

theorem total_groupsOf (stats : List EpcStatistics) (k : Tag) :
    GroupCount.total (groupsOf κ stats) k = countOf κ stats k := by
  rw [GroupCount.total, groupsOf, List.map_map]
  rfl

theorem count_tags (reads : List Read) (k : Tag) :
    (tags κ reads).count (some k) =
      reads.countP fun x => x.parse.eligible && decide (tag κ x.parse = some k) := by
  rw [tags, List.count, List.countP_map, List.countP_filter]
  congr 1
  funext x
  simp [Bool.and_comm, beq_eq_decide]

variable {κ}

/-- The search of the code is the search among the groups. -/
theorem findRecord_eq_slot {antenna : Int} {x : Read}
    (hantenna : stoi x.parse.antenna = some antenna) (stats : List EpcStatistics) :
    findRecord κ.rule stats antenna x =
      GroupCount.slot (groupsOf κ stats) (tag κ x.parse) := by
  cases hread : κ.ofRead x.parse with
  | none =>
      have htag : tag κ x.parse = none := by simp [tag, hantenna, hread]
      rw [htag, GroupCount.slot, groupsOf, List.length_map, findRecord, List.findIdx_eq_length]
      intro item _
      rw [Bool.eq_false_iff]
      intro hsame
      obtain ⟨t, ht, -⟩ := sameTag_iff.mp hsame
      exact absurd (hread.symm.trans ht) (by simp)
  | some t =>
      have htag : tag κ x.parse = some ⟨antenna, t⟩ := by simp [tag, hantenna, hread]
      rw [htag, GroupCount.slot, groupsOf, List.map_map, findRecord, List.idxOf, List.findIdx_map]
      congr 1
      funext item
      rw [Bool.eq_iff_iff, sameTag_iff, hread]
      simp

/-- A record in which a read of its tag is counted adds one to the group at its place. -/
theorem groupsOf_modify {stats : List EpcStatistics} {p : Nat} (hp : p < stats.length) {x : Read}
    (htag : recordTag κ (countRead x stats[p]) = recordTag κ stats[p]) :
    groupsOf κ (stats.modify p (countRead x)) =
      (groupsOf κ stats).modify p fun g => (g.1, g.2 + 1) := by
  apply List.ext_getElem
  · simp [groupsOf]
  · intro j h₁ h₂
    simp only [groupsOf, List.getElem_map, List.getElem_modify]
    split
    · rename_i hjp
      subst hjp
      rw [htag, countRead_count]
    · rfl

theorem terminated_modify {stats : List EpcStatistics} {p : Nat} (hp : p < stats.length) {x : Read}
    (hterm : ∀ item ∈ stats, Terminated κ item) (hcounted : Terminated κ (countRead x stats[p])) :
    ∀ item ∈ stats.modify p (countRead x), Terminated κ item := by
  intro item hitem
  obtain ⟨j, hj, rfl⟩ := List.getElem_of_mem hitem
  rw [List.getElem_modify]
  split
  · rename_i hjp
    subst hjp
    exact hcounted
  · exact hterm _ (List.getElem_mem _)

/-- One turn of the loop adds the read's tag to the groups. -/
theorem doStatistic_refines {stats stats' : List EpcStatistics} {x : Read} (hx : Parsed x.parse)
    (hfits : x.parse.eligible = true → ∀ t, κ.ofRead x.parse = some t → Fits id κ t)
    (hterm : ∀ item ∈ stats, Terminated κ item)
    (h : doStatistic id κ.rule stats x = some stats') :
    (∀ item ∈ stats', Terminated κ item) ∧
      groupsOf κ stats' = if x.parse.eligible then
        GroupCount.add (groupsOf κ stats) (tag κ x.parse) else groupsOf κ stats := by
  obtain ⟨hskip, rfl⟩ | ⟨antenna, heligible, hantenna, hturn⟩ := doStatistic_cases h
  · exact ⟨hterm, by simp [hskip]⟩
  · rw [if_pos heligible, GroupCount.add, ← findRecord_eq_slot hantenna]
    have hlen : (groupsOf κ stats).length = stats.length := List.length_map _
    obtain ⟨hp, rfl⟩ | ⟨hp, hsame, rfl⟩ := hturn
    · obtain ⟨hread, hnew⟩ := newStat_of_fits antenna hx (hfits heligible)
      have htag : recordTag κ (newStat id antenna x) = tag κ x.parse := by
        rw [recordTag, tag, hantenna, hread]
        rfl
      constructor
      · intro item hitem
        obtain hold | hlast := List.mem_append.mp hitem
        · exact hterm item hold
        · exact List.mem_singleton.mp hlast ▸ hnew
      · rw [if_neg (by omega), groupsOf, List.map_append, List.map_singleton, htag]
        rfl
    · obtain ⟨htag, hcounted⟩ := countRead_of_sameTag (hterm _ (List.getElem_mem hp)) hsame
      rw [if_pos (by omega)]
      exact ⟨terminated_modify hp hterm hcounted, groupsOf_modify hp htag⟩

variable (id κ)

/-- A parsed read whose text, if it is counted, fits. -/
def FittingRead (parse : RfidParseUR) : Prop :=
  Parsed parse ∧ (parse.eligible = true → ∀ t, κ.ofRead parse = some t → Fits id κ t)

variable {id κ}

/-- The records of a run over fitting reads are the groups of their tags. -/
theorem doStatisticHelper_refines {reads : List Read} {stats : List EpcStatistics}
    (hreads : ∀ x ∈ reads, FittingRead id κ x.parse)
    (h : doStatisticHelper id κ.rule reads = some stats) :
    groupsOf κ stats = GroupCount.tally (tags κ reads) := by
  have hrun := StepSystem.exec_history
    (M := fun as u => (∀ x ∈ as, FittingRead id κ x.parse) →
      (∀ item ∈ u, Terminated κ item) ∧ groupsOf κ u = GroupCount.tally (tags κ as))
    (fun _ => ⟨by simp, rfl⟩) ?_ h
  · exact (hrun hreads).2
  · intro as u x u' _ hu hstep hall
    obtain ⟨hterm, hgroups⟩ := hu fun y hy => hall y (List.mem_append_left _ hy)
    obtain ⟨hx, hfits⟩ := hall x (by simp)
    obtain ⟨hterm', hgroups'⟩ := doStatistic_refines hx hfits hterm hstep
    refine ⟨hterm', ?_⟩
    rw [hgroups', hgroups]
    obtain hskip | heligible := Bool.eq_false_or_eq_true x.parse.eligible |>.symm
    · simp [tags, hskip]
    · rw [if_pos heligible, ← GroupCount.tally_snoc]
      simp [tags, heligible]

theorem countOf_of_fitting {reads : List Read} {stats : List EpcStatistics}
    (hreads : ∀ x ∈ reads, FittingRead id κ x.parse)
    (h : doStatisticHelper id κ.rule reads = some stats) (k : Tag) :
    countOf κ stats k =
      reads.countP fun x => x.parse.eligible && decide (tag κ x.parse = some k) := by
  rw [← total_groupsOf, doStatisticHelper_refines hreads h, GroupCount.total_tally, count_tags]

theorem countedAt_of_fitting {reads : List Read} {stats : List EpcStatistics} {x : Read} {k : Tag}
    (hreads : ∀ x ∈ reads, FittingRead id κ x.parse)
    (h : doStatisticHelper id κ.rule reads = some stats) (hk : tag κ x.parse = some k) :
    countedAt κ stats x = some (GroupCount.slot (GroupCount.tally (tags κ reads)) (some k)) := by
  obtain ⟨antenna, hantenna, -⟩ := Option.bind_eq_some_iff.mp hk
  rw [countedAt, hantenna, Option.map_some, findRecord_eq_slot hantenna,
    doStatisticHelper_refines hreads h, hk]

/-- Fitting reads are grouped by tag. -/
theorem groupsByTag_of_fitting {reads : List Read} {stats : List EpcStatistics}
    (hreads : ∀ x ∈ reads, FittingRead id κ x.parse)
    (h : doStatisticHelper id κ.rule reads = some stats) : GroupsByTag id κ reads stats where
  same_record := by
    intro before x between y after statsX statsY hsplit hx hy hrunX hrunY k k' hk hk'
    have hbefore : ∀ z ∈ before, FittingRead id κ z.parse :=
      fun z hz => hreads z (by simp [hsplit, hz])
    have hbetween : ∀ z ∈ before ++ x :: between, FittingRead id κ z.parse := by
      intro z hz
      apply hreads z
      rw [hsplit]
      exact List.mem_append_left _ hz
    have htags : tags κ (before ++ x :: between) = tags κ before ++ some k :: tags κ between := by
      simp [tags, hx, hk]
    rw [countedAt_of_fitting hbefore hrunX hk, countedAt_of_fitting hbetween hrunY hk', htags,
      Option.some.injEq]
    exact GroupCount.slot_eq_iff _ _ k k'
  counts := countOf_of_fitting hreads h
  any_order := by
    intro reads' stats' hperm hrun' k
    have hreads' : ∀ x ∈ reads', FittingRead id κ x.parse := by
      intro x hx
      obtain ⟨y, hy, hparse⟩ := List.mem_map.mp (hperm.subset (List.mem_map_of_mem hx))
      exact hparse ▸ hreads y hy
    rw [countOf_of_fitting hreads' hrun' k, countOf_of_fitting hreads h k]
    have hcount := hperm.countP_eq
      fun parse => parse.eligible && decide (tag κ parse = some k)
    rw [List.countP_map, List.countP_map] at hcount
    exact congrArg Nat.cast hcount

end RfidEngine
