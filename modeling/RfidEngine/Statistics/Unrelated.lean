import RfidEngine.Statistics.Conservation
import RfidEngine.Statistics.Grouping

/-!
# Statistics by the EPC or the TID

The rule goes by either text, and a missing TID equals a missing TID. A read
without a TID is therefore counted in the first record of its antenna that has
its EPC or no TID either.
-/

namespace RfidEngine

open CharArray StepSystem

/-- A read counted in a record there is has the record's antenna, and its EPC or its TID. -/
def CountsRelated (stats : List EpcStatistics) (x : Read) : Prop :=
  ∀ antenna item, x.parse.eligible = true → stoi x.parse.antenna = some antenna →
    stats[findRecord .byEpcOrTid stats antenna x]? = some item →
    item.antenna = antenna ∧
      (item.epcText = x.parse.epc.epc ∨ x.parse.tid ≠ [] ∧ item.tidText = x.parse.tid)

/-- Of the records of its antenna, a read without a TID meets one with its EPC before any other
that has no TID. -/
def MeetsOwnEpc (stats : List EpcStatistics) (x : Read) : Prop :=
  ∀ antenna item, x.parse.eligible = true → stoi x.parse.antenna = some antenna →
    x.parse.tid = [] →
    stats.find? (fun item => item.antenna == antenna &&
      (item.epcText == x.parse.epc.epc || item.tidText == [])) = some item →
    item.epcText = x.parse.epc.epc

variable (id : ReaderId)

/-- Every read of the list is counted in a record that it belongs to. -/
def Relates (reads : List Read) : Prop :=
  Along (doStatistic id .byEpcOrTid) CountsRelated [] reads

def MeetOwnEpcs (reads : List Read) : Prop :=
  Along (doStatistic id .byEpcOrTid) MeetsOwnEpc [] reads

/-- Two reads of one antenna with different EPCs and no TID are counted in different records. -/
def NeverTogether (reads : List Read) : Prop :=
  ∀ before x between y after statsX statsY antenna,
    reads = before ++ x :: between ++ y :: after →
    doStatisticHelper id .byEpcOrTid before = some statsX →
    doStatisticHelper id .byEpcOrTid (before ++ x :: between) = some statsY →
    x.parse.eligible = true → y.parse.eligible = true →
    stoi x.parse.antenna = some antenna → stoi y.parse.antenna = some antenna →
    x.parse.tid = [] → y.parse.tid = [] → x.parse.epc.epc ≠ y.parse.epc.epc →
    findRecord .byEpcOrTid statsX antenna x ≠ findRecord .byEpcOrTid statsY antenna y

/-- Every EPC that is counted has room for its terminator. -/
def EpcsFit (reads : List Read) : Prop :=
  ∀ x ∈ reads, x.parse.eligible = true → x.parse.epc.epc.length < epcLen

variable {id} {stats stats' : List EpcStatistics} {x : Read} {antenna : Int}

theorem sameTag_byEpcOrTid_iff {epc tid : Str} {item : EpcStatistics} :
    sameTag .byEpcOrTid antenna epc tid item = true ↔
      item.antenna = antenna ∧ (item.epcText = epc ∨ item.tidText = tid) := by
  simp only [sameTag]
  split
  · rename_i hne
    exact iff_of_false Bool.false_ne_true fun h => hne h.1
  · rename_i heq
    simp [not_not.mp heq]

/-- A record that is found has the read's antenna, and one of its texts. -/
theorem found_texts {item : EpcStatistics}
    (h : stats[findRecord .byEpcOrTid stats antenna x]? = some item) :
    item.antenna = antenna ∧
      (item.epcText = x.parse.epc.epc ∨ item.tidText = x.parse.tid) := by
  rw [findRecord, ← List.find?_eq_getElem?_findIdx] at h
  exact sameTag_byEpcOrTid_iff.mp (List.find?_some h)

/-- Only a read without a TID can be counted in a record that it does not belong to. -/
theorem countsRelated_iff_meetsOwnEpc : CountsRelated stats x ↔ MeetsOwnEpc stats x := by
  have hsearch : x.parse.tid = [] → ∀ antenna : Int,
      stats[findRecord .byEpcOrTid stats antenna x]? =
        stats.find? (fun item => item.antenna == antenna &&
          (item.epcText == x.parse.epc.epc || item.tidText == [])) := by
    intro htid antenna
    rw [findRecord, ← List.find?_eq_getElem?_findIdx]
    congr 1
    funext item
    rw [Bool.eq_iff_iff, sameTag_byEpcOrTid_iff, htid]
    simp
  constructor
  · intro h antenna item heligible hantenna htid hfound
    rw [← hsearch htid antenna] at hfound
    obtain ⟨-, hepc | ⟨hne, -⟩⟩ := h antenna item heligible hantenna hfound
    · exact hepc
    · exact absurd htid hne
  · intro h antenna item heligible hantenna hfound
    obtain ⟨hsame, hepc | htid⟩ := found_texts hfound
    · exact ⟨hsame, Or.inl hepc⟩
    · refine ⟨hsame, ?_⟩
      obtain hnil | hne := eq_or_ne x.parse.tid []
      · rw [hsearch hnil antenna] at hfound
        exact Or.inl (h antenna item heligible hantenna hnil hfound)
      · exact Or.inr ⟨hne, htid⟩

theorem doStatistic_terminated (hfits : x.parse.eligible = true → x.parse.epc.epc.length < epcLen)
    (hI : ∀ item ∈ stats, Terminated .epc item)
    (h : doStatistic id .byEpcOrTid stats x = some stats') :
    ∀ item ∈ stats', Terminated .epc item := by
  obtain ⟨-, rfl⟩ | ⟨antenna, heligible, -, ⟨-, rfl⟩ | ⟨hp, -, rfl⟩⟩ := doStatistic_cases h
  · exact hI
  · intro item hitem
    obtain hold | hnew := List.mem_append.mp hitem
    · exact hI item hold
    · obtain rfl := List.mem_singleton.mp hnew
      exact nul_mem_memcpy (hfits heligible) _
  · intro item hitem
    obtain ⟨j, hj, rfl⟩ := List.getElem_of_mem hitem
    have hj' : j < stats.length := by simpa using hj
    have hold := hI stats[j] (List.getElem_mem hj')
    rw [List.getElem_modify]
    split
    · rw [countRead_eq]
      exact hold
    · exact hold

theorem terminated_of_fit {reads : List Read} (hfits : EpcsFit reads)
    (h : doStatisticHelper id .byEpcOrTid reads = some stats) :
    ∀ item ∈ stats, Terminated .epc item := by
  have hrun := exec_history
    (M := fun as u => EpcsFit as → ∀ item ∈ u, Terminated .epc item)
    (fun _ => by simp) ?_ h
  · exact hrun hfits
  · intro as u x u' _ hu hstep hfit
    refine doStatistic_terminated (hfit x (by simp)) (hu fun y hy => ?_) hstep
    exact hfit y (List.mem_append_left _ hy)

/-- After a read without a TID was counted, its record has its EPC. -/
theorem counted_epcText (hparsed : Parsed x.parse) (hrelated : CountsRelated stats x)
    (hfits : x.parse.epc.epc.length < epcLen) (hI : ∀ item ∈ stats, Terminated .epc item)
    (heligible : x.parse.eligible = true) (hantenna : stoi x.parse.antenna = some antenna)
    (htid : x.parse.tid = []) (h : doStatistic id .byEpcOrTid stats x = some stats') :
    ∃ item, stats'[findRecord .byEpcOrTid stats antenna x]? = some item ∧
      text nul item.epc.cells = x.parse.epc.epc := by
  obtain ⟨hskip, -⟩ | ⟨a, -, ha, hcase⟩ := doStatistic_cases h
  · exact absurd heligible (by simp [hskip])
  · obtain rfl := Option.some.inj (ha.symm.trans hantenna)
    obtain ⟨hp, rfl⟩ | ⟨hp, -, rfl⟩ := hcase
    · refine ⟨newStat id a x, by simp [hp], ?_⟩
      have htext := text_memcpy_of_lt (nul_not_mem_of_hex hparsed.epc_hex) hfits x.behind.epc []
      rwa [List.append_nil] at htext
    · refine ⟨countRead x stats[findRecord .byEpcOrTid stats a x], ?_, ?_⟩
      · simp [hp]
      · obtain ⟨-, hepc | ⟨hne, -⟩⟩ := hrelated a _ heligible hantenna
          (List.getElem?_eq_getElem hp)
        · rw [countRead_eq, ← hepc]
          exact (epcText_of_terminated (hI _ (List.getElem_mem hp))).symm
        · exact absurd htid hne

theorem neverTogether_of_relates {reads : List Read} (hparsed : ∀ x ∈ reads, Parsed x.parse)
    (hfits : EpcsFit reads) (h : Relates id reads) : NeverTogether id reads := by
  intro before x between y after statsX statsY antenna hreads hX hY hx hy hax hay htx hty hne heq
  have hmemx : x ∈ reads := by simp [hreads]
  have hfitX : EpcsFit before := fun z hz => hfits z (by simp [hreads, hz])
  have hfitY : EpcsFit (before ++ x :: between) := fun z hz => hfits z (by
    rw [hreads]
    exact List.mem_append_left _ hz)
  have hrelX := along_iff_split.mp h before x (between ++ y :: after) statsX
    (by simp [hreads]) hX
  have hrelY := along_iff_split.mp h (before ++ x :: between) y after statsY hreads hY
  -- The record of `x` right after `x` was counted, and when `y` comes.
  obtain ⟨u, hu, hrest⟩ := (exec_append_eq_some _).mp hY
  obtain rfl := Option.some.inj (hX.symm.trans hu)
  obtain ⟨stats₁, hstep, hbetween⟩ := (exec_cons_eq_some _).mp hrest
  obtain ⟨item, hitem, hepcx⟩ := counted_epcText (hparsed x hmemx) hrelX (hfits x hmemx hx)
    (terminated_of_fit hfitX hX) hx hax htx hstep
  obtain ⟨item', hitem', hgrown⟩ := exec_extends hbetween _ _ hitem
  rw [heq] at hitem'
  have hterm := terminated_of_fit hfitY hY item' (List.mem_of_getElem? hitem')
  obtain ⟨-, hepcy | ⟨htid, -⟩⟩ := hrelY antenna item' hy hay hitem'
  · rw [epcText_of_terminated hterm, hgrown.epc, hepcx] at hepcy
    exact hne hepcy
  · exact htid hty

/-- Every read is counted where it belongs exactly when every read without a TID meets a record
of its EPC first; where the EPCs fit, no two of different EPCs are then counted together. -/
theorem statistics_relate_reads_iff (id : ReaderId) (reads : List Read)
    (hparsed : ∀ x ∈ reads, Parsed x.parse) :
    (Relates id reads ↔ MeetOwnEpcs id reads) ∧
      (EpcsFit reads → (Relates id reads ∧ NeverTogether id reads ↔ MeetOwnEpcs id reads)) := by
  have hiff : Relates id reads ↔ MeetOwnEpcs id reads :=
    along_congr fun _ _ => countsRelated_iff_meetsOwnEpc
  refine ⟨hiff, fun hfits => ?_⟩
  constructor
  · intro h
    exact hiff.mp h.1
  · intro h
    have hrelates := hiff.mpr h
    exact ⟨hrelates, neverTogether_of_relates hparsed hfits hrelates⟩

/-- A read of the TID bank on antenna 1. -/
def sampleTidRead (epc : HexText 16) (result : BankResult) : Read where
  parse := (sampleReply epc result).parsed .tid
  behind := (sampleStatRead [] []).behind

section SampleTidRead

variable (epc : HexText 16) (result : BankResult)

theorem parsed_sampleTidRead : Parsed (sampleTidRead epc result).parse :=
  MultiBankReply.parsed_parsed _ nothingSet .tid

theorem stoi_sampleTidRead : stoi (sampleTidRead epc result).parse.antenna = some 1 := by
  change stoi ['1'] = some 1
  decide

theorem sampleTidRead_fits : (sampleTidRead epc result).parse.epc.epc.length < epcLen := by
  change (epc : Str).length < epcLen
  rw [epc.2.1]
  decide

end SampleTidRead

/-- A tag read with its TID and then without it is counted in its own record. -/
theorem statistics_relate_reads_missedOnce :
    let reads := [sampleTidRead sampleEpc sampleTid, sampleTidRead sampleEpc missingTid]
    Relates sampleReaderId reads ∧ NeverTogether sampleReaderId reads := by
  intro reads
  have hparsed : ∀ x ∈ reads, Parsed x.parse := by
    simp [reads, parsed_sampleTidRead]
  have hfits : EpcsFit reads := by
    simp [EpcsFit, reads, sampleTidRead_fits]
  refine ((statistics_relate_reads_iff sampleReaderId reads hparsed).2 hfits).mpr ?_
  refine ⟨?_, fun s hs => ⟨?_, fun _ _ => trivial⟩⟩
  · intro antenna item _ _ _ hfound
    exact absurd hfound (by simp)
  · intro antenna item _ _ _ hfound
    obtain rfl : [newStat sampleReaderId 1 (sampleTidRead sampleEpc sampleTid)] = s :=
      Option.some.inj hs
    have hmem := List.mem_singleton.mp (List.mem_of_find?_eq_some hfound)
    rw [hmem]
    decide

/-- Two tags on one antenna, both read without their TIDs, are counted together. -/
theorem missing_tids_merge :
    let reads := [sampleTidRead sampleEpc missingTid, sampleTidRead otherEpc missingTid]
    (∀ x ∈ reads, Parsed x.parse) ∧ EpcsFit reads ∧
      ¬ Relates sampleReaderId reads ∧ ¬ NeverTogether sampleReaderId reads := by
  intro reads
  have hantenna := stoi_sampleTidRead
  refine ⟨?_, ?_, ?_, ?_⟩
  · simp [reads, parsed_sampleTidRead]
  · simp [EpcsFit, reads, sampleTidRead_fits]
  · intro h
    have hsecond := (h.2 [newStat sampleReaderId 1 (sampleTidRead sampleEpc missingTid)] rfl).1
    obtain ⟨-, hepc | ⟨htid, -⟩⟩ := hsecond 1 _ rfl (hantenna _ _) rfl
    · exact absurd hepc (by decide)
    · exact htid rfl
  · intro h
    apply h [] _ [] _ [] [] _ 1 rfl rfl rfl rfl rfl (hantenna _ _) (hantenna _ _) rfl rfl
    · decide
    · decide

end RfidEngine
