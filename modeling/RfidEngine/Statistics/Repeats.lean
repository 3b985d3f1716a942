import RfidEngine.Statistics.Grouping

/-!
# Texts that are not found again

A read whose text does not fit its array opens a record that the next reads of
the same tag, or the ones after them, do not find. The texts that group by tag
are therefore exactly those that fit.
-/

namespace RfidEngine

open CharArray

variable {id : ReaderId} {κ : TagText} {rule : StatisticsRule} {x : Read} {antenna : Int}

theorem doStatisticHelper_single (heligible : x.parse.eligible = true)
    (hantenna : stoi x.parse.antenna = some antenna) :
    doStatisticHelper id rule [x] = some [newStat id antenna x] := by
  simp [doStatisticHelper, StepSystem.exec, doStatistic, heligible, hantenna]

/-- Another read of the same kind ends in a record, found or new. -/
theorem doStatistic_completes {item : EpcStatistics} (heligible : x.parse.eligible = true)
    (hantenna : stoi x.parse.antenna = some antenna) (hcount : item.count < intMax) :
    ∃ stats, doStatistic id rule [item] x = some stats := by
  simp only [doStatistic, heligible, if_true, hantenna, Option.bind_eq_bind, Option.bind_some]
  split
  · exact ⟨_, rfl⟩
  · rename_i found hfound
    have hmem := List.mem_of_getElem? hfound
    obtain rfl := List.mem_singleton.mp hmem
    exact ⟨_, if_pos hcount⟩

/-- Where the reads are grouped by tag, a repeated read is counted in the only record. -/
theorem found_again {item : EpcStatistics} {mid : List Read} {k : Tag}
    (heligible : x.parse.eligible = true) (hantenna : stoi x.parse.antenna = some antenna)
    (hk : tag κ x.parse = some k) (hcount : item.count < intMax)
    (hrun : doStatisticHelper id κ.rule (x :: mid) = some [item])
    (hgroups : ∀ stats, doStatisticHelper id κ.rule (x :: mid ++ [x]) = some stats →
      GroupsByTag id κ (x :: mid ++ [x]) stats) :
    sameTag κ.rule antenna x.parse.epc.epc x.parse.tid item = true ∧
      doStatisticHelper id κ.rule (x :: mid ++ [x]) = some [countRead x item] := by
  obtain ⟨stats, hstep⟩ : ∃ stats, doStatistic id κ.rule [item] x = some stats :=
    doStatistic_completes heligible hantenna hcount
  have hrun' : doStatisticHelper id κ.rule (x :: mid ++ [x]) = some stats :=
    (StepSystem.exec_append_eq_some _).mpr ⟨[item], hrun, by simp [StepSystem.exec, hstep]⟩
  have hsame := ((hgroups stats hrun').same_record [] x mid x [] [] [item] rfl heligible heligible
    rfl hrun k k hk hk).mpr rfl
  have hzero : findRecord κ.rule [item] antenna x = 0 := by
    simp only [countedAt, hantenna, Option.map_some, Option.some.injEq] at hsame
    exact hsame.symm
  obtain ⟨hskip, -⟩ | ⟨antenna', -, hantenna', ⟨hend, -⟩ | ⟨hp, hfound, rfl⟩⟩ :=
    doStatistic_cases hstep
  · exact absurd (hskip.symm.trans heligible) Bool.false_ne_true
  · obtain rfl := Option.some.inj (hantenna.symm.trans hantenna')
    exact absurd (hzero.symm.trans hend) Nat.zero_ne_one
  · obtain rfl := Option.some.inj (hantenna.symm.trans hantenna')
    simp only [hzero] at hfound hrun'
    exact ⟨hfound, hrun'⟩

/-- All reads over these texts are grouped by tag. -/
def GroupsAll (id : ReaderId) (κ : TagText) (texts : Set Str) : Prop :=
  ∀ reads : List Read,
    (∀ x ∈ reads, Parsed x.parse ∧
      (x.parse.eligible = true → ∀ t, κ.ofRead x.parse = some t → t ∈ texts)) →
    ∀ stats, doStatisticHelper id κ.rule reads = some stats → GroupsByTag id κ reads stats

theorem stoi_sampleUR (epc tid : Str) : stoi (sampleUR epc tid).antenna = some 1 := by
  change stoi ['1'] = some 1
  decide

/-- Sample reads over texts that are grouped by tag are found again, and once more. -/
theorem GroupsAll.found_again {texts : Set Str} (h : GroupsAll id κ texts) {epc tid t : Str}
    (hparsed : Parsed (sampleUR epc tid)) (ht : κ.ofRead (sampleUR epc tid) = some t)
    (hmem : t ∈ texts) :
    sameTag κ.rule 1 epc tid (newStat id 1 (sampleStatRead epc tid)) = true ∧
      sameTag κ.rule 1 epc tid
        (countRead (sampleStatRead epc tid) (newStat id 1 (sampleStatRead epc tid))) = true := by
  have hreads : ∀ n : Nat, ∀ x ∈ List.replicate n (sampleStatRead epc tid), Parsed x.parse ∧
      (x.parse.eligible = true → ∀ t, κ.ofRead x.parse = some t → t ∈ texts) := by
    intro n x hx
    obtain rfl := List.eq_of_mem_replicate hx
    refine ⟨hparsed, fun _ t' ht' => ?_⟩
    obtain rfl := Option.some.inj (ht.symm.trans ht')
    exact hmem
  have hantenna : stoi (sampleStatRead epc tid).parse.antenna = some 1 := stoi_sampleUR epc tid
  have hk : tag κ (sampleUR epc tid) = some ⟨1, t⟩ := by
    rw [tag, stoi_sampleUR, ht]
    rfl
  have hone : (1 : Int) < intMax := by decide
  have htwo : (countRead (sampleStatRead epc tid)
      (newStat id 1 (sampleStatRead epc tid))).count < intMax := by
    rw [countRead_count]
    change (1 : Int) + 1 < intMax
    decide
  obtain ⟨hfirst, hrun⟩ := RfidEngine.found_again rfl hantenna hk hone
    (doStatisticHelper_single rfl hantenna) (h _ (hreads 2))
  obtain ⟨hsecond, -⟩ := RfidEngine.found_again rfl hantenna hk htwo
    hrun (h _ (hreads 3))
  exact ⟨hfirst, hsecond⟩

/-- An EPC that is not shorter than its array reads on into the TID. -/
theorem epcText_newStat_of_le {x : Read} (hepc : nul ∉ x.parse.epc.epc)
    (hle : epcLen ≤ x.parse.epc.epc.length) (htid : nul ∉ x.parse.tid)
    (hlt : x.parse.tid.length < tidLen) :
    (newStat id antenna x).epcText = x.parse.epc.epc.take epcLen ++ x.parse.tid := by
  rw [← tidText_newStat_of_lt id antenna htid hlt]
  exact text_memcpy_of_le hepc hle _ _

theorem fits_epc_of_groupsAll {texts : Set Str} (h : GroupsAll id .epc texts) {e : Str}
    (hmem : e ∈ texts) (hhex : ∀ ch ∈ e, isHexDigit ch = true) : Fits id .epc e := by
  obtain hlt | hle := Nat.lt_or_ge e.length epcLen
  · exact hlt
  · have hnul := nul_not_mem_of_hex hhex
    have htext : ∀ tid : Str, (∀ ch ∈ tid, isDot ch = true) → tid.length ≠ 1 → nul ∉ tid →
        tid.length < tidLen → e.take epcLen ++ tid = e := by
      intro tid hdot hlen htid hlt
      obtain ⟨hsame, -⟩ := h.found_again (parsed_sampleUR hhex hdot hlen) rfl hmem
      have hread : (newStat id 1 (sampleStatRead e tid)).epcText = e.take epcLen ++ tid :=
        epcText_newStat_of_le (x := sampleStatRead e tid) hnul hle htid hlt
      have hfound : (newStat id 1 (sampleStatRead e tid)).epcText = e := by
        simp only [sameTag] at hsame
        split at hsame
        · exact absurd hsame Bool.false_ne_true
        · simpa [TagText.rule] using hsame
      exact hread.symm.trans hfound
    have hnone := htext [] (by simp) (by simp) (by simp) (by decide)
    have hsome := htext ['A', 'B'] (List.all_eq_true.mp rfl) (by decide) (by decide) (by decide)
    exact absurd (List.append_cancel_left (hnone.trans hsome.symm)) (by decide)

theorem text_numbers_of_count {item : EpcStatistics} {c : Char} {v : Int}
    (hcount : item.count = v) (hbytes : intBytes v = [c, nul, nul, nul])
    (hc : c ≠ nul) : text nul item.numbers = [c] := by
  simp [EpcStatistics.numbers, hcount, hbytes, text, hc]

/-- The record opened by the read, at a later count. -/
def newStatAt (id : ReaderId) (antenna : Int) (x : Read) (count : Int) : EpcStatistics :=
  { newStat id antenna x with count := count }

/-- Where a TID that fills its array is read back, what sticks out is what follows in memory. -/
theorem drop_tid_of_tidText {count : Int} (hnul : nul ∉ x.parse.tid)
    (hle : tidLen ≤ x.parse.tid.length)
    (h : (newStatAt id antenna x count).tidText = x.parse.tid) :
    x.parse.tid.drop tidLen = text nul ((newStat id antenna x).readerID.cells ++
      (newStatAt id antenna x count).numbers) := by
  have hread : (newStatAt id antenna x count).tidText = x.parse.tid.take tidLen ++
      text nul ((newStat id antenna x).readerID.cells ++
        (newStatAt id antenna x count).numbers) := text_memcpy_of_le hnul hle _ _
  apply List.append_cancel_left
  rw [List.take_append_drop, ← hread, h]

/-- Behind an identifier that fills its array stands the count, which changes. -/
theorem readerId_of_tidText (hnul : nul ∉ x.parse.tid) (hle : tidLen ≤ x.parse.tid.length)
    (hone : (newStatAt id antenna x 1).tidText = x.parse.tid)
    (htwo : (newStatAt id antenna x 2).tidText = x.parse.tid) :
    id.text.length < readerIdLen ∧ x.parse.tid.drop tidLen = id.text := by
  have hdrop₁ := drop_tid_of_tidText hnul hle hone
  have hdrop₂ := drop_tid_of_tidText hnul hle htwo
  obtain hid | hid := Nat.lt_or_ge id.text.length readerIdLen
  · exact ⟨hid, hdrop₁.trans (text_memcpy_of_lt id.no_nul hid _ _)⟩
  · have hlong : ∀ back : Str, text nul ((newStat id antenna x).readerID.cells ++ back) =
        id.text.take readerIdLen ++ text nul back :=
      fun back => text_memcpy_of_le id.no_nul hid _ back
    have hsame := hdrop₁.symm.trans hdrop₂
    rw [hlong, hlong, text_numbers_of_count (v := 1) (c := '\x01') rfl (by decide) (by decide),
      text_numbers_of_count (v := 2) (c := '\x02') rfl (by decide) (by decide)] at hsame
    exact absurd (List.append_cancel_left hsame) (by decide)

theorem fits_tid_of_groupsAll {texts : Set Str} (h : GroupsAll id .tid texts) {t : Str}
    (hmem : t ∈ texts) (hdot : ∀ ch ∈ t, isDot ch = true) (hlen : t.length ≠ 1) (hne : t ≠ []) :
    Fits id .tid t := by
  have hparsed : Parsed (sampleUR [] t) := parsed_sampleUR (by simp) hdot hlen
  have hread : TagText.tid.ofRead (sampleUR [] t) = some t := if_neg hne
  obtain ⟨hfirst, hsecond⟩ := h.found_again hparsed hread hmem
  have htext : ∀ item : EpcStatistics, sameTag .byTid 1 [] t item = true → item.tidText = t := by
    intro item hsame
    simp only [sameTag] at hsame
    split at hsame
    · exact absurd hsame Bool.false_ne_true
    · simpa [hne] using hsame
  have hone := htext _ hfirst
  have htwo := htext _ hsecond
  have hnul : nul ∉ t := by
    rw [← hone]
    exact not_mem_text nul _
  obtain hlt | hle := Nat.lt_or_ge t.length tidLen
  · exact ⟨hnul, Or.inl hlt⟩
  · have hfield : (newStat id 1 (sampleStatRead [] t)).tidField ≠ [] := by
      intro hnil
      exact hne (hone.symm.trans ((EpcStatistics.tidText_eq_nil_iff _).mpr hnil))
    rw [countRead_of_tidField _ _ hfield] at htwo
    exact ⟨hnul, Or.inr (readerId_of_tidText (x := sampleStatRead [] t) hnul hle hone htwo)⟩

variable (id κ)

/-- Every list of reads over some texts is grouped by tag exactly when those of the texts that a
read can bring fit. -/
theorem statistics_group_by_tag_iff (texts : Set Str) :
    GroupsAll id κ texts ↔
      ∀ t ∈ texts, (∃ parse, Parsed parse ∧ κ.ofRead parse = some t) → Fits id κ t := by
  constructor
  · intro h t hmem hread
    obtain ⟨parse, hparsed, hread⟩ := hread
    cases κ with
    | epc =>
        obtain rfl := Option.some.inj hread
        exact fits_epc_of_groupsAll h hmem hparsed.epc_hex
    | tid =>
        rw [TagText.ofRead] at hread
        split at hread
        · exact absurd hread (by simp)
        · rename_i hne
          obtain rfl := Option.some.inj hread
          exact fits_tid_of_groupsAll h hmem hparsed.tid_text.1 hparsed.tid_text.2 hne
  · intro hfits reads hreads stats hrun
    apply groupsByTag_of_fitting _ hrun
    intro x hx
    obtain ⟨hparsed, htexts⟩ := hreads x hx
    exact ⟨hparsed, fun heligible t ht => hfits t (htexts heligible t ht) ⟨_, hparsed, ht⟩⟩

/-- A tag of more than the array's length in hex digits, read twice. -/
def longRead : TagText → Read
  | .epc => sampleStatRead (List.replicate 68 'A') []
  | .tid => sampleStatRead (List.replicate 24 '0') (List.replicate 120 'B')

/-- The parser yields the long read, and twice it makes two records. -/
def LongReadSplit (κ : TagText) : Prop :=
  Parsed (longRead κ).parse ∧
  doStatisticHelper sampleReaderId κ.rule [longRead κ, longRead κ] =
    some [newStat sampleReaderId 1 (longRead κ), newStat sampleReaderId 1 (longRead κ)] ∧
  ¬ GroupsByTag sampleReaderId κ [longRead κ, longRead κ]
    [newStat sampleReaderId 1 (longRead κ), newStat sampleReaderId 1 (longRead κ)]

theorem parsed_longRead : Parsed (longRead κ).parse := by
  cases κ with
  | epc => exact parsed_sampleUR (List.all_eq_true.mp rfl) (by simp) (by simp)
  | tid => exact parsed_sampleUR (List.all_eq_true.mp rfl) (List.all_eq_true.mp rfl) (by decide)

theorem longReadSplit (κ : TagText) : LongReadSplit κ := by
  have heligible : (longRead κ).parse.eligible = true := by cases κ <;> rfl
  have hantenna : stoi (longRead κ).parse.antenna = some 1 := by
    cases κ <;> exact stoi_sampleUR _ _
  have hfirst : countedAt κ [] (longRead κ) = some 0 := by cases κ <;> decide
  have hsecond : countedAt κ [newStat sampleReaderId 1 (longRead κ)] (longRead κ) = some 1 := by
    cases κ <;> decide
  have hk : ∃ k, tag κ (longRead κ).parse = some k := by
    cases κ with
    | epc => exact ⟨⟨1, List.replicate 68 'A'⟩, by decide⟩
    | tid => exact ⟨⟨1, List.replicate 120 'B'⟩, by decide⟩
  refine ⟨parsed_longRead κ, by cases κ <;> decide, fun hgroups => ?_⟩
  obtain ⟨k, hk⟩ := hk
  have hsame := (hgroups.same_record [] _ [] _ [] _ _ rfl heligible heligible rfl
    (doStatisticHelper_single heligible hantenna) k k hk hk).mpr rfl
  rw [hfirst, hsecond] at hsame
  exact absurd hsame (by decide)

/-- Two reads of one EPC of 68 digits, or of one TID of 120, are counted in two records. -/
theorem long_texts_split : LongReadSplit .epc ∧ LongReadSplit .tid :=
  ⟨longReadSplit .epc, longReadSplit .tid⟩

end RfidEngine
