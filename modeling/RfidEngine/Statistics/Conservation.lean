import RfidEngine.Statistics.Model
import RfidEngine.Lib.GroupCount

/-!
# The statistics conserve the reads

Every eligible read is counted once, and a record keeps what the read that
opened it brought, save for the count, which grows, and a missing TID, which is
filled in once.
-/

namespace RfidEngine

open CharArray

/-- What a record keeps from one moment of a run to a later one. -/
structure EpcStatistics.Grown (item item' : EpcStatistics) : Prop where
  epc : item'.epc = item.epc
  readerID : item'.readerID = item.readerID
  antenna : item'.antenna = item.antenna
  year : item'.year = item.year
  month : item'.month = item.month
  day : item'.day = item.day
  hour : item'.hour = item.hour
  min : item'.min = item.min
  sec : item'.sec = item.sec
  ms : item'.ms = item.ms
  count : item.count ≤ item'.count
  tid : item'.tidField = item.tidField ∨ item.tidField = [] ∧ item'.tidField ≠ []
  tid_bytes : item.tidField ≠ [] → item'.tid = item.tid

namespace EpcStatistics

theorem Grown.refl (item : EpcStatistics) : Grown item item :=
  ⟨rfl, rfl, rfl, rfl, rfl, rfl, rfl, rfl, rfl, rfl, Int.le_refl _, Or.inl rfl, fun _ => rfl⟩

theorem Grown.trans {item item' item'' : EpcStatistics} (h : Grown item item')
    (h' : Grown item' item'') : Grown item item'' where
  epc := h'.epc.trans h.epc
  readerID := h'.readerID.trans h.readerID
  antenna := h'.antenna.trans h.antenna
  year := h'.year.trans h.year
  month := h'.month.trans h.month
  day := h'.day.trans h.day
  hour := h'.hour.trans h.hour
  min := h'.min.trans h.min
  sec := h'.sec.trans h.sec
  ms := h'.ms.trans h.ms
  count := Int.le_trans h.count h'.count
  tid := by
    obtain heq | ⟨hnil, hne⟩ := h.tid
    · rw [← heq]
      exact h'.tid
    · refine Or.inr ⟨hnil, ?_⟩
      rw [tidField, h'.tid_bytes hne]
      exact hne
  tid_bytes := fun hne => by
    have hbytes := h.tid_bytes hne
    have hne' : item'.tidField ≠ [] := by
      rw [tidField, hbytes]
      exact hne
    exact (h'.tid_bytes hne').trans hbytes

theorem grown_countRead (x : Read) (item : EpcStatistics) : Grown item (countRead x item) := by
  have htid := countRead_tid x item
  rw [countRead_eq]
  refine ⟨rfl, rfl, rfl, rfl, rfl, rfl, rfl, rfl, rfl, rfl, ?_, ?_, htid⟩
  · change item.count ≤ item.count + 1
    omega
  · change text nul (countRead x item).tid.cells = item.tidField ∨
      item.tidField = [] ∧ text nul (countRead x item).tid.cells ≠ []
    obtain hnil | hne := eq_or_ne item.tidField []
    · rw [hnil]
      obtain h | h := eq_or_ne (text nul (countRead x item).tid.cells) []
      · exact Or.inl h
      · exact Or.inr ⟨rfl, h⟩
    · rw [htid hne]
      exact Or.inl rfl

end EpcStatistics

/-- Every record of the earlier list stands at its place in the later one, grown. -/
def Extends (stats stats' : List EpcStatistics) : Prop :=
  ∀ (j : Nat) (item : EpcStatistics), stats[j]? = some item →
    ∃ item', stats'[j]? = some item' ∧ item.Grown item'

theorem Extends.refl (stats : List EpcStatistics) : Extends stats stats :=
  fun _ item h => ⟨item, h, .refl item⟩

theorem Extends.trans {stats stats' stats'' : List EpcStatistics} (h : Extends stats stats')
    (h' : Extends stats' stats'') : Extends stats stats'' := by
  intro j item hitem
  obtain ⟨item', hitem', hgrown⟩ := h j item hitem
  obtain ⟨item'', hitem'', hgrown'⟩ := h' j item' hitem'
  exact ⟨item'', hitem'', hgrown.trans hgrown'⟩

variable {id : ReaderId} {rule : StatisticsRule} {stats stats' : List EpcStatistics}

theorem doStatistic_extends {x : Read} (h : doStatistic id rule stats x = some stats') :
    Extends stats stats' := by
  obtain ⟨-, rfl⟩ | ⟨antenna, -, -, ⟨-, rfl⟩ | ⟨hp, -, rfl⟩⟩ := doStatistic_cases h
  · exact .refl _
  · intro j item hitem
    obtain ⟨hj, -⟩ := List.getElem?_eq_some_iff.mp hitem
    exact ⟨item, by rwa [List.getElem?_append_left hj], .refl item⟩
  · intro j item hitem
    rw [List.getElem?_modify, hitem]
    refine ⟨_, rfl, ?_⟩
    split
    · exact item.grown_countRead x
    · exact .refl item

theorem exec_extends {reads : List Read}
    (h : StepSystem.exec (doStatistic id rule) stats reads = some stats') :
    Extends stats stats' :=
  StepSystem.exec_invariant (I := Extends stats)
    (fun _ _ _ hI hstep => hI.trans (doStatistic_extends hstep)) (.refl stats) h

/-- One turn counts an eligible read once. -/
theorem doStatistic_total {x : Read} (h : doStatistic id rule stats x = some stats') :
    (stats'.map EpcStatistics.count).sum =
      (stats.map EpcStatistics.count).sum + if x.parse.eligible then 1 else 0 := by
  obtain ⟨hskip, rfl⟩ | ⟨antenna, heligible, -, ⟨-, rfl⟩ | ⟨hp, -, rfl⟩⟩ := doStatistic_cases h
  · simp [hskip]
  · simp [heligible, newStat]
  · rw [if_pos heligible]
    exact GroupCount.sum_map_modify hp _ _ (countRead_count x _)

theorem doStatistic_counted {x : Read} (hI : ∀ item ∈ stats, 1 ≤ item.count)
    (h : doStatistic id rule stats x = some stats') : ∀ item ∈ stats', 1 ≤ item.count := by
  obtain ⟨-, rfl⟩ | ⟨antenna, -, -, ⟨-, rfl⟩ | ⟨hp, -, rfl⟩⟩ := doStatistic_cases h
  · exact hI
  · intro item hitem
    obtain hold | hnew := List.mem_append.mp hitem
    · exact hI item hold
    · obtain rfl := List.mem_singleton.mp hnew
      exact Int.le_refl 1
  · intro item hitem
    obtain ⟨j, hj, rfl⟩ := List.getElem_of_mem hitem
    rw [List.getElem_modify]
    have hj' : j < stats.length := by simpa using hj
    have hone := hI stats[j] (List.getElem_mem hj')
    split
    · rw [countRead_count]
      omega
    · exact hone

/-- The read at `i` is the one that opened the record at `j`. -/
def OpensRecord (id : ReaderId) (rule : StatisticsRule) (reads : List Read) (i j : Nat) : Prop :=
  ∃ (x : Read) (antenna : Int) (stats : List EpcStatistics),
    reads[i]? = some x ∧ x.parse.eligible = true ∧ stoi x.parse.antenna = some antenna ∧
    doStatisticHelper id rule (reads.take i) = some stats ∧ stats.length = j ∧
    doStatisticHelper id rule (reads.take (i + 1)) = some (stats ++ [newStat id antenna x])

theorem OpensRecord.lt {reads : List Read} {i j : Nat} (h : OpensRecord id rule reads i j) :
    i < reads.length := by
  obtain ⟨x, antenna, stats, hx, -⟩ := h
  exact (List.getElem?_eq_some_iff.mp hx).1

theorem OpensRecord.append {reads : List Read} {i j : Nat} (h : OpensRecord id rule reads i j)
    (more : List Read) : OpensRecord id rule (reads ++ more) i j := by
  have hlt := h.lt
  obtain ⟨x, antenna, stats, hx, heligible, hantenna, hbefore, hj, hafter⟩ := h
  refine ⟨x, antenna, stats, ?_, heligible, hantenna, ?_, hj, ?_⟩
  · rwa [List.getElem?_append_left hlt]
  · rwa [List.take_append_of_le_length hlt.le]
  · rwa [List.take_append_of_le_length hlt]

/-- The reads that opened the records, in the order of the records. -/
def OpenedInOrder (id : ReaderId) (rule : StatisticsRule) (reads : List Read)
    (stats : List EpcStatistics) : Prop :=
  ∃ creators : List Nat, creators.Pairwise (· < ·) ∧ creators.length = stats.length ∧
    ∀ j i, creators[j]? = some i → OpensRecord id rule reads i j

theorem openedInOrder_step {reads : List Read} {x : Read}
    (hrun : doStatisticHelper id rule reads = some stats)
    (h : OpenedInOrder id rule reads stats) (hstep : doStatistic id rule stats x = some stats') :
    OpenedInOrder id rule (reads ++ [x]) stats' := by
  obtain ⟨creators, hsorted, hlen, hopens⟩ := h
  have hkeep : ∀ j i, creators[j]? = some i → OpensRecord id rule (reads ++ [x]) i j :=
    fun j i hi => (hopens j i hi).append [x]
  have hnext : doStatisticHelper id rule (reads ++ [x]) = some stats' :=
    (StepSystem.exec_append_eq_some _).mpr ⟨stats, hrun, by simp [StepSystem.exec, hstep]⟩
  obtain ⟨-, rfl⟩ | ⟨antenna, heligible, hantenna, ⟨-, rfl⟩ | ⟨hp, -, rfl⟩⟩ :=
    doStatistic_cases hstep
  · exact ⟨creators, hsorted, hlen, hkeep⟩
  · refine ⟨creators ++ [reads.length], ?_, by simp [hlen], ?_⟩
    · refine List.pairwise_append.mpr ⟨hsorted, List.pairwise_singleton _ _, ?_⟩
      intro i hi k hk
      obtain rfl := List.mem_singleton.mp hk
      obtain ⟨j, hj⟩ := List.mem_iff_getElem?.mp hi
      exact (hopens j i hj).lt
    · intro j i hi
      obtain hj | hj := Nat.lt_or_ge j creators.length
      · exact hkeep j i (by rwa [List.getElem?_append_left hj] at hi)
      · have hj0 : j - creators.length = 0 := by
          have hbound := (List.getElem?_eq_some_iff.mp hi).1
          rw [List.length_append, List.length_singleton] at hbound
          omega
        rw [List.getElem?_append_right hj, hj0] at hi
        obtain rfl : reads.length = i := Option.some.inj hi
        refine ⟨x, antenna, stats, by simp, heligible, hantenna, ?_, by omega, ?_⟩
        · rwa [List.take_left]
        · rwa [List.take_of_length_le (by simp)]
  · exact ⟨creators, hsorted, by simpa using hlen, hkeep⟩

/-- What a run of the statistics keeps of the reads. -/
structure Conserves (id : ReaderId) (rule : StatisticsRule) (reads : List Read)
    (stats : List EpcStatistics) : Prop where
  total : (stats.map EpcStatistics.count).sum = reads.countP fun x => x.parse.eligible
  counted : ∀ item ∈ stats, 1 ≤ item.count
  in_order : OpenedInOrder id rule reads stats
  kept : ∀ pre mid stats₀ stats₁, pre <+: mid → mid <+: reads →
    doStatisticHelper id rule pre = some stats₀ →
    doStatisticHelper id rule mid = some stats₁ → Extends stats₀ stats₁

/-- The counts add up to the eligible reads, the records stand in the order of the reads that
opened them, and they keep what these reads brought. -/
theorem statistics_conserve_reads (id : ReaderId) (rule : StatisticsRule) (reads : List Read)
    (stats : List EpcStatistics) (h : doStatisticHelper id rule reads = some stats) :
    Conserves id rule reads stats where
  total := by
    refine StepSystem.exec_history
      (M := fun (as : List Read) (u : List EpcStatistics) =>
        (u.map EpcStatistics.count).sum = as.countP fun x => x.parse.eligible) rfl ?_ h
    intro as u x u' _ hu hstep
    rw [doStatistic_total hstep, hu, List.countP_append, List.countP_singleton]
    split <;> simp
  counted := StepSystem.exec_invariant (I := fun u => ∀ item ∈ u, 1 ≤ item.count)
    (fun _ _ _ hI hstep => doStatistic_counted hI hstep) (by simp) h
  in_order := by
    refine StepSystem.exec_history
      (M := fun as u => OpenedInOrder id rule as u) ⟨[], .nil, rfl, (by simp)⟩ ?_ h
    exact fun as u x u' hrun hu hstep => openedInOrder_step hrun hu hstep
  kept := by
    intro pre mid stats₀ stats₁ hpre _ h₀ h₁
    obtain ⟨rest, rfl⟩ := hpre
    obtain ⟨u, hu, hrest⟩ := (StepSystem.exec_append_eq_some _).mp h₁
    obtain rfl := Option.some.inj (h₀.symm.trans hu)
    exact exec_extends hrest

/-- A read without a TID opens a record, and the next read of its EPC fills the TID in. -/
theorem statistics_conserve_reads_filledTid :
    let first := sampleStatRead "300833B2DDD90140".toList []
    let second := sampleStatRead "300833B2DDD90140".toList "E2003412".toList
    Conserves sampleReaderId .byEpc [first, second]
      [countRead second (newStat sampleReaderId 1 first)] :=
  statistics_conserve_reads sampleReaderId .byEpc _ _ (by decide)

end RfidEngine
