import Mathlib.Order.Nat

/-!
# Fair schedules

A schedule names an action for every instant; an action that is not possible
leaves the state as it is. A goal is reached under every schedule that comes
back to the helpful actions, if a helpful action brings the goal closer and no
other action makes it more distant or an action unhelpful.
-/

namespace FairRun

variable {σ ι : Type*} (next : σ → ι → σ) (sched : Nat → ι)

/-- The state at an instant. -/
def stateAt (s : σ) : Nat → σ
  | 0 => s
  | n + 1 => next (stateAt s n) (sched n)

variable {next sched}

/-- What the scheduled actions preserve holds at every instant. -/
theorem stateAt_invariant {I : σ → Prop} (hI : ∀ n s, I s → I (next s (sched n))) {s : σ}
    (hs : I s) (n : Nat) : I (stateAt next sched s n) := by
  induction n with
  | zero => exact hs
  | succ n ih => exact hI n _ ih

/-- What holds at an instant and is preserved from then on holds at every later one. -/
theorem stateAt_from {I : σ → Prop} {s : σ} {n : Nat} (hn : I (stateAt next sched s n))
    (hI : ∀ m s, n ≤ m → I s → I (next s (sched m))) {m : Nat} (hm : n ≤ m) :
    I (stateAt next sched s m) := by
  induction m, hm using Nat.le_induction with
  | base => exact hn
  | succ m hm ih => exact hI m _ hm ih

/-- A start, and then another schedule. -/
def followedBy (start : List ι) (sched : Nat → ι) (n : Nat) : ι :=
  (start[n]?).getD (sched (n - start.length))

theorem followedBy_add (start : List ι) (sched : Nat → ι) (n : Nat) :
    followedBy start sched (start.length + n) = sched n := by
  rw [followedBy, List.getElem?_eq_none (Nat.le_add_right _ n), Nat.add_sub_cancel_left]
  rfl

/-- At the end of the start every action of it has been taken. -/
theorem stateAt_followedBy (start : List ι) (sched : Nat → ι) (s : σ) :
    stateAt next (followedBy start sched) s start.length = start.foldl next s := by
  have hpart : ∀ n, n ≤ start.length →
      stateAt next (followedBy start sched) s n = (start.take n).foldl next s := by
    intro n hn
    induction n with
    | zero => rfl
    | succ n ih =>
        have hlt : n < start.length := hn
        rw [stateAt, ih hlt.le, List.take_succ_eq_append_getElem hlt, List.foldl_append,
          followedBy, List.getElem?_eq_getElem hlt]
        rfl
  rw [hpart _ le_rfl, List.take_length]

/-- The goal is reached from every instant on, by induction on the rank and, within a rank, on the
time to the next helpful action. -/
theorem eventually_of_rank {I : σ → Prop} (Goal : σ → Prop) {rank : σ → Nat}
    {Helpful : σ → ι → Prop} (hI : ∀ s a, I s → I (next s a))
    (hstep : ∀ s a, I s → ¬ Goal s → Goal (next s a) ∨ rank (next s a) < rank s ∨
      (¬ Helpful s a ∧ rank (next s a) ≤ rank s ∧ ∀ b, Helpful s b → Helpful (next s a) b))
    (hfair : ∀ s n, ∃ k, n ≤ k ∧ Helpful s (sched k)) {s : σ} (hs : I s) (n : Nat) :
    ∃ m, n ≤ m ∧ Goal (stateAt next sched s m) := by
  have hreach : ∀ r d n, rank (stateAt next sched s n) ≤ r →
      Helpful (stateAt next sched s n) (sched (n + d)) →
      ∃ m, n ≤ m ∧ Goal (stateAt next sched s m) := by
    intro r
    induction r using Nat.strongRecOn with
    | ind r ihr =>
        have hcloser : ∀ n, rank (stateAt next sched s n) < r →
            ∃ m, n ≤ m ∧ Goal (stateAt next sched s m) := by
          intro n hless
          obtain ⟨k, hk, hhelpful⟩ := hfair (stateAt next sched s n) n
          obtain ⟨d, rfl⟩ := Nat.exists_eq_add_of_le hk
          exact ihr _ hless d n le_rfl hhelpful
        intro d
        induction d with
        | zero =>
            intro n hrank hhelpful
            by_cases hgoal : Goal (stateAt next sched s n)
            · exact ⟨n, le_rfl, hgoal⟩
            obtain hgoal' | hless | ⟨hnot, -⟩ :=
              hstep _ (sched n) (stateAt_invariant (fun n s => hI s (sched n)) hs n) hgoal
            · exact ⟨n + 1, Nat.le_succ n, hgoal'⟩
            · obtain ⟨m, hm, hgoal'⟩ := hcloser (n + 1) (lt_of_lt_of_le hless hrank)
              exact ⟨m, (Nat.le_succ n).trans hm, hgoal'⟩
            · exact absurd hhelpful hnot
        | succ d ihd =>
            intro n hrank hhelpful
            by_cases hgoal : Goal (stateAt next sched s n)
            · exact ⟨n, le_rfl, hgoal⟩
            obtain hgoal' | hless | ⟨-, hle, hkeeps⟩ :=
              hstep _ (sched n) (stateAt_invariant (fun n s => hI s (sched n)) hs n) hgoal
            · exact ⟨n + 1, Nat.le_succ n, hgoal'⟩
            · obtain ⟨m, hm, hgoal'⟩ := hcloser (n + 1) (lt_of_lt_of_le hless hrank)
              exact ⟨m, (Nat.le_succ n).trans hm, hgoal'⟩
            · have hlater : n + (d + 1) = n + 1 + d := by omega
              rw [hlater] at hhelpful
              obtain ⟨m, hm, hgoal'⟩ := ihd (n + 1) (hle.trans hrank) (hkeeps _ hhelpful)
              exact ⟨m, (Nat.le_succ n).trans hm, hgoal'⟩
  obtain ⟨k, hk, hhelpful⟩ := hfair (stateAt next sched s n) n
  obtain ⟨d, rfl⟩ := Nat.exists_eq_add_of_le hk
  exact hreach (rank (stateAt next sched s n)) d n le_rfl hhelpful

end FairRun
