import RfidEngine.Lib.StepSystem

/-!
# Two systems side by side

A system whose steps may fail is compared with one that has an answer and a
next state for every action. They run in lockstep as long as their states stay
related and their answers are the same. Or one system takes only some of the
actions of the other, and the rest leave it where it is.
-/

namespace StepSystem

variable {σ τ ι ο : Type*} {R : σ → τ → Prop} {f : σ → ι → Option (ο × σ)} {g : τ → ι → ο × τ}

/-- Every action of the run is answered by `f` as by `g`, and all states on the way are
related. -/
def Lockstep (R : σ → τ → Prop) (f : σ → ι → Option (ο × σ)) (g : τ → ι → ο × τ)
    (s : σ) (t : τ) : List ι → Prop
  | [] => R s t
  | a :: as => R s t ∧ ∃ s', f s a = some ((g t a).1, s') ∧ Lockstep R f g s' (g t a).2 as

theorem Lockstep.rel {s : σ} {t : τ} {as : List ι} (h : Lockstep R f g s t as) : R s t := by
  cases as with
  | nil => exact h
  | cons a as => exact h.1

/-- Where a single action keeps the states related and the answers the same exactly under a
condition on the second system, a run does exactly when the second system meets the condition
along it. -/
theorem lockstep_iff_along {P : τ → ι → Prop}
    (hstep : ∀ s t a, R s t →
      ((∃ s', f s a = some ((g t a).1, s') ∧ R s' (g t a).2) ↔ P t a))
    {s : σ} {t : τ} {as : List ι} (hR : R s t) :
    Lockstep R f g s t as ↔ Along (fun t a => some (g t a).2) P t as := by
  induction as generalizing s t with
  | nil => exact iff_of_true hR trivial
  | cons a as ih =>
      constructor
      · rintro ⟨-, s', hs', hrest⟩
        refine ⟨(hstep s t a hR).mp ⟨s', hs', hrest.rel⟩, fun t' ht' => ?_⟩
        obtain rfl := Option.some.inj ht'
        exact (ih hrest.rel).mp hrest
      · rintro ⟨hP, hrest⟩
        obtain ⟨s', hs', hR'⟩ := (hstep s t a hR).mpr hP
        exact ⟨hR, s', hs', (ih hR').mpr (hrest _ rfl)⟩

/-- Where a single action keeps the states related and the answers the same under a condition, a run
that meets the condition is in lockstep. -/
theorem lockstep_of_along {P : τ → ι → Prop}
    (hstep : ∀ s t a, R s t → P t a → ∃ s', f s a = some ((g t a).1, s') ∧ R s' (g t a).2)
    {s : σ} {t : τ} {as : List ι} (hR : R s t)
    (halong : Along (fun t a => some (g t a).2) P t as) : Lockstep R f g s t as := by
  induction as generalizing s t with
  | nil => exact hR
  | cons a as ih =>
      obtain ⟨hP, hrest⟩ := halong
      obtain ⟨s', hs', hR'⟩ := hstep s t a hR hP
      exact ⟨hR, s', hs', ih hR' (hrest _ rfl)⟩

/-- Where the actions that are kept are taken by both systems and the others leave them related,
a run of the first is one of the second without the others. -/
theorem exec_filter_of_simulates {f : σ → ι → Option σ} {g : τ → ι → Option τ} {keep : ι → Bool}
    {as : List ι}
    (hkept : ∀ s t a s', R s t → keep a = true → f s a = some s' → ∃ t', g t a = some t' ∧ R s' t')
    (hskipped : ∀ s t a s', a ∈ as → R s t → keep a = false → f s a = some s' → R s' t)
    {s s' : σ} {t : τ} (hR : R s t) (hrun : exec f s as = some s') :
    ∃ t', exec g t (as.filter keep) = some t' ∧ R s' t' := by
  induction as generalizing s t with
  | nil =>
      obtain rfl := Option.some.inj hrun
      exact ⟨t, rfl, hR⟩
  | cons a as ih =>
      obtain ⟨u, hu, hrest⟩ := (exec_cons_eq_some f).mp hrun
      have hrestSkipped : ∀ s t b s', b ∈ as → R s t → keep b = false → f s b = some s' →
          R s' t := fun s t b s' hb => hskipped s t b s' (List.mem_cons_of_mem a hb)
      cases hkeep : keep a with
      | true =>
          obtain ⟨v, hv, hR'⟩ := hkept s t a u hR hkeep hu
          obtain ⟨t', ht', hend⟩ := ih hrestSkipped hR' hrest
          refine ⟨t', ?_, hend⟩
          rw [List.filter_cons_of_pos hkeep]
          exact (exec_cons_eq_some g).mpr ⟨v, hv, ht'⟩
      | false =>
          have hR' := hskipped s t a u List.mem_cons_self hR hkeep hu
          rw [List.filter_cons_of_neg (by simp [hkeep])]
          exact ih hrestSkipped hR' hrest

/-- Where one step of the first system is one step of what the second makes of its states, so is a
run. -/
theorem exec_map_of_invariant {f : σ → ι → Option σ} {g : τ → ι → Option τ} {view : σ → τ}
    {I : σ → Prop} (hI : ∀ s a s', I s → f s a = some s' → I s')
    (hview : ∀ s a, I s → g (view s) a = (f s a).map view) {s : σ} (hs : I s) (as : List ι) :
    exec g (view s) as = (exec f s as).map view := by
  induction as generalizing s with
  | nil => rfl
  | cons a as ih =>
      rw [exec_cons, exec_cons, hview s a hs]
      cases hstep : f s a with
      | none => rfl
      | some s' => exact ih (hI s a s' hs hstep)

end StepSystem
