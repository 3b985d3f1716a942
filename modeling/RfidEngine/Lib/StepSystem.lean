import Mathlib

/-!
# Runs of a partial step function

A step function gives the next state for an enabled action and nothing for a
disabled one. A run is a list of actions; `exec` follows it. `Along` says that
every step of a run meets a condition on the state it starts from, `Always`
that every state a run passes through has a property.
-/

namespace StepSystem

variable {σ ι : Type*} (step : σ → ι → Option σ)

/-- The state after a run, if every action of it was enabled. -/
def exec (s : σ) : List ι → Option σ
  | [] => some s
  | a :: as => (step s a).bind fun s' => exec s' as

/-- Every step of the run meets `P` in the state it is taken from. -/
def Along (P : σ → ι → Prop) (s : σ) : List ι → Prop
  | [] => True
  | a :: as => P s a ∧ ∀ s', step s a = some s' → Along P s' as

instance decidableAlong (P : σ → ι → Prop) [∀ s a, Decidable (P s a)] :
    ∀ (s : σ) (as : List ι), Decidable (Along step P s as)
  | _, [] => isTrue trivial
  | s, a :: as =>
      match h : step s a with
      | none => decidable_of_iff (P s a) (by simp [Along, h])
      | some s' =>
          have := decidableAlong P s' as
          decidable_of_iff (P s a ∧ Along step P s' as) (by simp [Along, h])

/-- Every state the run passes through, its ends included, has the property. -/
def Always (Q : σ → Prop) (s : σ) (as : List ι) : Prop :=
  ∀ pre s', pre <+: as → exec step s pre = some s' → Q s'

@[simp] theorem exec_nil (s : σ) : exec step s [] = some s := rfl

theorem exec_cons (s : σ) (a : ι) (as : List ι) :
    exec step s (a :: as) = (step s a).bind fun s' => exec step s' as := rfl

theorem exec_cons_eq_some {s t : σ} {a : ι} {as : List ι} :
    exec step s (a :: as) = some t ↔ ∃ s', step s a = some s' ∧ exec step s' as = some t := by
  rw [exec_cons, Option.bind_eq_some_iff]

theorem exec_append (s : σ) (as bs : List ι) :
    exec step s (as ++ bs) = (exec step s as).bind fun s' => exec step s' bs := by
  induction as generalizing s with
  | nil => rfl
  | cons a as ih =>
      rw [List.cons_append, exec_cons, exec_cons, Option.bind_assoc]
      congr 1
      funext s'
      exact ih s'

theorem exec_append_eq_some {s t : σ} {as bs : List ι} :
    exec step s (as ++ bs) = some t ↔
      ∃ s', exec step s as = some s' ∧ exec step s' bs = some t := by
  rw [exec_append, Option.bind_eq_some_iff]

variable {step} in
/-- A run goes on with a step from where it ends. -/
theorem exec_snoc {s t u : σ} {as : List ι} {a : ι} (hrun : exec step s as = some t)
    (hstep : step t a = some u) : exec step s (as ++ [a]) = some u :=
  (exec_append_eq_some step).mpr ⟨t, hrun, (exec_cons_eq_some step).mpr ⟨u, hstep, rfl⟩⟩

omit step in
/-- An action of a run with one more action is the last one or one of the run before. -/
theorem split_snoc {as pre post : List ι} {a b : ι} (h : as ++ [b] = pre ++ a :: post) :
    (post = [] ∧ as = pre ∧ a = b) ∨ ∃ post', post = post' ++ [b] ∧ as = pre ++ a :: post' := by
  induction post using List.reverseRecOn with
  | nil =>
      obtain ⟨hpre, hlast⟩ := List.append_inj' h rfl
      exact Or.inl ⟨rfl, hpre, (List.singleton_inj.mp hlast).symm⟩
  | append_singleton post' c =>
      rw [← List.cons_append, ← List.append_assoc] at h
      obtain ⟨hpre, hlast⟩ := List.append_inj' h rfl
      exact Or.inr ⟨post', by rw [List.singleton_inj.mp hlast], hpre⟩

variable {step}

/-- A relation between the actions taken so far and the state reached, kept by every step. -/
theorem exec_history {s : σ} {M : List ι → σ → Prop} (hnil : M [] s)
    (hstep : ∀ as u a u', exec step s as = some u → M as u → step u a = some u' →
      M (as ++ [a]) u')
    {t : σ} {as : List ι} (hrun : exec step s as = some t) : M as t := by
  induction as using List.reverseRecOn generalizing t with
  | nil => exact Option.some.inj hrun ▸ hnil
  | append_singleton as a ih =>
      obtain ⟨u, hu, hlast⟩ := (exec_append_eq_some step).mp hrun
      obtain ⟨u', hu', heq⟩ := (exec_cons_eq_some step).mp hlast
      exact Option.some.inj heq ▸ hstep as u a u' hu (ih hu) hu'

/-- What every step preserves, every run preserves. -/
theorem exec_invariant {I : σ → Prop} (hstep : ∀ s a s', I s → step s a = some s' → I s')
    {s t : σ} {as : List ι} (hs : I s) (hrun : exec step s as = some t) : I t :=
  exec_history (M := fun _ u => I u) hs (fun _ u a u' _ hu h => hstep u a u' hu h) hrun

/-- A run meets a condition along its steps exactly when every step taken after a part of the
run meets it. -/
theorem along_iff_split {P : σ → ι → Prop} {s : σ} {as : List ι} :
    Along step P s as ↔
      ∀ pre a post u, as = pre ++ a :: post → exec step s pre = some u → P u a := by
  induction as generalizing s with
  | nil =>
      refine iff_of_true trivial fun pre a post u has _ => ?_
      exact absurd has (by simp)
  | cons b as ih =>
      constructor
      · intro h pre a post u has hu
        cases pre with
        | nil =>
            obtain ⟨rfl, -⟩ := List.cons_eq_cons.mp has
            obtain rfl := Option.some.inj hu
            exact h.1
        | cons c pre =>
            obtain ⟨rfl, hrest⟩ := List.cons_eq_cons.mp has
            obtain ⟨s', hs', hpre⟩ := (exec_cons_eq_some step).mp hu
            exact ih.mp (h.2 s' hs') pre a post u hrest hpre
      · intro h
        refine ⟨h [] b as s rfl rfl, fun s' hs' => ih.mpr fun pre a post u has hu => ?_⟩
        apply h (b :: pre) a post u (congrArg (List.cons b) has)
        exact (exec_cons_eq_some step).mpr ⟨s', hs', hu⟩

/-- Two conditions that agree where an invariant holds, which a step meeting them keeps, are met
along the same runs. -/
theorem along_congr_of_invariant {I : σ → Prop} {P Q : σ → ι → Prop}
    (hiff : ∀ s a, I s → (P s a ↔ Q s a))
    (hI : ∀ s a s', I s → P s a → step s a = some s' → I s') {s : σ} {as : List ι} (hs : I s) :
    Along step P s as ↔ Along step Q s as := by
  induction as generalizing s with
  | nil => exact Iff.rfl
  | cons a as ih =>
      constructor
      · rintro ⟨hP, hrest⟩
        refine ⟨(hiff s a hs).mp hP, fun s' hs' => ?_⟩
        exact (ih (hI s a s' hs hP hs')).mp (hrest s' hs')
      · rintro ⟨hQ, hrest⟩
        have hP := (hiff s a hs).mpr hQ
        exact ⟨hP, fun s' hs' => (ih (hI s a s' hs hP hs')).mpr (hrest s' hs')⟩

theorem along_append {P : σ → ι → Prop} {s : σ} {as bs : List ι} :
    Along step P s (as ++ bs) ↔
      Along step P s as ∧ ∀ u, exec step s as = some u → Along step P u bs := by
  induction as generalizing s with
  | nil => simp [Along]
  | cons a as ih =>
      simp only [List.cons_append, Along, ih, exec_cons_eq_some]
      constructor
      · rintro ⟨hP, hrest⟩
        refine ⟨⟨hP, fun s' hs' => (hrest s' hs').1⟩, ?_⟩
        rintro u ⟨s', hs', hu⟩
        exact (hrest s' hs').2 u hu
      · rintro ⟨⟨hP, hrest⟩, hmore⟩
        exact ⟨hP, fun s' hs' => ⟨hrest s' hs', fun u hu => hmore u ⟨s', hs', hu⟩⟩⟩

/-- A condition met along a run is met by one more step as well. -/
theorem along_snoc {P : σ → ι → Prop} {s u : σ} {as : List ι} {a : ι}
    (hrun : exec step s as = some u) :
    Along step P s (as ++ [a]) ↔ Along step P s as ∧ P u a := by
  rw [along_append]
  constructor
  · intro h
    exact ⟨h.1, (h.2 u hrun).1⟩
  · intro h
    refine ⟨h.1, fun u' hu' => ?_⟩
    obtain rfl := Option.some.inj (hrun.symm.trans hu')
    exact ⟨h.2, fun _ _ => trivial⟩

theorem along_congr {P Q : σ → ι → Prop} (h : ∀ s a, P s a ↔ Q s a) {s : σ} {as : List ι} :
    Along step P s as ↔ Along step Q s as :=
  along_congr_of_invariant (I := fun _ => True) (fun s a _ => h s a) (fun _ _ _ _ _ _ => trivial)
    trivial

theorem always_nil {Q : σ → Prop} {s : σ} : Always step Q s [] ↔ Q s := by
  constructor
  · intro h
    exact h [] s (List.prefix_refl []) rfl
  · intro h pre s' hpre hs'
    obtain rfl := List.prefix_nil.mp hpre
    exact Option.some.inj hs' ▸ h

theorem always_cons {Q : σ → Prop} {s s' : σ} {a : ι} {as : List ι} (h : step s a = some s') :
    Always step Q s (a :: as) ↔ Q s ∧ Always step Q s' as := by
  constructor
  · intro hall
    refine ⟨hall [] s List.nil_prefix rfl, fun pre t hpre ht => ?_⟩
    apply hall (a :: pre) t ((List.prefix_cons_inj a).mpr hpre)
    exact (exec_cons_eq_some step).mpr ⟨s', h, ht⟩
  · intro hall pre t hpre ht
    cases pre with
    | nil => exact Option.some.inj ht ▸ hall.1
    | cons b pre =>
        obtain ⟨rfl, hpre'⟩ := List.cons_prefix_cons.mp hpre
        obtain ⟨u, hu, ht'⟩ := (exec_cons_eq_some step).mp ht
        obtain rfl := Option.some.inj (h.symm.trans hu)
        exact hall.2 pre t hpre' ht'

theorem Always.mono {Q R : σ → Prop} {s : σ} {as : List ι} (h : Always step Q s as)
    (hQR : ∀ s, Q s → R s) : Always step R s as :=
  fun pre s' hpre hs' => hQR s' (h pre s' hpre hs')

/-- A run does not keep a property that fails where it ends. -/
theorem not_always_of_exec {Q : σ → Prop} {s t : σ} {as : List ι}
    (hrun : exec step s as = some t) (ht : ¬ Q t) : ¬ Always step Q s as :=
  fun halways => ht (halways as t (List.prefix_refl as) hrun)

/-- What a step keeps under a condition holds in every state of a run that meets the condition
along its steps. -/
theorem always_of_along {I : σ → Prop} {P : σ → ι → Prop}
    (hstep : ∀ s a s', I s → P s a → step s a = some s' → I s')
    {s : σ} {as : List ι} (hs : I s) (halong : Along step P s as) : Always step I s as := by
  induction as generalizing s with
  | nil => exact always_nil.mpr hs
  | cons a as ih =>
      obtain ⟨hP, hrest⟩ := halong
      intro pre t hpre ht
      cases pre with
      | nil => exact Option.some.inj ht ▸ hs
      | cons b pre =>
          obtain ⟨rfl, hpre'⟩ := List.cons_prefix_cons.mp hpre
          obtain ⟨s', hs', ht'⟩ := (exec_cons_eq_some step).mp ht
          exact ih (hstep s b s' hs hP hs') (hrest s' hs') pre t hpre' ht'

/-- Where a step keeps a property exactly under a condition, a run keeps it in every
state exactly when every step of it meets the condition. -/
theorem always_iff_along {I Q : σ → Prop} {P : σ → ι → Prop}
    (hI : ∀ s a s', I s → step s a = some s' → I s')
    (hQ : ∀ s a s', I s → Q s → step s a = some s' → (Q s' ↔ P s a))
    {s t : σ} {as : List ι} (hs : I s) (hq : Q s) (hrun : exec step s as = some t) :
    Always step Q s as ↔ Along step P s as := by
  induction as generalizing s with
  | nil => exact iff_of_true (always_nil.mpr hq) trivial
  | cons a as ih =>
      obtain ⟨s', hs', hrest⟩ := (exec_cons_eq_some step).mp hrun
      have hstep := hQ s a s' hs hq hs'
      rw [always_cons hs']
      constructor
      · intro h
        have hq' : Q s' := always_nil.mp fun pre u hpre hu =>
          h.2 pre u (hpre.trans List.nil_prefix) hu
        refine ⟨hstep.mp hq', fun u hu => ?_⟩
        obtain rfl := Option.some.inj (hs'.symm.trans hu)
        exact (ih (hI s a s' hs hs') hq' hrest).mp h.2
      · intro h
        exact ⟨hq, (ih (hI s a s' hs hs') (hstep.mpr h.1) hrest).mpr (h.2 s' hs')⟩

end StepSystem
