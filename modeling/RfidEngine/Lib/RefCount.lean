import Mathlib.Logic.Function.Basic

/-!
# Objects with a count of their owners

An object is made with one owner. Every further owner counts one more and every
owner that lets go one less, and who lets go as the last destroys the object.
The owners themselves are somewhere in the state of a program; while the count
says how many they are, an object is there exactly as long as it has one.
-/

namespace RefCount

variable {ο : Type*} [DecidableEq ο]

structure Objects (ο : Type*) where
  made : ο → Bool
  uses : ο → Nat
  destroyed : ο → Nat

namespace Objects

def empty : Objects ο := ⟨fun _ => false, fun _ => 0, fun _ => 0⟩

def make (o : ο) (objs : Objects ο) : Objects ο where
  made := Function.update objs.made o true
  uses := Function.update objs.uses o 1
  destroyed := objs.destroyed

def share (o : ο) (objs : Objects ο) : Objects ο :=
  { objs with uses := Function.update objs.uses o (objs.uses o + 1) }

/-- The owner that brings the count to zero destroys the object. -/
def release (o : ο) (objs : Objects ο) : Objects ο where
  made := objs.made
  uses := Function.update objs.uses o (objs.uses o - 1)
  destroyed :=
    if objs.uses o = 1 then Function.update objs.destroyed o (objs.destroyed o + 1)
    else objs.destroyed

end Objects

/-- The counts are those of the owners, and an object without any has been destroyed once. -/
structure Counted (owners : ο → Nat) (objs : Objects ο) : Prop where
  uses : ∀ o, objs.uses o = owners o
  unmade : ∀ o, objs.made o = false → owners o = 0
  destroyed : ∀ o, objs.destroyed o = if objs.made o = true ∧ owners o = 0 then 1 else 0

variable {owners owners' : ο → Nat} {objs : Objects ο} {o : ο}

omit [DecidableEq ο] in
theorem Counted.empty : Counted (fun _ => 0) (Objects.empty : Objects ο) where
  uses _ := rfl
  unmade _ _ := rfl
  destroyed _ := rfl

omit [DecidableEq ο] in
/-- Owners that change hands do not change the counts. -/
theorem Counted.congr (h : Counted owners objs) (howners : ∀ x, owners' x = owners x) :
    Counted owners' objs := by
  obtain rfl : owners' = owners := funext howners
  exact h

theorem Counted.make (h : Counted owners objs) (hnew : objs.made o = false)
    (howners : ∀ x, owners' x = owners x + if x = o then 1 else 0) :
    Counted owners' (objs.make o) := by
  have hzero := h.unmade o hnew
  refine ⟨fun x => ?_, fun x hx => ?_, fun x => ?_⟩
  · by_cases hxo : x = o
    · simp [Objects.make, howners, hxo, hzero]
    · simp [Objects.make, howners, hxo, h.uses]
  · by_cases hxo : x = o
    · simp [Objects.make, hxo] at hx
    · simp only [Objects.make, Function.update_of_ne hxo] at hx
      simp [howners, hxo, h.unmade x hx]
  · by_cases hxo : x = o
    · simp [Objects.make, howners, hxo, h.destroyed, hnew]
    · simp [Objects.make, howners, hxo, h.destroyed]

theorem Counted.share (h : Counted owners objs) (hlive : 0 < owners o)
    (howners : ∀ x, owners' x = owners x + if x = o then 1 else 0) :
    Counted owners' (objs.share o) := by
  refine ⟨fun x => ?_, fun x hx => ?_, fun x => ?_⟩
  · by_cases hxo : x = o
    · simp [Objects.share, howners, hxo, h.uses]
    · simp [Objects.share, howners, hxo, h.uses]
  · have hzero := h.unmade x hx
    have hxo : x ≠ o := by
      rintro rfl
      omega
    simp [howners, hxo, hzero]
  · by_cases hxo : x = o
    · have hne : owners o ≠ 0 := Nat.pos_iff_ne_zero.mp hlive
      simp [Objects.share, howners, hxo, h.destroyed, hne]
    · simp [Objects.share, howners, hxo, h.destroyed]

theorem Counted.release (h : Counted owners objs)
    (howners : ∀ x, owners x = owners' x + if x = o then 1 else 0) :
    Counted owners' (objs.release o) := by
  have ho : owners o = owners' o + 1 := by simp [howners]
  have hmade : objs.made o = true := by
    cases hmade : objs.made o with
    | true => rfl
    | false => exact absurd (h.unmade o hmade) (by omega)
  refine ⟨fun x => ?_, fun x hx => ?_, fun x => ?_⟩
  · by_cases hxo : x = o
    · simp [Objects.release, hxo, h.uses, ho]
    · simp [Objects.release, hxo, h.uses, howners x]
  · have hzero := h.unmade x hx
    have := howners x
    omega
  · by_cases hxo : x = o
    · obtain rfl := hxo
      have hbefore : objs.destroyed x = 0 := by simp [h.destroyed, ho]
      by_cases hlast : owners' x = 0
      · simp [Objects.release, h.uses, ho, hlast, hbefore, hmade]
      · simp [Objects.release, h.uses, ho, hlast, hbefore]
    · have hx : owners x = owners' x := by simp [howners x, hxo]
      have hother : (objs.release o).destroyed x = objs.destroyed x := by
        unfold Objects.release
        split
        · exact Function.update_of_ne hxo _ _
        · rfl
      rw [hother, h.destroyed, hx]
      rfl

end RefCount
