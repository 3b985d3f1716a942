import RfidEngine.Replies

/-!
# Lines of a read

Timestamp, antenna and command letter stand in front of whatever the reader
says of a tag. An expression with this head matches exactly the texts that start
with a head and go on with what the rest of the expression matches, and the head
of a text is unique.
-/

namespace RfidEngine

open BacktrackRegex

theorem derives_timeParts_iff (b : Bool) (w t : Str) (c : Captures Char) :
    Derives (timeParts fun _ r => r) b w t c ↔ (∃ ts : Timestamp, w = ts.text) ∧ c = [] := by
  have hrep : ∀ n b (w t : Str) c, Derives (.rep isDigit n) b w t c ↔
      (w.length = n ∧ ∀ ch ∈ w, isDigit ch = true) ∧ c = [] := by
    intro n b w t c
    rw [derives_rep_iff, and_assoc]
  simp only [timeParts, Regex.seqs, derives_seq_of_plain (hrep _), derives_seq_lit_iff,
    derives_empty_iff]
  constructor
  · rintro ⟨year, -, rfl, hyear, -, rfl, month, -, rfl, hmonth, -, rfl, day, -, rfl, hday, -, rfl,
      hour, -, rfl, hhour, -, rfl, min, -, rfl, hmin, -, rfl, sec, -, rfl, hsec, -, rfl, ms, -,
      rfl, hms, rfl, rfl⟩
    refine ⟨⟨⟨⟨year, hyear⟩, ⟨month, hmonth⟩, ⟨day, hday⟩, ⟨hour, hhour⟩, ⟨min, hmin⟩,
      ⟨sec, hsec⟩, ⟨ms, hms⟩⟩, ?_⟩, rfl⟩
    simp [Timestamp.text]
  · rintro ⟨⟨ts, rfl⟩, rfl⟩
    refine ⟨ts.year, _, ?_, ts.year.2, _, rfl, ts.month, _, rfl, ts.month.2, _, rfl, ts.day, _,
      rfl, ts.day.2, _, rfl, ts.hour, _, rfl, ts.hour.2, _, rfl, ts.min, _, rfl, ts.min.2, _, rfl,
      ts.sec, _, rfl, ts.sec.2, _, rfl, ts.ms, [], rfl, ts.ms.2, rfl, rfl⟩
    simp [Timestamp.text]

/-- Behind a head the rest of the expression matches the rest of the text. -/
theorem derives_readHead_iff (tail : List (Regex Char)) (b : Bool) (w t : Str)
    (c : Captures Char) :
    Derives (.seqs (readHead ++ tail)) b w t c ↔
      ∃ (h : ReadHead) (v : Str) (c' : Captures Char), w = h.text ++ v ∧
        Derives (.seqs tail) false v t c' ∧ c = c' ++ h.captures := by
  have hopt : ∀ b (w t : Str) c, Derives (.opt (.lit ['@'])) b w t c ↔
      (∃ present, w = optional present '@') ∧ c = [] := by
    intro b w t c
    simp only [Derives, derives_lit_iff, Bool.exists_bool, optional]
    tauto
  have hplus : ∀ b (w t : Str) c, Derives (.plus isDigit) b w t c ↔
      (w ≠ [] ∧ ∀ ch ∈ w, isDigit ch = true) ∧ c = [] := by
    intro b w t c
    rw [derives_plus_iff, and_assoc]
  simp only [readHead, List.cons_append, List.nil_append, Regex.seqs,
    derives_seq_group_iff hopt, derives_seq_group_iff derives_timeParts_iff,
    derives_seq_group_iff hplus, derives_seq_lit_iff]
  constructor
  · rintro ⟨-, -, c₁, rfl, ⟨present, rfl⟩, ⟨-, -, c₂, rfl, ⟨ts, rfl⟩, ⟨-, rfl, antenna, -, c₃, rfl,
      ⟨hne, hdigits⟩, ⟨v, rfl, hv⟩, rfl⟩, rfl⟩, rfl⟩
    refine ⟨⟨present, ts, antenna, hne, hdigits⟩, v, c₃, ?_, ?_, ?_⟩
    · simp [ReadHead.text]
    · simpa using hv
    · simp [ReadHead.captures]
  · rintro ⟨h, v, c', rfl, hv, rfl⟩
    refine ⟨optional h.atSign '@', _, _, ?_, ⟨h.atSign, rfl⟩, ⟨h.time.text, _, _, rfl,
      ⟨h.time, rfl⟩, ⟨_, rfl, h.antenna, _, c', rfl, ⟨h.antenna_ne_nil, h.antenna_digits⟩,
      ⟨v, rfl, ?_⟩, rfl⟩, rfl⟩, ?_⟩
    · simp [ReadHead.text]
    · simpa using hv
    · simp [ReadHead.captures]

theorem fullMatch_readHead_iff (tail : List (Regex Char)) (s : Str) :
    (fullMatch (.seqs (readHead ++ tail)) s).isSome ↔
      ∃ (h : ReadHead) (v : Str), s = h.text ++ v ∧ ∃ c, Derives (.seqs tail) false v [] c := by
  rw [fullMatch_isSome_iff]
  simp only [derives_readHead_iff]
  constructor
  · rintro ⟨-, h, v, c, hline, hv, -⟩
    exact ⟨h, v, hline, c, hv⟩
  · rintro ⟨h, v, hline, c, hv⟩
    exact ⟨_, h, v, c, hline, hv, rfl⟩

theorem fullMatch_readHead (h : ReadHead) {tail : List (Regex Char)} {v : Str}
    {c : Captures Char} (hv : ∀ b, (attempts (.seqs tail) b v).head? = some ⟨v, [], c⟩) :
    fullMatch (.seqs (readHead ++ tail)) (h.text ++ v) = some (c ++ h.captures) :=
  fullMatch_of_first (first_readHead h hv true)

/-- A text starts with one head only. -/
theorem ReadHead.text_append_inj {h h' : ReadHead} {v v' : Str}
    (heq : h.text ++ v = h'.text ++ v') : h.captures = h'.captures ∧ v = v' := by
  have hall : ∀ (v : Str) b, (attempts (.seqs [.group 4 (.many fun _ => true)]) b v).head? =
      some ⟨v, [], [(4, v)]⟩ := by
    intro v b
    have hmany := first_group (i := 4)
      (first_many (b := b) (p := fun _ => true) (u := v) (t := []) (by simp) (by simp))
    rw [List.append_nil] at hmany
    have hempty : (attempts (.empty : Regex Char) (b && v.isEmpty) []).head? =
        some ⟨[], [], []⟩ := rfl
    have hseq := first_seq hmany hempty
    simpa [Regex.seqs] using hseq
  have hmatch := fullMatch_readHead h (hall v)
  rw [heq, fullMatch_readHead h' (hall v')] at hmatch
  have hcaps := Option.some.inj hmatch
  simp only [List.cons_append, List.nil_append, List.cons.injEq, Prod.mk.injEq, true_and] at hcaps
  exact ⟨hcaps.2.symm, hcaps.1.symm⟩

/-- `$` -/
theorem derives_lineEnd_iff (b : Bool) (w t : Str) (c : Captures Char) :
    Derives (.seqs [.lineEnd]) b w t c ↔ t = [] ∧ w = [] ∧ c = [] := by
  constructor
  · rintro ⟨_, _, _, _, rfl, rfl, ⟨ht, rfl, rfl⟩, rfl, rfl⟩
    exact ⟨ht, rfl, rfl⟩
  · rintro ⟨rfl, rfl, rfl⟩
    exact ⟨[], [], [], [], rfl, rfl, ⟨rfl, rfl, rfl⟩, rfl, rfl⟩

/-- `(.*)$` -/
theorem derives_text_iff (b : Bool) (v t : Str) (c : Captures Char) :
    Derives (.seqs [.group 4 (.many isDot), .lineEnd]) b v t c ↔
      t = [] ∧ (∀ ch ∈ v, isDot ch = true) ∧ c = [(4, v)] := by
  have hmany : ∀ b (w t : Str) c, Derives (.many isDot) b w t c ↔
      (∀ ch ∈ w, isDot ch = true) ∧ c = [] := fun _ _ _ _ => Iff.rfl
  rw [Regex.seqs, derives_seq_group_iff hmany]
  constructor
  · rintro ⟨u, w, c', rfl, hu, hw, rfl⟩
    obtain ⟨rfl, rfl, rfl⟩ := (derives_lineEnd_iff _ _ _ _).mp hw
    exact ⟨rfl, by simpa using hu, by simp⟩
  · rintro ⟨rfl, hv, rfl⟩
    exact ⟨v, [], [], by simp, hv, (derives_lineEnd_iff _ _ _ _).mpr ⟨rfl, rfl, rfl⟩, rfl⟩

/-- What a text behind a head may be, for every letter in front of it. -/
theorem derives_letter_iff (letter : Str) (b : Bool) (v t : Str) (c : Captures Char) :
    Derives (.seqs [.lit letter, .group 4 (.many isDot), .lineEnd]) b v t c ↔
      ∃ data, v = letter ++ data ∧ t = [] ∧ (∀ ch ∈ data, isDot ch = true) ∧
        c = [(4, data)] := by
  rw [Regex.seqs, derives_seq_lit_iff]
  simp only [derives_text_iff]

/-- An expression of a head and a letter matches exactly the lines of that letter. -/
theorem fullMatch_letter_iff (letter s : Str) :
    (fullMatch (.seqs (readHead ++ [.lit letter, .group 4 (.many isDot), .lineEnd])) s).isSome ↔
      ∃ (h : ReadHead) (data : Str), s = h.text ++ (letter ++ data) ∧
        ∀ ch ∈ data, isDot ch = true := by
  rw [fullMatch_readHead_iff]
  simp only [derives_letter_iff]
  constructor
  · rintro ⟨h, -, rfl, -, data, rfl, -, hdata, -⟩
    exact ⟨h, data, rfl, hdata⟩
  · rintro ⟨h, data, rfl, hdata⟩
    exact ⟨h, _, rfl, _, data, rfl, trivial, hdata, rfl⟩

/-- The captures of a line, with whatever goes on behind its head. -/
theorem fullMatch_answer (h : ReadHead) {answer : Str} (hanswer : ∀ ch ∈ answer, isDot ch = true) :
    fullMatch (.seqs (readHead ++ [.group 4 (.many isDot), .lineEnd])) (h.text ++ answer) =
      some ((4, answer) :: h.captures) :=
  fullMatch_readHead h (first_text hanswer)

end RfidEngine
