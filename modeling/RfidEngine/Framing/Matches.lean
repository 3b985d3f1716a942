import RfidEngine.Framing.Stream

/-!
# Where the packet patterns match

`Matches k` is the language of the pattern of kind `k`. No match begins inside
a unit of another kind or inside an incomplete unit, and a unit of the kind is
the only match at its own start. So the search finds the first unit of its kind.
-/

namespace RfidEngine

open BacktrackRegex

namespace CmdHandler

/-- The pattern that `taskFunc` searches for packets of a kind. -/
def pattern : PacketType → Regex Char
  | .normal => rgx
  | .heartBeat => rgxHb
  | .reboot => rgxBoot

end CmdHandler

open CmdHandler

/-- The texts that the pattern of a kind matches. -/
def Matches : PacketType → Str → Prop
  | .normal, w => ∃ body, '\n' ∉ body ∧ '\r' ∉ body ∧ w = '\n' :: body ++ ['\r', '\n']
  | .heartBeat, w =>
      ∃ id s₁ s₂ s₃, id ≠ [] ∧ (∀ ch ∈ id, isHexDigit ch = true) ∧
        (s₁.length = 2 ∧ ∀ ch ∈ s₁, isDot ch = true) ∧
        (s₂.length = 2 ∧ ∀ ch ∈ s₂, isDot ch = true) ∧
        (s₃.length = 2 ∧ ∀ ch ∈ s₃, isDot ch = true) ∧
        w = id ++ "heartbeat".toList ++ (s₁ ++ ['-'] ++ s₂ ++ ['-'] ++ s₃)
  | .reboot, w => w = ['\x02', 'A', '\r']

theorem derives_rgx_iff (b : Bool) (w t : Str) (c : Captures Char) :
    Derives rgx b w t c ↔ Matches .normal w ∧ c = [(1, w)] := by
  simp only [rgx, Regex.seqs, derives_group_iff, derives_seq_lit_iff, derives_seq_many_iff,
    derives_empty_iff, Matches, isDot_iff]
  constructor
  · rintro ⟨c', ⟨v, rfl, body, v', rfl, hdot, v'', rfl, rfl, rfl⟩, rfl⟩
    exact ⟨⟨body, fun h => (hdot _ h).1 rfl, fun h => (hdot _ h).2 rfl, by simp⟩, rfl⟩
  · rintro ⟨⟨body, hlf, hcr, rfl⟩, rfl⟩
    refine ⟨[], ⟨_, rfl, body, _, rfl, ?_, [], by simp, rfl, rfl⟩, rfl⟩
    intro ch hch
    exact ⟨fun h => hlf (h ▸ hch), fun h => hcr (h ▸ hch)⟩

theorem derives_rgxHb_iff (b : Bool) (w t : Str) (c : Captures Char) :
    Derives rgxHb b w t c ↔ Matches .heartBeat w ∧ c = [(1, w)] := by
  simp only [rgxHb, Regex.seqs, derives_group_iff, derives_seq_lit_iff, derives_seq_plus_iff,
    derives_seq_rep_iff, derives_empty_iff, Matches]
  constructor
  · rintro ⟨c', ⟨id, v, rfl, ⟨hne, hhex⟩, v, rfl, s₁, v, rfl, h₁, v, rfl, s₂, v, rfl, h₂,
      v, rfl, s₃, v, rfl, h₃, rfl, rfl⟩, rfl⟩
    exact ⟨⟨id, s₁, s₂, s₃, hne, hhex, h₁, h₂, h₃, by simp⟩, rfl⟩
  · rintro ⟨⟨id, s₁, s₂, s₃, hne, hhex, h₁, h₂, h₃, rfl⟩, rfl⟩
    exact ⟨[], ⟨id, "heartbeat".toList ++ (s₁ ++ (['-'] ++ (s₂ ++ (['-'] ++ (s₃ ++ []))))),
      by simp, ⟨hne, hhex⟩, _, rfl, s₁, _, rfl, h₁, _, rfl, s₂, _, rfl, h₂, _, rfl,
      s₃, _, rfl, h₃, rfl, rfl⟩, rfl⟩

/-- The pattern of a kind derives exactly its language and captures what it matches. -/
theorem derives_pattern_iff (k : PacketType) (b : Bool) (w t : Str) (c : Captures Char) :
    Derives (pattern k) b w t c ↔ Matches k w ∧ c = [(1, w)] := by
  cases k with
  | normal => exact derives_rgx_iff b w t c
  | heartBeat => exact derives_rgxHb_iff b w t c
  | reboot =>
      simp only [pattern, rgxBoot, derives_group_iff, derives_lit_iff, Matches]
      constructor
      · rintro ⟨c', ⟨rfl, rfl⟩, rfl⟩
        exact ⟨rfl, rfl⟩
      · rintro ⟨rfl, rfl⟩
        exact ⟨[], ⟨rfl, rfl⟩, rfl⟩

/-- No match of a kind begins at the head of a text. -/
def NoHead (k : PacketType) (s : Str) : Prop := ∀ w, w <+: s → ¬ Matches k w

theorem NoHead.dead {k : PacketType} {s : Str} (h : NoHead k s) : Dead (pattern k) s := by
  intro b w t c hs hd
  exact h w ⟨t, hs.symm⟩ ((derives_pattern_iff k b w t c).mp hd).1

/-- What begins no match in front of more text begins none without it. -/
theorem NoHead.of_append {k : PacketType} {s more : Str} (h : NoHead k (s ++ more)) :
    NoHead k s :=
  fun w hw => h w (hw.trans (List.prefix_append s more))

theorem Matches.head_lf {w : Str} (h : Matches .normal w) : ∃ w', w = '\n' :: w' := by
  obtain ⟨body, -, -, rfl⟩ := h
  exact ⟨_, rfl⟩

theorem Matches.head_stx {w : Str} (h : Matches .reboot w) : ∃ w', w = '\x02' :: w' :=
  ⟨_, h⟩

theorem Matches.head_hex {w : Str} (h : Matches .heartBeat w) :
    ∃ ch w', w = ch :: w' ∧ isHexDigit ch = true := by
  obtain ⟨id, s₁, s₂, s₃, hne, hhex, -, -, -, rfl⟩ := h
  cases id with
  | nil => exact absurd rfl hne
  | cons ch id => exact ⟨ch, _, rfl, hhex ch (by simp)⟩

theorem Matches.no_cr {w : Str} (h : Matches .heartBeat w) : '\r' ∉ w := by
  obtain ⟨id, s₁, s₂, s₃, -, hhex, ⟨-, h₁⟩, ⟨-, h₂⟩, ⟨-, h₃⟩, rfl⟩ := h
  have hdot : ∀ s : Str, (∀ ch ∈ s, isDot ch = true) → '\r' ∉ s := by
    intro s hs hmem
    exact (isDot_iff.mp (hs _ hmem)).2 rfl
  simp only [List.mem_append, not_or]
  exact ⟨⟨not_mem_of_hex hhex (by decide), by decide⟩,
    ⟨⟨⟨hdot s₁ h₁, by decide⟩, hdot s₂ h₂⟩, by decide⟩, hdot s₃ h₃⟩

theorem Matches.has_heartbeat {w : Str} (h : Matches .heartBeat w) :
    "heartbeat".toList <:+: w := by
  obtain ⟨id, s₁, s₂, s₃, -, -, -, -, -, rfl⟩ := h
  exact ⟨id, _, rfl⟩

theorem noHead_nil (k : PacketType) : NoHead k [] := by
  intro w hw hm
  obtain rfl := List.prefix_nil.mp hw
  cases k with
  | normal => exact absurd hm.head_lf (by simp)
  | heartBeat => exact absurd hm.head_hex (by simp)
  | reboot => exact absurd hm.head_stx (by simp)

/-- A text whose first character cannot open a match of a kind. -/
theorem noHead_cons {k : PacketType} {a : Char} {s : Str}
    (h : match k with
      | .normal => a ≠ '\n'
      | .heartBeat => isHexDigit a = false
      | .reboot => a ≠ '\x02') : NoHead k (a :: s) := by
  intro w hw hm
  cases k with
  | normal =>
      obtain ⟨w', rfl⟩ := hm.head_lf
      exact h (List.cons_prefix_cons.mp hw).1.symm
  | heartBeat =>
      obtain ⟨ch, w', rfl, hch⟩ := hm.head_hex
      have heq : ch = a := (List.cons_prefix_cons.mp hw).1
      rw [heq, h] at hch
      exact Bool.noConfusion hch
  | reboot =>
      obtain ⟨w', rfl⟩ := hm.head_stx
      exact h (List.cons_prefix_cons.mp hw).1.symm

/-- The nonempty suffixes of a text that lacks the opening characters of a kind. -/
theorem noHead_of_suffix {k : PacketType} {s v t : Str} (hv : v <:+ s) (hne : v ≠ [])
    (h : ∀ a ∈ s, match k with
      | .normal => a ≠ '\n'
      | .heartBeat => isHexDigit a = false
      | .reboot => a ≠ '\x02') : NoHead k (v ++ t) := by
  cases v with
  | nil => exact absurd rfl hne
  | cons a v => exact noHead_cons (h a (hv.subset (by simp)))

/-- A suffix of two texts lies in the second or contains it. -/
theorem suffix_append_cases {v s t : Str} (h : v <:+ s ++ t) :
    v <:+ t ∨ ∃ v', v = v' ++ t ∧ v' <:+ s := by
  rcases List.suffix_or_suffix_of_suffix h (List.suffix_append s t) with hv | hv
  · exact Or.inl hv
  · obtain ⟨v', rfl⟩ := hv
    exact Or.inr ⟨v', rfl, List.suffix_append_self_iff.mp h⟩

/-- A heartbeat that begins inside a text free of CR ends before the CR behind it. -/
theorem heartbeat_prefix_of_cr {s t w : Str} (hw : w <+: s ++ '\r' :: t)
    (hm : Matches .heartBeat w) : w <+: s := by
  rcases List.prefix_or_prefix_of_prefix hw (List.prefix_append s ('\r' :: t)) with h | h
  · exact h
  · obtain ⟨x, rfl⟩ := h
    cases x with
    | nil => simp
    | cons c x =>
        have hx : c :: x <+: '\r' :: t := (List.prefix_append_right_inj s).mp hw
        have hc : c = '\r' := (List.cons_prefix_cons.mp hx).1
        exact absurd (by simp [hc]) hm.no_cr

/-- No heartbeat begins before a CR where the text up to it lacks the word. -/
theorem noHead_heartbeat_of_cr {s rest v : Str} (hs : ¬ "heartbeat".toList <:+: s)
    (hrest : ∀ a ∈ '\r' :: rest, isHexDigit a = false) (hv : v <:+ s ++ '\r' :: rest)
    (hv_ne : v ≠ []) (t : Str) : NoHead .heartBeat (v ++ t) := by
  rcases suffix_append_cases hv with h | ⟨v', rfl, hv'⟩
  · exact noHead_of_suffix (k := .heartBeat) h hv_ne hrest
  · intro w hw hm
    have hin : w <+: v' := by
      rw [List.append_assoc] at hw
      exact heartbeat_prefix_of_cr hw hm
    exact hs ((hm.has_heartbeat.trans hin.isInfix).trans hv'.isInfix)

/-- No match begins inside a unit of another kind. -/
theorem noHead_of_kind_ne {k : PacketType} {u : StreamUnit} (hne : u.kind ≠ k) {v : Str}
    (hv : v <:+ u.bytes) (hv_ne : v ≠ []) (t : Str) : NoHead k (v ++ t) := by
  cases u with
  | frame body =>
      cases k with
      | normal => exact absurd rfl hne
      | heartBeat =>
          -- A heartbeat has no CR, so it would lie inside the body.
          have hbody : ¬ "heartbeat".toList <:+: '\n' :: body.text := by
            intro h
            obtain hpre | hin := List.infix_cons_iff.mp h
            · exact absurd (List.cons_prefix_cons.mp hpre).1 (by decide)
            · exact body.no_heartbeat hin
          exact noHead_heartbeat_of_cr hbody (by simp [isHexDigit]) hv hv_ne t
      | reboot =>
          apply noHead_of_suffix hv hv_ne
          intro a ha heq
          subst heq
          simp only [StreamUnit.bytes, FrameBody.frame, List.cons_append, List.mem_cons,
            List.mem_append] at ha
          rcases ha with h | h | h
          · exact absurd h (by decide)
          · exact body.no_stx h
          · exact absurd h (by decide)
  | heartbeat b =>
      cases k with
      | normal =>
          apply noHead_of_suffix hv hv_ne
          intro a ha heq
          exact b.not_mem_text (by decide) (by decide) (by decide) (heq ▸ ha)
      | heartBeat => exact absurd rfl hne
      | reboot =>
          apply noHead_of_suffix hv hv_ne
          intro a ha heq
          exact b.not_mem_text (by decide) (by decide) (by decide) (heq ▸ ha)
  | reboot =>
      cases k with
      | normal =>
          apply noHead_of_suffix hv hv_ne
          simp [StreamUnit.bytes]
      | heartBeat =>
          -- Only the `A` could open a heartbeat, and a CR follows it.
          have hword : ¬ "heartbeat".toList <:+: ['\x02', 'A'] :=
            fun h => absurd h.length_le (by decide)
          have hcr : v <:+ ['\x02', 'A'] ++ '\r' :: [] := hv
          exact noHead_heartbeat_of_cr hword (by simp [isHexDigit]) hcr hv_ne t
      | reboot => exact absurd rfl hne

theorem StreamUnit.matches_bytes (u : StreamUnit) : Matches u.kind u.bytes := by
  cases u with
  | frame body => exact ⟨body.text, body.no_lf, body.no_cr, rfl⟩
  | heartbeat b =>
      have hpair : ∀ x : HexPair, x.text.length = 2 ∧ ∀ ch ∈ x.text, isDot ch = true := by
        intro x
        refine ⟨rfl, fun ch hch => isDot_iff.mpr ⟨?_, ?_⟩⟩
        · intro heq
          exact x.not_mem (by decide) (heq ▸ hch)
        · intro heq
          exact x.not_mem (by decide) (heq ▸ hch)
      exact ⟨b.id, b.first.text, b.second.text, b.third.text, b.id_ne, b.id_hex,
        hpair b.first, hpair b.second, hpair b.third, rfl⟩
  | reboot => rfl

/-- Two splits at the first occurrence of a character are one split. -/
theorem append_cons_inj_of_first {a : Char} {l₁ l₂ r₁ r₂ : Str} (h₁ : a ∉ l₁) (h₂ : a ∉ l₂)
    (h : l₁ ++ a :: r₁ = l₂ ++ a :: r₂) : l₁ = l₂ ∧ r₁ = r₂ := by
  induction l₁ generalizing l₂ with
  | nil =>
      cases l₂ with
      | nil => exact ⟨rfl, (List.cons.inj h).2⟩
      | cons b l₂ => exact absurd (by simp [(List.cons.inj h).1]) h₂
  | cons b l₁ ih =>
      cases l₂ with
      | nil => exact absurd (by simp [(List.cons.inj h).1]) h₁
      | cons c l₂ =>
          obtain ⟨hbc, hrest⟩ := List.cons.inj h
          obtain ⟨hl, hr⟩ := ih (fun hm => h₁ (List.mem_cons_of_mem b hm))
            (fun hm => h₂ (List.mem_cons_of_mem c hm)) hrest
          exact ⟨by rw [hbc, hl], hr⟩

/-- The text of a heartbeat from its first `h` on. -/
theorem Matches.split_h {w : Str} (h : Matches .heartBeat w) :
    ∃ id rest, w = id ++ 'h' :: rest ∧ 'h' ∉ id ∧ rest.length = 16 := by
  obtain ⟨id, s₁, s₂, s₃, -, hhex, ⟨h₁, -⟩, ⟨h₂, -⟩, ⟨h₃, -⟩, rfl⟩ := h
  refine ⟨id, "eartbeat".toList ++ (s₁ ++ ['-'] ++ s₂ ++ ['-'] ++ s₃), ?_,
    not_mem_of_hex hhex (by decide), ?_⟩
  · simp
  · simp [h₁, h₂, h₃]

/-- A unit of a kind is the only match of the kind at its own start. -/
theorem StreamUnit.eq_bytes_of_matches {u : StreamUnit} {w t t' : Str}
    (heq : u.bytes ++ t = w ++ t') (hm : Matches u.kind w) : w = u.bytes := by
  cases u with
  | frame body =>
      obtain ⟨text, -, hcr, rfl⟩ := hm
      have hsplit : body.text ++ '\r' :: ('\n' :: t) = text ++ '\r' :: ('\n' :: t') := by
        simpa [bytes, FrameBody.frame] using heq
      rw [← (append_cons_inj_of_first body.no_cr hcr hsplit).1]
      rfl
  | heartbeat b =>
      obtain ⟨id, rest, hw, hid, hlen⟩ := hm.split_h
      obtain ⟨id', rest', hu, hid', hlen'⟩ := (StreamUnit.heartbeat b).matches_bytes.split_h
      have hsplit : id' ++ 'h' :: (rest' ++ t) = id ++ 'h' :: (rest ++ t') := by
        rw [hu, hw] at heq
        simpa using heq
      obtain ⟨rfl, hrest⟩ := append_cons_inj_of_first hid' hid hsplit
      rw [hu, hw, (List.append_inj hrest (hlen'.trans hlen.symm)).1]
  | reboot =>
      obtain rfl := hm
      rfl

/-- A frame has two LFs and an incomplete one at most the first. -/
theorem frame_not_infix {body : FrameBody} {part more w : Str}
    (hmore : part ++ more = (StreamUnit.frame body).bytes) (hmore_ne : more ≠ [])
    (hm : Matches .normal w) : ¬ w <:+: part := by
  intro hin
  obtain ⟨text, -, -, rfl⟩ := hm
  obtain ⟨front, a, rfl⟩ := List.eq_nil_or_concat' more |>.resolve_left hmore_ne
  have hfront : part ++ front = '\n' :: body.text ++ ['\r'] := by
    have hcat : (part ++ front) ++ [a] = ('\n' :: body.text ++ ['\r']) ++ ['\n'] := by
      simpa [StreamUnit.bytes, FrameBody.frame] using hmore
    exact (List.append_inj' hcat rfl).1
  have hle : List.count '\n' ('\n' :: text ++ ['\r', '\n']) ≤
      List.count '\n' (part ++ front) :=
    ((hin.trans (List.prefix_append part front).isInfix).sublist).count_le _
  rw [hfront] at hle
  simp [List.count_eq_zero_of_not_mem body.no_lf] at hle

theorem HeartbeatText.count_h (b : HeartbeatText) :
    List.count 'h' (StreamUnit.heartbeat b).bytes = 1 := by
  simp [StreamUnit.bytes, HeartbeatText.text,
    List.count_eq_zero_of_not_mem (not_mem_of_hex b.id_hex (c := 'h') (by decide)),
    List.count_eq_zero_of_not_mem (b.not_mem_stamp (c := 'h') (by decide) (by decide))]

/-- Behind its only `h` a heartbeat has 16 characters, an incomplete one fewer. -/
theorem heartbeat_not_infix {b : HeartbeatText} {part more w : Str}
    (hmore : part ++ more = (StreamUnit.heartbeat b).bytes) (hmore_ne : more ≠ [])
    (hm : Matches .heartBeat w) : ¬ w <:+: part := by
  intro hin
  obtain ⟨id, rest, hw, hid, hlen⟩ := hm.split_h
  obtain ⟨id', rest', hu, hid', hlen'⟩ := (StreamUnit.heartbeat b).matches_bytes.split_h
  obtain ⟨x, y, hxy⟩ := hin
  have hu' : x ++ id ++ 'h' :: (rest ++ y ++ more) = id' ++ 'h' :: rest' := by
    rw [← hu, ← hmore, ← hxy, hw]
    simp
  have hrest' : 'h' ∉ rest' := by
    have hcount := b.count_h
    rw [hu] at hcount
    intro hmem
    have hpos := List.count_pos_iff.mpr hmem
    simp only [List.count_append, List.count_cons_self] at hcount
    omega
  obtain ⟨-, -, hr⟩ := (List.append_cons_inj_of_notMem hid' hrest').mp hu'.symm
  have hmore_pos := List.length_pos_of_ne_nil hmore_ne
  rw [hr] at hlen'
  simp only [List.length_append] at hlen'
  omega

/-- An incomplete unit holds no match of its kind. -/
theorem StreamUnit.not_infix_of_incomplete {u : StreamUnit} {part more w : Str}
    (hmore : part ++ more = u.bytes) (hmore_ne : more ≠ []) (hm : Matches u.kind w) :
    ¬ w <:+: part := by
  cases u with
  | frame body => exact frame_not_infix hmore hmore_ne hm
  | heartbeat b => exact heartbeat_not_infix hmore hmore_ne hm
  | reboot =>
      intro hin
      obtain rfl := hm
      have hlen := hin.length_le
      have htotal := congrArg List.length hmore
      have hmore_pos := List.length_pos_of_ne_nil hmore_ne
      simp [StreamUnit.bytes] at hlen htotal
      omega

/-- No match begins inside an incomplete unit at the end of the input. -/
theorem Incomplete.noHead {k : PacketType} {part v : Str} (h : Incomplete part)
    (hv : v <:+ part) : NoHead k v := by
  obtain ⟨u, ⟨more, hmore⟩, hne⟩ := h
  have hmore_ne : more ≠ [] := by
    intro hnil
    rw [hnil, List.append_nil] at hmore
    exact hne hmore
  by_cases hkind : u.kind = k
  · intro w hw hm
    subst hkind
    exact u.not_infix_of_incomplete hmore hmore_ne hm (hw.isInfix.trans hv.isInfix)
  · by_cases hv_ne : v = []
    · rw [hv_ne]
      exact noHead_nil k
    · have hsuffix : v ++ more <:+ u.bytes := by
        rw [← hmore]
        exact List.suffix_append_self_iff.mpr hv
      have hhead := noHead_of_kind_ne hkind hsuffix (by simp [hv_ne]) []
      exact hhead.of_append.of_append

/-- No match begins inside units of other kinds. -/
theorem noHead_stream {k : PacketType} {units : List StreamUnit}
    (h : ∀ u ∈ units, u.kind ≠ k) {v : Str} (hv : v <:+ stream units) (hne : v ≠ [])
    (t : Str) : NoHead k (v ++ t) := by
  induction units generalizing v t with
  | nil => exact absurd (List.suffix_nil.mp hv) hne
  | cons u units ih =>
      rcases suffix_append_cases hv with hv' | ⟨v', rfl, hv'⟩
      · exact ih (fun x hx => h x (List.mem_cons_of_mem u hx)) hv' hne t
      · by_cases hnil : v' = []
        · subst hnil
          exact ih (fun x hx => h x (List.mem_cons_of_mem u hx)) List.suffix_rfl hne t
        · rw [List.append_assoc]
          exact noHead_of_kind_ne (h u (by simp)) hv' hnil _

/-- Without a unit of its kind the pattern is nowhere in the buffer. -/
theorem search_pattern_eq_none {k : PacketType} {units : List StreamUnit} {part : Str}
    (h : ∀ u ∈ units, u.kind ≠ k) (hpart : Incomplete part) :
    search (pattern k) (stream units ++ part) = none := by
  apply searchFrom_eq_none_of_dead
  intro v hv
  apply NoHead.dead
  rcases suffix_append_cases hv with hv' | ⟨v', rfl, hv'⟩
  · exact hpart.noHead hv'
  · by_cases hnil : v' = []
    · subst hnil
      exact hpart.noHead List.suffix_rfl
    · exact noHead_stream h hv' hnil part

/-- The search finds the first unit of its kind. -/
theorem search_pattern_eq_some {k : PacketType} {front : List StreamUnit} {u : StreamUnit}
    (hfront : ∀ x ∈ front, x.kind ≠ k) (hu : u.kind = k) (t : Str) :
    ∃ c, search (pattern k) (stream front ++ (u.bytes ++ t)) =
      some ⟨stream front, u.bytes, t, c⟩ := by
  obtain ⟨b, hb⟩ := searchFrom_append_of_dead (t := u.bytes ++ t)
    (fun v hv hne => (noHead_stream hfront hv hne (u.bytes ++ t)).dead) true
  have hd : Derives (pattern k) b u.bytes t [(1, u.bytes)] :=
    (derives_pattern_iff k b _ _ _).mpr ⟨hu ▸ u.matches_bytes, rfl⟩
  obtain ⟨c, hc⟩ := searchFrom_of_head hd fun w' t' c' heq hd' =>
    StreamUnit.eq_bytes_of_matches heq (hu ▸ ((derives_pattern_iff k b _ _ _).mp hd').1)
  refine ⟨c, ?_⟩
  rw [search, hb, hc]
  simp [Found.shift]

end RfidEngine
