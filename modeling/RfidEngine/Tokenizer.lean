import RfidEngine.Lib.Fields
import RfidEngine.RfidInterface.Response

/-!
# TStringTokenizer: two positions in a text

`Token` searches for the delimiter from `nPos` on and cuts out the text between
`nPrevPos` and the place found; a search without success leaves `npos` in
`nPos`, and the last token is cut with it. Behind every delimiter both
positions are equal, and the tokens still to come are the fields of what is
left of the text.
-/

namespace RfidEngine

namespace TStringTokenizer

open RfidInterface

/-- `std::string::npos`, the largest `size_type`. -/
def npos : Nat := 18446744073709551615

/-- A `std::string`; no position of it is `npos`. -/
structure StdString where
  text : Str
  length_lt : text.length < npos

/-- `find` of a character: its first place at `pos` or behind it, `npos` where there is none. -/
def find (s : Str) (ch : Char) (pos : Nat) : Nat :=
  match (s.drop pos).idxOf? ch with
  | some k => pos + k
  | none => npos

/-- A search that finds nothing has `npos` for its answer, and only such a search. -/
theorem find_eq_npos_iff (s : StdString) {ch : Char} {pos : Nat} :
    find s.text ch pos = npos ↔ ch ∉ s.text.drop pos := by
  unfold find
  cases hidx : (s.text.drop pos).idxOf? ch with
  | none => exact iff_of_true rfl (List.idxOf?_eq_none_iff.mp hidx)
  | some k =>
      obtain ⟨hk, hch, -⟩ := List.idxOf?_eq_some_iff.mp hidx
      have hlen := s.length_lt
      rw [List.length_drop] at hk
      refine iff_of_false (by simp only; omega) fun hfree => hfree ?_
      exact hch ▸ List.getElem_mem _

/-- The place found splits the rest of the text: no delimiter before it, one at it. -/
theorem find_spec (s : StdString) {ch : Char} {pos : Nat} (h : find s.text ch pos ≠ npos) :
    ∃ word rest, s.text.drop pos = word ++ ch :: rest ∧ ch ∉ word ∧
      find s.text ch pos = pos + word.length := by
  unfold find at h ⊢
  cases hidx : (s.text.drop pos).idxOf? ch with
  | none => simp [hidx] at h
  | some k =>
      obtain ⟨hk, hch, hbefore⟩ := List.idxOf?_eq_some_iff.mp hidx
      refine ⟨(s.text.drop pos).take k, (s.text.drop pos).drop (k + 1), ?_, ?_, ?_⟩
      · rw [← hch, List.getElem_cons_drop, List.take_append_drop]
      · intro hmem
        obtain ⟨j, hj, heq⟩ := List.mem_take_iff_getElem.mp hmem
        exact hbefore j (by omega) (by simpa using heq)
      · rw [List.length_take, Nat.min_eq_left hk.le]

theorem lt_find (s : StdString) {ch : Char} {pos : Nat} (h : find s.text ch pos ≠ npos) :
    pos ≤ find s.text ch pos ∧ find s.text ch pos < s.text.length := by
  obtain ⟨word, rest, hdrop, -, hfind⟩ := find_spec s h
  have hlen := congrArg List.length hdrop
  simp only [List.length_drop, List.length_append, List.length_cons] at hlen
  omega

/-- The loop of `Token` and the last token behind it. -/
def tokenFrom (strString : StdString) (szDelimiter : Char) (nPrevPos nPos : Nat)
    (aryStrings : List Str) : Option (List Str) :=
  if h : find strString.text szDelimiter nPos = npos then do
    let last ← substr strString.text nPrevPos (sizeSub npos nPrevPos)
    return aryStrings ++ [last]
  else
    have := lt_find strString h
    let nPos' := find strString.text szDelimiter nPos
    do
      let strSubstring ← substr strString.text nPrevPos (sizeSub nPos' nPrevPos)
      tokenFrom strString szDelimiter (nPos' + 1) (nPos' + 1) (aryStrings ++ [strSubstring])
termination_by strString.text.length - nPos

/-- `Token` with a single character; nothing where a `substr` throws. -/
def token (strString : StdString) (szDelimiter : Char) : Option (List Str) :=
  tokenFrom strString szDelimiter 0 0 []

/-- The last token reaches to the end: its length is cut off there. -/
theorem substr_npos (s : StdString) {pos : Nat} (hpos : pos ≤ s.text.length) :
    substr s.text pos (sizeSub npos pos) = some (s.text.drop pos) := by
  have hlen := s.length_lt
  have hsub : sizeSub npos pos = npos - pos := if_pos (by omega)
  rw [substr, if_pos hpos, hsub, List.take_of_length_le]
  rw [List.length_drop]
  omega

/-- A token in front of a delimiter is the text between the two positions. -/
theorem substr_find (s : StdString) {pos : Nat} {word rest : Str} {d : Char}
    (hpos : pos ≤ s.text.length) (hdrop : s.text.drop pos = word ++ d :: rest) :
    substr s.text pos (sizeSub (pos + word.length) pos) = some word := by
  have hsub : sizeSub (pos + word.length) pos = word.length := by
    rw [sizeSub, if_pos (by omega)]
    omega
  rw [substr, if_pos hpos, hsub, hdrop, List.take_left]

/-- The invariant of the loop: where both positions are equal, it appends the fields of the text
behind them. -/
theorem tokenFrom_eq (s : StdString) (d : Char) (pos : Nat) (aryStrings : List Str)
    (hpos : pos ≤ s.text.length) :
    tokenFrom s d pos pos aryStrings = some (aryStrings ++ (s.text.drop pos).splitOn d) := by
  rw [tokenFrom]
  by_cases hfind : find s.text d pos = npos
  · have hfree := (find_eq_npos_iff s).mp hfind
    rw [dif_pos hfind, substr_npos s hpos, List.splitOn_eq_singleton hfree]
    rfl
  · obtain ⟨word, rest, hdrop, hword, heq⟩ := find_spec s hfind
    obtain ⟨-, hlt⟩ := lt_find s hfind
    have hrest : s.text.drop (pos + word.length + 1) = rest := by
      rw [Nat.add_assoc, ← List.drop_drop, hdrop, ← List.singleton_append, ← List.append_assoc]
      exact List.drop_left' (by simp)
    have hnext : pos + word.length + 1 ≤ s.text.length := by omega
    have ih := tokenFrom_eq s d (pos + word.length + 1) (aryStrings ++ [word]) hnext
    rw [dif_neg hfind, hdrop, List.splitOn_append_cons_self_of_not_mem hword]
    simp only [heq, substr_find s hpos hdrop, Option.bind_eq_bind, Option.bind_some]
    simpa [hrest] using ih
termination_by s.text.length - pos

theorem token_eq_splitOn (s : StdString) (d : Char) : token s d = some (s.text.splitOn d) :=
  tokenFrom_eq s d 0 [] (Nat.zero_le _)

-- a leading, an adjacent and a trailing delimiter
example : token ⟨",a,,b,".toList, by decide⟩ ',' =
    some ["".toList, "a".toList, "".toList, "b".toList, "".toList] := by
  rw [token_eq_splitOn]
  decide

/-- The tokens that the reply parsers walk over are the ones `Token` cuts out. -/
theorem token_eq_token (s : StdString) (d : Char) :
    token s d = some (RfidInterface.token s.text d) := by
  rw [token_eq_splitOn, RfidInterface.token_eq_splitOn]

/-- Tokenising is lossless: one token more than there are delimiters, none of them with a
delimiter in it, and joined they are the text. -/
theorem token_lossless (s : StdString) (d : Char) :
    ∃ tokens, token s d = some tokens ∧ tokens.length = s.text.count d + 1 ∧
      (∀ strSubstring ∈ tokens, d ∉ strSubstring) ∧ [d].intercalate tokens = s.text := by
  refine ⟨s.text.splitOn d, token_eq_splitOn s d, Fields.length_splitOn, ?_, ?_⟩
  · intro strSubstring hmem
    exact Fields.not_mem_of_mem_splitOn hmem
  · exact List.intercalate_splitOn d

end TStringTokenizer

end RfidEngine
