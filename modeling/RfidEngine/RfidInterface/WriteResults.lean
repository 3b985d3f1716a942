import Mathlib.Data.List.Infix
import RfidEngine.ReadLines
import RfidEngine.RfidInterface.TagWrite

/-!
# RfidInterface: the results of a write

A reply to a write says that it succeeded, or how many words were written, with
an error code in front of the number or without. The functions on result codes
take the kind of the result from all bits but the lowest eight, and the number
from these; `WriteBank` never puts a number there.

## Main results

The replies whose result the caller can decode.
-/

namespace RfidEngine.RfidInterface

open BacktrackRegex

def isErrz (n : Int) : Bool :=
  BitVec.ofInt 32 n &&& 0xFFFFFF00#32 == BitVec.ofInt 32 rfidErrWordsWriteErrZ

def isErr3z (n : Int) : Bool :=
  BitVec.ofInt 32 n &&& 0xFFFFFF00#32 == BitVec.ofInt 32 rfidErrWordsWriteErr3Z

def errzVal (n : Int) : Int := (BitVec.ofInt 32 n &&& 0x000000FF#32).toInt

def err3zVal (n : Int) : Int := (BitVec.ofInt 32 n &&& 0x000000FF#32).toInt

/-- The number of words written, `00` to `1F`. -/
abbrev WordsText :=
  {w : Str // (w.length = 2 ∧ ∀ ch ∈ w, isHexDigit ch = true) ∧ hexValue w ≤ 0x1F}

/-- What stands behind the letter of the command. -/
inductive WriteResult where
  | ok (bracketed : Bool)
  | words (xx : WordsText)
  | errorAndWords (code : Char) (listed : code ∈ ['0', '3', '4', 'B', 'F']) (xx : WordsText)

namespace WriteResult

def text : WriteResult → Str
  | ok bracketed => if bracketed then "<OK>".toList else "OK".toList
  | words xx => 'Z' :: xx
  | errorAndWords code _ xx => code :: 'Z' :: xx

/-- `[@]<timestamp>-Antenna<antenna>-W<result>` -/
def line (r : WriteResult) (head : ReadHead) : Str := head.text ++ ('W' :: r.text)

/-- The code says what the reply says. -/
def Decodes (r : WriteResult) (v : Int) : Prop :=
  match r with
  | ok _ => v = rfidOk
  | words xx => isErrz v = true ∧ errzVal v = hexValue xx
  | errorAndWords _ _ xx => isErr3z v = true ∧ err3zVal v = hexValue xx

/-- The reply is a success, or says that no words were written, without an error code. -/
def Decodable : WriteResult → Prop
  | ok _ => True
  | words xx => hexValue xx = 0
  | errorAndWords _ _ _ => False

theorem not_mem_text {r : WriteResult} (hr : ∀ bracketed, r ≠ ok bracketed) {ch : Char}
    (hhex : isHexDigit ch = false) (hZ : ch ≠ 'Z') : ch ∉ r.text := by
  have hxx : ∀ xx : WordsText, ch ∉ (xx : Str) := fun xx hmem =>
    ne_of_class (xx.2.1.2 ch hmem) hhex rfl
  cases r with
  | ok bracketed => exact absurd rfl (hr bracketed)
  | words xx =>
      rw [text, List.mem_cons, not_or]
      exact ⟨hZ, hxx xx⟩
  | errorAndWords code listed xx =>
      rw [text, List.mem_cons, List.mem_cons, not_or, not_or]
      refine ⟨?_, hZ, hxx xx⟩
      rintro rfl
      have hcode : ∀ c ∈ ['0', '3', '4', 'B', 'F'], isHexDigit c = true :=
        List.all_eq_true.mp rfl
      exact absurd (hcode ch listed) (by rw [hhex]; exact Bool.false_ne_true)

/-- A reply to a write is one line. -/
theorem text_isDot (r : WriteResult) : ∀ ch ∈ 'W' :: r.text, isDot ch = true := by
  refine List.forall_mem_cons.mpr ⟨rfl, ?_⟩
  cases r with
  | ok bracketed => cases bracketed <;> exact List.all_eq_true.mp rfl
  | words xx =>
      exact List.forall_mem_cons.mpr ⟨rfl, fun ch hch => isDot_of_isHexDigit (xx.2.1.2 ch hch)⟩
  | errorAndWords code listed xx =>
      have hcode : ∀ c ∈ ['0', '3', '4', 'B', 'F'], isDot c = true := List.all_eq_true.mp rfl
      exact List.forall_mem_cons.mpr ⟨hcode code listed, List.forall_mem_cons.mpr
        ⟨rfl, fun ch hch => isDot_of_isHexDigit (xx.2.1.2 ch hch)⟩⟩

/-- The result that the code finds in a reply: a success, or an error without its number. -/
theorem writeBankResult_eq (r : WriteResult) :
    writeBankResult ('W' :: r.text) =
      match r with
      | ok _ => rfidOk
      | _ => rfidErrWordsWriteErrZ := by
  have herror : (∀ bracketed, r ≠ ok bracketed) → 'Z' ∈ r.text →
      writeBankResult ('W' :: r.text) = rfidErrWordsWriteErrZ := by
    intro hr hZ
    have hno : ¬ "OK".toList <:+: 'W' :: r.text := by
      intro hOK
      obtain hW | hO := List.mem_cons.mp (hOK.subset List.mem_cons_self)
      · exact absurd hW (by decide)
      · exact not_mem_text hr rfl (by decide) hO
    have hyes : ['Z'] <:+: 'W' :: r.text :=
      (List.singleton_infix_iff 'Z' _).mpr (List.mem_cons_of_mem 'W' hZ)
    rw [writeBankResult, if_neg hno, if_pos hyes]
  cases r with
  | ok bracketed => cases bracketed <;> decide
  | words xx => exact herror (fun _ => by simp) List.mem_cons_self
  | errorAndWords code listed xx =>
      exact herror (fun _ => by simp) (List.mem_cons_of_mem code List.mem_cons_self)

/-- What `WriteBank` returns for a reply to a write that was sent. -/
theorem after_writeBank {bank start length : Int} (hvalid : validInput bank start length = true)
    (data : Str) {nSend : Int} (hsend : 0 < nSend) (r : WriteResult) (head : ReadHead) :
    (writeBank bank start length data).after nSend (r.line head) =
      writeBankResult ('W' :: r.text) := by
  have hmatch := fullMatch_answer head r.text_isDot
  unfold writeBank
  rw [if_pos hvalid]
  have hreply : replyCode rgxAnswer
      (fun indexMatch => writeBankResult (Captures.str indexMatch 4)) nSend (r.line head) =
        writeBankResult (Captures.str ((4, 'W' :: r.text) :: head.captures) 4) := by
    unfold replyCode rgxAnswer line
    rw [if_pos hsend, hmatch]
  exact hreply

/-- The result without its number says that no words were written, and names no error code. -/
theorem decodes_writeErrZ (n : Nat) :
    (isErrz rfidErrWordsWriteErrZ = true ∧ errzVal rfidErrWordsWriteErrZ = n ↔ n = 0) ∧
      ¬ isErr3z rfidErrWordsWriteErrZ = true := by
  have hkind : isErrz rfidErrWordsWriteErrZ = true := by decide
  have hval : errzVal rfidErrWordsWriteErrZ = 0 := by decide
  have hother : isErr3z rfidErrWordsWriteErrZ = false := by decide
  refine ⟨?_, by rw [hother]; exact Bool.false_ne_true⟩
  rw [and_iff_right hkind, hval]
  exact ⟨fun h => Int.natCast_eq_zero.mp h.symm, fun h => (Int.natCast_eq_zero.mpr h).symm⟩

/-- What `WriteBank` returns says what the reply says exactly for the successes and for the
replies that no words were written, without an error code. -/
theorem decodes_writeBank_iff {bank start length : Int}
    (hvalid : validInput bank start length = true) (data : Str) {nSend : Int} (hsend : 0 < nSend)
    (r : WriteResult) (head : ReadHead) :
    r.Decodes ((writeBank bank start length data).after nSend (r.line head)) ↔ r.Decodable := by
  rw [after_writeBank hvalid data hsend, writeBankResult_eq]
  cases r with
  | ok bracketed => exact iff_of_true rfl trivial
  | words xx => exact (decodes_writeErrZ (hexValue xx)).1
  | errorAndWords code listed xx =>
      exact iff_of_false (fun h => (decodes_writeErrZ (hexValue xx)).2 h.1) id

def noWords : WordsText := ⟨"00".toList, ⟨rfl, List.all_eq_true.mp rfl⟩, by decide⟩

def fiveWords : WordsText := ⟨"05".toList, ⟨rfl, List.all_eq_true.mp rfl⟩, by decide⟩

/-- `W<OK>` after a write of six words to the EPC. -/
theorem decodes_writeBank_ok :
    (ok true).Decodes ((writeBank 1 2 6 []).after 40 ((ok true).line RfidEngine.sampleHead)) :=
  (decodes_writeBank_iff rfl [] (by decide) (ok true) RfidEngine.sampleHead).mpr trivial

/-- `WZ05` gives the result that no words were written, and `W3Z00` that without an error code. -/
theorem words_not_decoded :
    ¬ (words fiveWords).Decodes
        ((writeBank 1 2 6 []).after 40 ((words fiveWords).line RfidEngine.sampleHead)) ∧
      ¬ (errorAndWords '3' (by decide) noWords).Decodes ((writeBank 1 2 6 []).after 40
        ((errorAndWords '3' (by decide) noWords).line RfidEngine.sampleHead)) := by
  rw [after_writeBank rfl [] (by decide), after_writeBank rfl [] (by decide), writeBankResult_eq,
    writeBankResult_eq]
  refine ⟨fun h => absurd h.2 (by decide), fun h => absurd h.1 (by decide)⟩

end WriteResult

end RfidEngine.RfidInterface
