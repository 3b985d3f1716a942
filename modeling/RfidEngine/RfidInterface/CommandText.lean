import RfidEngine.RfidInterface.Conversions

/-!
# RfidInterface: the texts of the commands

A command is a line feed, its text and a carriage return; its fields stand
between commas. The texts are printed into a buffer of a fixed size.

## Main results

Which commands have their numbers in the reader's notation: that of the
selection always, the others where a number has one digit. Which arguments are
sent whole: those without a zero that fit in the buffer.
-/

namespace RfidEngine.RfidInterface

open Numerals

def rfPtReqSingleCommand : Nat := 0x2E

/-- `\n%s\r`; the response is handed out as it is. -/
def singleCommand (userCmd : Str) : Exchange Str :=
  .send rfPtReqSingleCommand (snprintf ('\n' :: cStr userCmd ++ ['\r'])) fun _ response => response

/-- The four commands with the place and the length of a part of a bank. -/
inductive BankCommand where
  | readBank (loop : Bool) (bank start length : Int)
  | readMultiBank (slot : Int) (loop : Bool) (bank start length : Int)
  | writeBank (bank start length : Int) (data : Str)
  | selectTag (bank start length : Int) (pattern : Str)

namespace BankCommand

/-- The text that is sent, if the input is accepted. -/
def sent : BankCommand → Option Str
  | readBank loop bank start length =>
      (RfidInterface.readBank loop bank start length).map fun command => command.cmd
  | readMultiBank slot loop bank start length =>
      (RfidInterface.readMultiBank slot loop bank start length).map fun command => command.cmd
  | writeBank bank start length data => (RfidInterface.writeBank bank start length data).sent
  | selectTag bank start length pattern =>
      (RfidInterface.selectTag bank start length pattern).sent

def start : BankCommand → Int
  | readBank _ _ start _ | readMultiBank _ _ _ start _ | writeBank _ start _ _
  | selectTag _ start _ _ => start

def length : BankCommand → Int
  | readBank _ _ _ length | readMultiBank _ _ _ _ length | writeBank _ _ length _
  | selectTag _ _ length _ => length

/-- The field of the start; that of the length is the next. -/
def place : BankCommand → Nat
  | readMultiBank _ _ _ _ _ => 2
  | _ => 1

def isSelect : BankCommand → Bool
  | selectTag _ _ _ _ => true
  | _ => false

/-- How the command prints its numbers. -/
def printed (c : BankCommand) : Int → Str := if c.isSelect then hexadecimal else decimal

end BankCommand

/-- The fields of a command, up to its carriage return. -/
def commandFields (szSend : Str) : List Str := (szSend.takeWhile (· != '\r')).splitOn ','

/-- The field is a hexadecimal numeral that denotes the number. -/
def ReadsAs (field : Str) (n : Int) : Prop :=
  field ≠ [] ∧ (∀ ch ∈ field, digitValue ch < 16) ∧ (hexValue field : Int) = n

/-- The start and the length come back from the text. -/
def BankCommand.KeepsNumbers (c : BankCommand) (szSend : Str) : Prop :=
  (∃ field, (commandFields szSend)[c.place]? = some field ∧ ReadsAs field c.start) ∧
    ∃ field, (commandFields szSend)[c.place + 1]? = some field ∧ ReadsAs field c.length

/-- A text without a comma and without a carriage return. -/
def Plain (w : Str) : Prop := ∀ ch ∈ w, ch ≠ ',' ∧ ch ≠ '\r'

theorem Plain.append {u v : Str} (hu : Plain u) (hv : Plain v) : Plain (u ++ v) :=
  List.forall_mem_append.mpr ⟨hu, hv⟩

theorem plain_of_digits {w : Str} (hw : ∀ ch ∈ w, digitValue ch < 16) : Plain w := by
  intro ch hch
  exact ⟨ne_of_digitValue (by decide) (hw ch hch) rfl,
    ne_of_digitValue (by decide) (hw ch hch) rfl⟩

theorem takeWhile_append_of_plain {w : Str} (hw : Plain w) (t : Str) :
    (w ++ t).takeWhile (· != '\r') = w ++ t.takeWhile (· != '\r') := by
  rw [List.takeWhile_append_of_pos]
  intro ch hch
  simpa using (hw ch hch).2

/-- A field in front of a comma. -/
theorem commandFields_cons {w : Str} (hw : Plain w) (t : Str) :
    commandFields (w ++ ',' :: t) = w :: commandFields t := by
  have hcomma : ',' ∉ w := fun hmem => (hw _ hmem).1 rfl
  have htake : (',' :: t).takeWhile (· != '\r') = ',' :: t.takeWhile (· != '\r') := rfl
  rw [commandFields, takeWhile_append_of_plain hw, htake,
    List.splitOn_append_cons_self_of_not_mem hcomma, commandFields]

/-- The last field. -/
theorem commandFields_last {w : Str} (hw : Plain w) (t : Str) :
    commandFields (w ++ '\r' :: t) = [w] := by
  have hcomma : ',' ∉ w := fun hmem => (hw _ hmem).1 rfl
  have htake : ('\r' :: t).takeWhile (· != '\r') = [] := rfl
  rw [commandFields, takeWhile_append_of_plain hw, htake, List.append_nil]
  exact Fields.splitOn_eq_singleton_iff.mpr ⟨rfl, hcomma⟩

theorem decimal_digits {n : Int} (hn : 0 ≤ n) : ∀ ch ∈ decimal n, digitValue ch < 16 := by
  obtain ⟨m, rfl⟩ := Int.eq_ofNat_of_zero_le hn
  intro ch hch
  rw [decimal_natCast] at hch
  exact Nat.lt_trans (digitValue_toDigits hch) (by decide)

/-- A number that is printed in decimal is read as itself exactly if it has one digit. -/
theorem readsAs_decimal_iff {n : Int} (hn : 0 ≤ n) : ReadsAs (decimal n) n ↔ n ≤ 9 := by
  have hdigits := decimal_digits hn
  obtain ⟨m, rfl⟩ := Int.eq_ofNat_of_zero_le hn
  rw [decimal_natCast] at hdigits
  unfold ReadsAs
  rw [decimal_natCast]
  constructor
  · rintro ⟨-, -, hvalue⟩
    by_contra hlarge
    have hlt : m < hexValue (Nat.toDigits 10 m) :=
      lt_read_toDigits (by omega) (fun d hd => digitValue_digitChar d (by omega)) (by omega)
        (by omega)
    omega
  · intro hsmall
    have hsame : Nat.toDigits 10 m = Nat.toDigits 16 m := by
      rw [Nat.toDigits_of_lt_base (by omega), Nat.toDigits_of_lt_base (by omega)]
    exact ⟨Nat.toDigits_ne_nil, hdigits, by rw [hsame, hexValue_toDigits]⟩

/-- A number that is printed in hexadecimal is read as itself. -/
theorem readsAs_hexadecimal {n : Int} (hn : 0 ≤ n) : ReadsAs (hexadecimal n) n := by
  refine ⟨Nat.toDigits_ne_nil, fun ch hch => ?_, ?_⟩
  · exact value_lt_of_mem_toDigits (by omega) digitValue_digitChar hch
  · rw [hexadecimal, hexValue_toDigits, Int.toNat_of_nonneg hn]

theorem plain_decimal {n : Int} (hn : 0 ≤ n) : Plain (decimal n) :=
  plain_of_digits (decimal_digits hn)

theorem validInput_nonneg {bank start length : Int} (h : validInput bank start length = true) :
    0 ≤ bank ∧ bank ≤ 3 ∧ 0 ≤ start ∧ start ≤ 0x3FFF ∧ 1 ≤ length ∧ length ≤ 0x1E := by
  simpa [validInput, and_assoc] using h

/-- The text of a slot is empty or a digit. -/
theorem plain_slotText (slot : Int) : Plain (if 0 < slot ∧ slot ≤ 9 then decimal slot else []) := by
  split
  · exact plain_decimal (by omega)
  · exact fun ch hch => absurd hch List.not_mem_nil

theorem plain_of_forall {w : Str} (h : (w.all fun ch => ch != ',' && ch != '\r') = true) :
    Plain w := by
  intro ch hch
  simpa using List.all_eq_true.mp h ch hch

theorem commandFields_bankText {lead : Str} (hlead : Plain lead) {bank start length : Int}
    (hvalid : validInput bank start length = true) :
    commandFields (lead ++ (bankText bank start length ++ ['\r'])) =
      [lead ++ 'R' :: decimal bank, decimal start, decimal length] := by
  obtain ⟨hbank, -, hstart, -, hlength, -⟩ := validInput_nonneg hvalid
  have hfirst : Plain (lead ++ 'R' :: decimal bank) :=
    hlead.append (Plain.append (u := ['R']) (plain_of_forall rfl) (plain_decimal hbank))
  have htext : lead ++ (bankText bank start length ++ ['\r']) =
      (lead ++ 'R' :: decimal bank) ++
        ',' :: (decimal start ++ ',' :: (decimal length ++ ['\r'])) := by
    simp [bankText]
  rw [htext, commandFields_cons hfirst, commandFields_cons (plain_decimal hstart),
    commandFields_last (plain_decimal (by omega))]

/-- A command that is printed into the buffer keeps its fields in front of the argument. -/
theorem commandFields_numbers {lead : Str} (hlead : Plain lead) {a b : Str} (ha : Plain a)
    (hb : Plain b) (rest : Str) :
    ∃ others, commandFields (lead ++ ',' :: (a ++ ',' :: (b ++ ',' :: rest))) =
      lead :: a :: b :: others := by
  rw [commandFields_cons hlead, commandFields_cons ha, commandFields_cons hb]
  exact ⟨_, rfl⟩

theorem plain_hexadecimal (n : Int) : Plain (hexadecimal n) :=
  plain_of_digits fun _ hch => value_lt_of_mem_toDigits (by omega) digitValue_digitChar hch

/-- What is printed first is not cut off. -/
theorem snprintf_append {lead : Str} (h : lead.length ≤ 1535) (rest : Str) :
    snprintf (lead ++ rest) = lead ++ rest.take (1535 - lead.length) := by
  rw [snprintf, List.take_append, List.take_of_length_le h]

theorem length_decimal {n : Int} (hn : 0 ≤ n) (hlt : n ≤ 0x3FFF) : (decimal n).length ≤ 5 := by
  obtain ⟨m, rfl⟩ := Int.eq_ofNat_of_zero_le hn
  rw [decimal_natCast]
  exact (Nat.length_toDigits_le_iff (by omega) (by omega)).mpr (by omega)

/-- What stands in front of the data of a write. -/
def writeLead (bank start length : Int) : Str :=
  "\nW".toList ++ decimal bank ++ ',' :: decimal start ++ ',' :: decimal length ++ [',']

theorem length_writeLead {bank start length : Int}
    (h : validInput bank start length = true) : (writeLead bank start length).length ≤ 20 := by
  obtain ⟨hbank, hbank', hstart, hstart', hlength, hlength'⟩ := validInput_nonneg h
  have hb := length_decimal hbank (by omega)
  have hs := length_decimal hstart (by omega)
  have hl := length_decimal (n := length) (by omega) (by omega)
  have hlead : "\nW".toList.length = 2 := rfl
  simp only [writeLead, List.length_append, List.length_cons, List.length_nil]
  omega

/-- A write is sent as its numbers, the data as far as they fit, and the carriage return if it
does. -/
theorem writeBank_text {bank start length : Int} {data szSend : Str}
    (h : (RfidInterface.writeBank bank start length data).sent = some szSend) :
    validInput bank start length = true ∧
      szSend = snprintf (writeLead bank start length ++ (cStr data ++ ['\r'])) := by
  rw [RfidInterface.writeBank] at h
  split at h
  · refine ⟨‹_›, (Option.some.inj h).symm.trans ?_⟩
    congr 1
    simp [writeLead]
  · exact absurd h.symm (Option.some_ne_none szSend)

/-- Start and length stand one behind the other, and are not negative. -/
theorem BankCommand.fields_of_sent {c : BankCommand} {szSend : Str}
    (h : c.sent = some szSend) :
    0 ≤ c.start ∧ 0 ≤ c.length ∧
      (commandFields szSend)[c.place]? = some (c.printed c.start) ∧
      (commandFields szSend)[c.place + 1]? = some (c.printed c.length) := by
  cases c with
  | readBank loop bank start length =>
      simp only [sent, RfidInterface.readBank] at h
      split at h
      · rename_i hvalid
        obtain ⟨-, -, hstart, -, hlength, -⟩ := validInput_nonneg hvalid
        refine ⟨hstart, Int.le_trans (by decide) hlength, ?_⟩
        cases loop with
        | true =>
            obtain rfl : "\n@".toList ++ (bankText bank start length ++ ['\r']) = szSend :=
              Option.some.inj h
            rw [commandFields_bankText (plain_of_forall rfl) hvalid]
            exact ⟨rfl, rfl⟩
        | false =>
            obtain rfl : ['\n'] ++ (bankText bank start length ++ ['\r']) = szSend :=
              Option.some.inj h
            rw [commandFields_bankText (plain_of_forall rfl) hvalid]
            exact ⟨rfl, rfl⟩
      · exact absurd h.symm (Option.some_ne_none szSend)
  | readMultiBank slot loop bank start length =>
      simp only [sent, RfidInterface.readMultiBank] at h
      split at h
      · rename_i hvalid
        obtain ⟨-, -, hstart, -, hlength, -⟩ := validInput_nonneg hvalid
        refine ⟨hstart, Int.le_trans (by decide) hlength, ?_⟩
        have hfields : ∀ lead : Str, Plain lead →
            lead ++ ((if 0 < slot ∧ slot ≤ 9 then decimal slot else []) ++
              ',' :: bankText bank start length ++ ['\r']) = szSend →
            commandFields szSend = [lead ++ (if 0 < slot ∧ slot ≤ 9 then decimal slot else []),
              'R' :: decimal bank, decimal start, decimal length] := by
          rintro lead hlead rfl
          have hrest := @commandFields_bankText [] (plain_of_forall rfl) _ _ _ hvalid
          have hcons := commandFields_cons (hlead.append (plain_slotText slot))
            (bankText bank start length ++ ['\r'])
          rw [List.nil_append, List.nil_append] at hrest
          rw [hrest] at hcons
          simpa using hcons
        cases loop with
        | true =>
            rw [hfields "\n@U".toList (plain_of_forall rfl) (Option.some.inj h)]
            exact ⟨rfl, rfl⟩
        | false =>
            rw [hfields "\nU".toList (plain_of_forall rfl) (Option.some.inj h)]
            exact ⟨rfl, rfl⟩
      · exact absurd h.symm (Option.some_ne_none szSend)
  | writeBank bank start length data =>
      obtain ⟨hvalid, rfl⟩ := writeBank_text h
      obtain ⟨hbank, -, hstart, -, hlength, -⟩ := validInput_nonneg hvalid
      have hlen := length_writeLead hvalid
      refine ⟨hstart, Int.le_trans (by decide) hlength, ?_⟩
      have hlead : Plain ("\nW".toList ++ decimal bank) :=
        Plain.append (plain_of_forall rfl) (plain_decimal hbank)
      obtain ⟨others, hfields⟩ := commandFields_numbers hlead (plain_decimal hstart)
        (plain_decimal (n := length) (by omega))
        ((cStr data ++ ['\r']).take (1535 - (writeLead bank start length).length))
      have htext : writeLead bank start length ++
          (cStr data ++ ['\r']).take (1535 - (writeLead bank start length).length) =
            ("\nW".toList ++ decimal bank) ++ ',' :: (decimal start ++ ',' ::
              (decimal length ++ ',' ::
                (cStr data ++ ['\r']).take (1535 - (writeLead bank start length).length))) := by
        simp [writeLead]
      rw [snprintf_append (by omega), htext, hfields]
      exact ⟨rfl, rfl⟩
  | selectTag bank start length pattern =>
      simp only [sent, RfidInterface.selectTag] at h
      split at h
      · rename_i hvalid
        obtain ⟨hbank, -, hstart, -, hlength, -⟩ := hvalid
        refine ⟨hstart, Int.le_trans (by decide) hlength, ?_⟩
        have hlead : Plain ("\nT".toList ++ decimal bank) :=
          Plain.append (plain_of_forall rfl) (plain_decimal hbank)
        obtain ⟨others, hfields⟩ := commandFields_numbers hlead (plain_hexadecimal start)
          (plain_hexadecimal length) (pattern ++ ['\r'])
        have htext : szSend = ("\nT".toList ++ decimal bank) ++ ',' :: (hexadecimal start ++ ',' ::
            (hexadecimal length ++ ',' :: (pattern ++ ['\r']))) := by
          refine (Option.some.inj h).symm.trans ?_
          simp
        rw [htext, hfields]
        exact ⟨rfl, rfl⟩
      · exact absurd h.symm (Option.some_ne_none szSend)

/-- The numbers of an accepted command are read back exactly if they are printed in hexadecimal
or have one digit each. -/
theorem bank_commands_hexadecimal_iff {c : BankCommand} {szSend : Str}
    (h : c.sent = some szSend) :
    c.KeepsNumbers szSend ↔ c.isSelect = true ∨ c.start ≤ 9 ∧ c.length ≤ 9 := by
  obtain ⟨hstart, hlength, hfirst, hsecond⟩ := BankCommand.fields_of_sent h
  have hkeeps : c.KeepsNumbers szSend ↔
      ReadsAs (c.printed c.start) c.start ∧ ReadsAs (c.printed c.length) c.length := by
    rw [BankCommand.KeepsNumbers, hfirst, hsecond]
    simp only [Option.some.injEq, exists_eq_left']
  rw [hkeeps, BankCommand.printed]
  cases hselect : c.isSelect with
  | true =>
      rw [if_pos rfl]
      exact iff_of_true ⟨readsAs_hexadecimal hstart, readsAs_hexadecimal hlength⟩ (.inl rfl)
  | false =>
      rw [if_neg Bool.false_ne_true, or_iff_right Bool.false_ne_true]
      exact and_congr (readsAs_decimal_iff hstart) (readsAs_decimal_iff hlength)

/-- A read of bank 3 from word 16 on. -/
theorem bank_commands_hexadecimal_readBank :
    (BankCommand.readBank false 3 16 8).KeepsNumbers "\nR3,16,8\r".toList ↔
      (BankCommand.readBank false 3 16 8).isSelect = true ∨
        (BankCommand.readBank false 3 16 8).start ≤ 9 ∧
          (BankCommand.readBank false 3 16 8).length ≤ 9 :=
  bank_commands_hexadecimal_iff (by rfl)

/-- The start 16 is printed as `16`, which the reader reads as 22; the selection prints it as
`10`. -/
theorem start_read_as_other_number :
    (BankCommand.readBank false 3 16 8).sent = some "\nR3,16,8\r".toList ∧
      (BankCommand.selectTag 3 16 8 []).sent = some "\nT3,10,8,\r".toList ∧
      ¬ (BankCommand.readBank false 3 16 8).KeepsNumbers "\nR3,16,8\r".toList := by
  refine ⟨rfl, rfl, ?_⟩
  rintro ⟨⟨field, hfield, -, -, hvalue⟩, -⟩
  obtain rfl : "16".toList = field := Option.some.inj hfield
  exact absurd hvalue (by decide)

/-- The commands whose text ends with a text of the caller. -/
inductive TextCommand where
  | single
  | password
  | writeBank (bank start length : Int)

namespace TextCommand

/-- What stands in front of the caller's text: a line feed and the command's own text. -/
def lead : TextCommand → Str
  | single => ['\n']
  | password => "\nP".toList
  | writeBank bank start length => writeLead bank start length

/-- The bytes that are handed to `Send`. -/
def sent (s : Str) : TextCommand → Option Str
  | single => (singleCommand s).sent
  | password => (RfidInterface.password s).sent
  | writeBank bank start length => (RfidInterface.writeBank bank start length s).sent

/-- The numbers are accepted. -/
def Accepted : TextCommand → Prop
  | writeBank bank start length => validInput bank start length = true
  | _ => True

/-- All of the text is sent, between the line feed and the carriage return. -/
def Complete (c : TextCommand) (s : Str) : Prop := c.sent s = some (c.lead ++ s ++ ['\r'])

end TextCommand

/-- Printing keeps the text exactly if it has no zero and fits in the buffer. -/
theorem snprintf_complete_iff (lead s : Str) :
    snprintf (lead ++ (cStr s ++ ['\r'])) = lead ++ s ++ ['\r'] ↔
      '\x00' ∉ s ∧ lead.length + s.length < 1535 := by
  have hpart : (cStr s).length ≤ s.length := (List.takeWhile_prefix _).length_le
  constructor
  · intro h
    have hlen := congrArg List.length h
    rw [snprintf, List.length_take] at hlen
    simp only [List.length_append, List.length_singleton] at hlen
    have hall : cStr s = s := List.IsPrefix.eq_of_length (List.takeWhile_prefix _) (by omega)
    refine ⟨fun hzero => ?_, by omega⟩
    rw [← hall] at hzero
    exact absurd (List.mem_takeWhile_imp hzero) (by decide)
  · rintro ⟨hzero, hfits⟩
    rw [cStr_eq_self hzero, snprintf_eq_self, List.append_assoc]
    simp only [List.length_append, List.length_singleton]
    omega

/-- What is sent is printed into the buffer. -/
theorem TextCommand.sent_eq {c : TextCommand} (h : c.Accepted) (s : Str) :
    c.sent s = some (snprintf (c.lead ++ (cStr s ++ ['\r']))) := by
  cases c with
  | single => rfl
  | password => exact congrArg (fun text => some (snprintf text)) (List.append_assoc _ _ _)
  | writeBank bank start length =>
      have hvalid : validInput bank start length = true := h
      have htext : (RfidInterface.writeBank bank start length s).sent ≠ none := by
        rw [RfidInterface.writeBank, if_pos hvalid]
        exact Option.some_ne_none _
      obtain ⟨szSend, hsent⟩ := Option.ne_none_iff_exists'.mp htext
      exact hsent.trans (congrArg some (writeBank_text hsent).2)

/-- A command is sent whole exactly if its text has no zero and the frame fits in the buffer. -/
theorem frames_complete_iff {c : TextCommand} (h : c.Accepted) (s : Str) :
    c.Complete s ↔ '\x00' ∉ s ∧ c.lead.length + s.length < 1535 := by
  rw [TextCommand.Complete, TextCommand.sent_eq h, Option.some.injEq]
  exact snprintf_complete_iff c.lead s

/-- A write of six words. -/
theorem frames_complete_writeBank :
    (TextCommand.writeBank 1 2 6).Complete "300833B2DDD9014000000000".toList ↔
      '\x00' ∉ "300833B2DDD9014000000000".toList ∧
        (TextCommand.writeBank 1 2 6).lead.length +
          "300833B2DDD9014000000000".toList.length < 1535 :=
  frames_complete_iff (c := .writeBank 1 2 6) (rfl : validInput 1 2 6 = true) _

/-- A text with a zero in it is cut off at the zero, and one of 1534 characters loses its carriage
return. -/
theorem long_command_truncated :
    ¬ TextCommand.single.Complete ['V', '\x00', '1'] ∧
      (singleCommand (List.replicate 1534 'A')).sent = some ('\n' :: List.replicate 1534 'A') ∧
      ¬ TextCommand.single.Complete (List.replicate 1534 'A') := by
  have hcomplete : ∀ s, TextCommand.single.Complete s →
      '\x00' ∉ s ∧ ['\n'].length + s.length < 1535 := by
    intro s h
    exact (snprintf_complete_iff ['\n'] s).mp (Option.some.inj h)
  refine ⟨fun h => ?_, ?_, fun h => ?_⟩
  · exact (hcomplete _ h).1 (by decide)
  · have hzero : '\x00' ∉ List.replicate 1534 'A' := fun hmem =>
      absurd (List.eq_of_mem_replicate hmem) (by decide)
    have hprinted : snprintf ('\n' :: cStr (List.replicate 1534 'A') ++ ['\r']) =
        '\n' :: List.replicate 1534 'A' := by
      rw [cStr_eq_self hzero, snprintf, List.take_left']
      rw [List.length_cons, List.length_replicate]
    exact congrArg some hprinted
  · have hfits := (hcomplete _ h).2
    rw [List.length_replicate] at hfits
    exact absurd hfits (by decide)

end RfidEngine.RfidInterface
