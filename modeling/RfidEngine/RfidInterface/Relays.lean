import RfidEngine.Lib.Numerals
import RfidEngine.RfidInterface.Response

/-!
# RfidInterface: the output relays

`GetGPO` searches the response for the text `@OutputRelays` and reads the
digits behind it, the first relay in the lowest bit. Its result is a `bool`
made of a result code, and no result code is zero.
-/

namespace RfidEngine.RfidInterface

open BacktrackRegex

def rfPtReqReadOutputRelay : Nat := 0x30

def textOutputRelays : Str := "@OutputRelays".toList

/-- `@OutputRelays(\d*)` -/
def rgxOutputRelays : Regex Char := .seq (.lit textOutputRelays) (.group 1 (.many isDigit))

/-- The conversion of a result code to `bool`. -/
def boolOfCode (code : Int) : Bool := code != 0

/-- The number of a text of binary digits in a byte, the first digit in the lowest bit. -/
def relayBits (bitsStr : Str) : UInt8 := UInt8.ofInt (strtol bitsStr.reverse 2)

/-- The result and what is in `bits` behind the call. -/
def getGPO (bits : UInt8) : Exchange (Bool × UInt8) :=
  .send rfPtReqReadOutputRelay (snprintf "\n@OutputRelays\r".toList) fun _ response =>
    match search rgxOutputRelays response with
    | some sm => (boolOfCode rfidOk, relayBits (Captures.str sm.caps 1))
    | none => (boolOfCode rfidErrSend, bits)

/-- Somewhere in the response a digit follows the text. -/
def HasRelayDigit (response : Str) : Prop :=
  ∃ lead digit tail, response = lead ++ (textOutputRelays ++ digit :: tail) ∧ isDigit digit = true

def relayDigit (isOn : Bool) : Char := if isOn then '1' else '0'

/-- A response with the states of relays behind the first place of the text, and no digit
behind them. -/
def ReportsRelays (response : Str) (relays : List Bool) : Prop :=
  ∃ lead tail, response = lead ++ (textOutputRelays ++ (relays.map relayDigit ++ tail)) ∧
    ¬ textOutputRelays <:+: lead ∧ ∀ ch, tail.head? = some ch → isDigit ch = false

/-- The call reports success exactly for a response that has digits, with up to eight relays in
their bits and no other bit set; where it reports failure it leaves the bits as they were. -/
structure ReportedFaithfully (bits : UInt8) (nSend : Int) (response : Str) : Prop where
  success : ((getGPO bits).after nSend response).1 = true ↔ HasRelayDigit response
  relays : ((getGPO bits).after nSend response).1 = true →
    ∀ relays, ReportsRelays response relays → relays.length ≤ 8 →
      ∀ k, ((getGPO bits).after nSend response).2.toNat.testBit k = relays.getD k false
  failure : ((getGPO bits).after nSend response).1 = false →
    ((getGPO bits).after nSend response).2 = bits

theorem digitValue_relayDigit (isOn : Bool) : digitValue (relayDigit isOn) = isOn.toNat := by
  cases isOn <;> rfl

theorem isDigit_relayDigit (isOn : Bool) : isDigit (relayDigit isOn) = true := by
  cases isOn <;> rfl

/-- Up to eight relays come out in the bits of the byte. -/
theorem testBit_relayBits {relays : List Bool} (hlen : relays.length ≤ 8) (k : Nat) :
    (relayBits (relays.map relayDigit)).toNat.testBit k = relays.getD k false := by
  have hbinary : ∀ ch ∈ (relays.map relayDigit).reverse, digitValue ch < 2 := by
    intro ch hch
    obtain ⟨isOn, -, rfl⟩ := List.mem_map.mp (List.mem_reverse.mp hch)
    rw [digitValue_relayDigit]
    exact isOn.toNat_lt
  have hvalues : ((relays.map relayDigit).reverse.map digitValue).reverse =
      relays.map Bool.toNat := by
    rw [← List.map_reverse, List.reverse_reverse, List.map_map]
    exact List.map_congr_left fun isOn _ => digitValue_relayDigit isOn
  have hlt : Nat.ofDigits 2 (relays.map Bool.toNat) < 256 := by
    have hdigits : ∀ d ∈ relays.map Bool.toNat, d < 2 := by
      intro d hd
      obtain ⟨isOn, -, rfl⟩ := List.mem_map.mp hd
      exact isOn.toNat_lt
    calc Nat.ofDigits 2 (relays.map Bool.toNat)
        < 2 ^ (relays.map Bool.toNat).length :=
          Nat.ofDigits_lt_base_pow_length (by omega) hdigits
      _ ≤ 2 ^ 8 := Nat.pow_le_pow_right (by omega) (by simpa using hlen)
  have hread : strtol (relays.map relayDigit).reverse 2 =
      (Nat.ofDigits 2 (relays.map Bool.toNat) : Nat) := by
    rw [strtol_of_digits (by omega) hbinary, hvalues]
    unfold longMax
    omega
  have hbyte : (relayBits (relays.map relayDigit)).toNat =
      Nat.ofDigits 2 (relays.map Bool.toNat) := by
    rw [relayBits, hread, UInt8.ofInt]
    simp
    omega
  rw [hbyte, Numerals.testBit_ofDigits]

/-- The text begins with its only `@`: a place of it that begins in front of another ends there
too. -/
theorem not_prefix_of_lead {lead rest : Str} (hlead : ¬ textOutputRelays <:+: lead) {v : Str}
    (hv : v <:+ lead) (hne : v ≠ []) : ¬ textOutputRelays <+: v ++ (textOutputRelays ++ rest) := by
  intro hplace
  have hcut := List.prefix_or_prefix_of_prefix hplace (List.prefix_append v _)
  cases hcut with
  | inl hinside => exact hlead (hinside.isInfix.trans hv.isInfix)
  | inr hacross =>
      obtain ⟨w, hw⟩ := hacross
      have hrest : w <+: textOutputRelays ++ rest := by
        rw [← List.prefix_append_right_inj v, hw]
        exact hplace
      cases w with
      | nil =>
          rw [List.append_nil] at hw
          exact hlead (hw ▸ hv.isInfix)
      | cons ch w =>
          have hch : ch = '@' := (List.cons_prefix_cons.mp hrest).1
          have hmem : '@' ∈ textOutputRelays.tail := by
            rw [← hw, List.tail_append_of_ne_nil hne, ← hch]
            exact List.mem_append_right _ List.mem_cons_self
          exact absurd hmem (by decide)

/-- A match begins only where the text does. -/
theorem dead_of_not_prefix {s : Str} (h : ¬ textOutputRelays <+: s) : Dead rgxOutputRelays s := by
  rintro b w t c rfl hd
  obtain ⟨w', rfl, -⟩ := (derives_seq_lit_iff _ _ b w t c).mp hd
  exact h (by simp [List.append_assoc])

/-- The search stops at the first place of the text and captures all digits behind it. -/
theorem search_rgxOutputRelays {lead digits tail : Str} (hlead : ¬ textOutputRelays <:+: lead)
    (hdigits : ∀ ch ∈ digits, isDigit ch = true)
    (htail : ∀ ch, tail.head? = some ch → isDigit ch = false) :
    search rgxOutputRelays (lead ++ (textOutputRelays ++ (digits ++ tail))) =
      some ⟨lead, textOutputRelays ++ digits, tail, [(1, digits)]⟩ := by
  obtain ⟨b, hskip⟩ := @searchFrom_append_of_dead _ rgxOutputRelays lead
    (textOutputRelays ++ (digits ++ tail))
    (fun v hv hne => dead_of_not_prefix (not_prefix_of_lead hlead hv hne)) true
  have hfirst : (attempts rgxOutputRelays b (textOutputRelays ++ (digits ++ tail))).head? =
      some ⟨textOutputRelays ++ digits, tail, [(1, digits)]⟩ :=
    first_seq (takesFirst_lit textOutputRelays b _) (first_group (first_many hdigits htail))
  rw [search, hskip, searchFrom_of_first hfirst]
  simp [Found.shift]

/-- No result code is a false one. -/
theorem getGPO_reports_success (bits : UInt8) (nSend : Int) (response : Str) :
    ((getGPO bits).after nSend response).1 = true := by
  simp only [getGPO, Exchange.after]
  cases search rgxOutputRelays response with
  | some sm => rfl
  | none => rfl

theorem getGPO_relays (bits : UInt8) (nSend : Int) {response : Str} {relays : List Bool}
    (h : ReportsRelays response relays) :
    ((getGPO bits).after nSend response).2 = relayBits (relays.map relayDigit) := by
  obtain ⟨lead, tail, rfl, hlead, htail⟩ := h
  have hdigits : ∀ ch ∈ relays.map relayDigit, isDigit ch = true := by
    intro ch hch
    obtain ⟨isOn, -, rfl⟩ := List.mem_map.mp hch
    exact isDigit_relayDigit isOn
  simp only [getGPO, Exchange.after, search_rgxOutputRelays hlead hdigits htail]
  rfl

/-- The relays are reported faithfully exactly for a response that has a digit behind the text:
what fails is the report of a failed read. -/
theorem getGPO_faithful_iff (bits : UInt8) (nSend : Int) (response : Str) :
    ReportedFaithfully bits nSend response ↔ HasRelayDigit response := by
  have hsuccess := getGPO_reports_success bits nSend response
  constructor
  · intro h
    exact h.success.mp hsuccess
  · intro hdigit
    refine ⟨iff_of_true hsuccess hdigit, fun _ relays hreports hlen k => ?_, fun hfailure => ?_⟩
    · rw [getGPO_relays bits nSend hreports]
      exact testBit_relayBits hlen k
    · rw [hsuccess] at hfailure
      exact absurd hfailure (by decide)

/-- A read without a response is reported as a success, with the bits that were there before. -/
theorem getGPO_silent :
    (getGPO 5).after (-1) [] = (true, 5) ∧ ¬ ReportedFaithfully 5 (-1) [] := by
  have hresult : (getGPO 5).after (-1) [] = (true, 5) := by decide +kernel
  refine ⟨hresult, fun h => ?_⟩
  obtain ⟨lead, digit, tail, hempty, -⟩ := h.success.mp (congrArg Prod.fst hresult)
  exact absurd hempty (by simp)

end RfidEngine.RfidInterface
