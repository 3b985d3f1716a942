import RfidEngine.RfidInterface.SetterReplies

/-!
# RfidInterface: the power

`SetPower` asks for the version, looks the model up in the table of ranges and
sends a power in hexadecimal. The bound from below is computed and overwritten
by the bound from above.

## Main results

The requests whose power is in the model's range: those of a model without a
range, and those that are not below it. What is sent is read back as it is.
-/

namespace RfidEngine.RfidInterface

def rfPtReqSetPowerLevel : Nat := 0x0D

def getVersion (stVersion : RfidReaderVersion) : Exchange (Option (Int × RfidReaderVersion)) :=
  .send rfPtReqGetFirmwareVersion (snprintf "\nV\r".toList) fun _ response =>
    if response.length > 0 then parseVersion response stVersion
    else some (rfidErrNoResponse, stVersion)

/-- The number in a power text. -/
def powerValue (strValue : Str) : Int := longToInt (strtol strValue 16)

def parseSetPower (lpBuffer : Str) (pnResult : Int) : Option (Bool × Int) := do
  let strContent ← getContent lpBuffer
  match ← commandValue strContent with
  | some strValue => some (true, powerValue strValue)
  | none => some (false, pnResult)

/-- The conversion `%02X` of an `int`. -/
def powerText (nPower : Int) : Str := (upperHex (toUnsigned nPower)).leftpad 2 '0'

/-- The command behind the query of the version, with the power as it is regulated. -/
def sendPower (nPower pnResult : Int) : Exchange (Option Int) :=
  .send rfPtReqSetPowerLevel (snprintf ("\nN1,".toList ++ powerText nPower ++ ['\r']))
    fun _ response => setterReply (parseSetPower · pnResult) (fun nResult => nPower = nResult)
      rfidErrNoResponse response

/-- The first exchange is that of `GetVersion`; the second depends on the firmware it stores. -/
def setPower (versionInfo : RfidReaderVersion) (nPower pnResult : Int) :
    Exchange (Option (Exchange (Option Int))) :=
  .send rfPtReqGetFirmwareVersion (snprintf "\nV\r".toList) fun nSend response => do
    let (fResult, versionInfo) ← (getVersion versionInfo).after nSend response
    some (if fResult = rfidOk then
        sendPower (regulatePower versionInfo.strFirmware nPower) pnResult
      else .done (some fResult))

/-- The power keeps to the range of the model, a request in range is left as it is, and the text
of the power is read back as it. -/
structure PowerRespected (firmware : Str) (nPower p : Int) : Prop where
  range : ∀ lo hi, powerRangeTable.lookup (firmware.take 2) = some (lo, hi) →
    lo ≤ p ∧ p ≤ hi ∧ (lo ≤ nPower → nPower ≤ hi → p = nPower)
  unlisted : powerRangeTable.lookup (firmware.take 2) = none → p = defaultSetPowerValue
  readBack : powerValue (powerText p) = p

/-- The request is not below the range of the model. -/
def NotBelow (firmware : Str) (nPower : Int) : Prop :=
  ∀ lo hi, powerRangeTable.lookup (firmware.take 2) = some (lo, hi) → lo ≤ nPower

theorem longToInt_eq_self {n : Int} (hlow : -2147483648 ≤ n) (hhigh : n ≤ intMax) :
    longToInt n = n := by
  unfold longToInt intMax at *
  rw [Int.bmod_def]
  split <;> omega

/-- An `int` that is printed in hexadecimal is read back, below zero too. -/
theorem powerValue_powerText {p : Int} (hlow : -2147483648 ≤ p) (hhigh : p ≤ intMax) :
    powerValue (powerText p) = p := by
  obtain ⟨hdigits, hvalue⟩ := leftpad_upperHex 2 (toUnsigned p)
  have hread : strtol (powerText p) 16 = toUnsigned p := by
    have hstrtol : strtol (powerText p) 16 = min longMax (hexValue (powerText p)) :=
      strtol_of_digits (by decide) hdigits
    rw [hstrtol, powerText, hvalue]
    unfold toUnsigned longMax
    omega
  have hint : toInt (toUnsigned p) = p :=
    (toInt_toUnsigned p).trans (longToInt_eq_self hlow hhigh)
  rw [powerValue, hread]
  exact hint

/-- Every range of the table is one of small numbers. -/
theorem le_of_lookup {key : Str} {lo hi : Int}
    (h : powerRangeTable.lookup key = some (lo, hi)) : lo ≤ hi ∧ -2 ≤ hi ∧ hi ≤ 29 := by
  have hall : ∀ entry ∈ powerRangeTable, entry.2.1 ≤ entry.2.2 ∧ -2 ≤ entry.2.2 ∧
      entry.2.2 ≤ 29 := by
    decide
  obtain ⟨k, hk⟩ : ∃ k, (k, (lo, hi)) ∈ powerRangeTable := by
    obtain ⟨front, back, heq, -⟩ := List.lookup_eq_some_iff.mp h
    exact ⟨key, heq ▸ List.mem_append_right front List.mem_cons_self⟩
  exact hall _ hk

/-- The power that is sent is an `int`. -/
theorem regulatePower_int (firmware : Str) {nPower : Int} (hlow : -2147483648 ≤ nPower) :
    -2147483648 ≤ regulatePower firmware nPower ∧ regulatePower firmware nPower ≤ intMax := by
  unfold regulatePower
  cases hlookup : powerRangeTable.lookup (firmware.take 2) with
  | none => exact (by decide : -2147483648 ≤ defaultSetPowerValue ∧ defaultSetPowerValue ≤ intMax)
  | some range =>
      obtain ⟨-, hhi, hle⟩ := @le_of_lookup _ range.1 range.2 hlookup
      refine ⟨le_min hlow (by omega), (min_le_right _ _).trans ?_⟩
      unfold intMax
      omega

/-- The power is respected exactly for the requests that are not below the model's range. -/
theorem powerRespected_iff (firmware : Str) {nPower : Int} (hlow : -2147483648 ≤ nPower) :
    PowerRespected firmware nPower (regulatePower firmware nPower) ↔ NotBelow firmware nPower := by
  obtain ⟨hfloor, hceil⟩ := regulatePower_int firmware hlow
  have hreadBack := powerValue_powerText hfloor hceil
  constructor
  · intro h lo hi hlookup
    obtain ⟨hlo, -, -⟩ := h.range lo hi hlookup
    rw [regulatePower, hlookup] at hlo
    exact hlo.trans (min_le_left _ _)
  · intro h
    refine ⟨fun lo hi hlookup => ?_, fun hlookup => ?_, hreadBack⟩
    · obtain ⟨hrange, -, -⟩ := le_of_lookup hlookup
      rw [regulatePower, hlookup]
      exact ⟨le_min (h lo hi hlookup) hrange, min_le_right _ _, fun _ hle => min_eq_left hle⟩
    · rw [regulatePower, hlookup]

/-- Where the version is known, the power for its firmware is sent, whole. -/
theorem setPower_sends {versionInfo version : RfidReaderVersion} {nSend : Int} {response : Str}
    (hversion : (getVersion versionInfo).after nSend response = some (rfidOk, version))
    (nPower pnResult : Int) :
    ∃ command, (setPower versionInfo nPower pnResult).after nSend response = some command ∧
      command.sent = some ("\nN1,".toList ++
        powerText (regulatePower version.strFirmware nPower) ++ ['\r']) := by
  refine ⟨sendPower (regulatePower version.strFirmware nPower) pnResult, ?_, ?_⟩
  · have hafter : (setPower versionInfo nPower pnResult).after nSend response =
        ((getVersion versionInfo).after nSend response).bind fun (fResult, versionInfo) =>
          some (if fResult = rfidOk then
            sendPower (regulatePower versionInfo.strFirmware nPower) pnResult
          else .done (some fResult)) := rfl
    rw [hafter, hversion]
    exact congrArg some (if_pos rfl)
  · apply congrArg some
    apply snprintf_eq_self
    have hlen := length_leftpad_upperHex (k := 2) (by omega)
      (toUnsigned_lt (regulatePower version.strFirmware nPower))
    rw [List.length_append, List.length_append, powerText, List.length_singleton]
    have hlead : "\nN1,".toList.length = 4 := rfl
    omega

/-- Every power that is sent respects the model's range exactly if the request is not below it,
and this is the power that `SetPower` sends. -/
theorem power_in_range_iff {nPower : Int} (hlow : -2147483648 ≤ nPower) :
    (∀ firmware, PowerRespected firmware nPower (regulatePower firmware nPower) ↔
        NotBelow firmware nPower) ∧
      ∀ versionInfo version nSend response,
        (getVersion versionInfo).after nSend response = some (rfidOk, version) → ∀ pnResult,
          ∃ command, (setPower versionInfo nPower pnResult).after nSend response = some command ∧
            command.sent = some ("\nN1,".toList ++
              powerText (regulatePower version.strFirmware nPower) ++ ['\r']) :=
  ⟨fun firmware => powerRespected_iff firmware hlow,
    fun _ _ _ _ hversion pnResult => setPower_sends hversion nPower pnResult⟩

/-- Power 20 is in the range of the model `D4`. -/
theorem power_in_range_d4 :
    PowerRespected "D407".toList 20 (regulatePower "D407".toList 20) ↔
      NotBelow "D407".toList 20 :=
  (@power_in_range_iff 20 (by decide)).1 "D407".toList

/-- Power 1 is below the range of the model `D4`, and is sent. -/
theorem low_power_sent :
    (setPower ⟨[], [], [], [], []⟩ 1 0).after 1
        ('@' :: sampleStampedHead.content sampleVersion.text) = some (sendPower 1 0) ∧
      (sendPower 1 0).sent = some "\nN1,01\r".toList ∧
      ¬ PowerRespected "D407".toList 1 (regulatePower "D407".toList 1) := by
  refine ⟨rfl, rfl, fun h => ?_⟩
  obtain ⟨hlo, -, -⟩ := h.range 2 29 rfl
  exact absurd hlo (by decide)

end RfidEngine.RfidInterface
