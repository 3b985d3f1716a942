import RfidEngine.LifeCycle
import RfidEngine.RfidInterface.Power
import RfidEngine.Statistics.Model

/-!
# RfidInterface: the constructor

The constructor keeps the settings, starts the service and copies the reader's
identifier out of the version into the settings. The query of the version
stands behind the `throw` of the failed start, in the same block, so that no
run of the constructor sends it.

## Main results

An interface that is built has an empty identifier, and so does every record
counted on it, whatever the settings say and whatever the reader would reply.
-/

namespace RfidEngine.RfidInterface

open CharArray

structure ReaderSettings where
  type : ReaderSettingsType
  ipv4 : CharArray Int 4
  ipv6 : CharArray Int 6
  devName : CharArray Char 20
  port : Int
  power : Int
  loopTime : Int
  antenna : Int
  readerId : CharArray Char readerIdLen
  deriving DecidableEq

/-- The members of `RfidInterface` that its constructor writes, with the settings that
`conn_queue` keeps for itself. -/
structure Members where
  readerSettings : ReaderSettings
  connQueueSettings : ReaderSettings
  versionInfo : RfidReaderVersion

/-- The exceptions that leave the constructor: its own, and that of `at` in a parser. -/
inductive Thrown where
  | runtimeError (what : Str)
  | outOfRange
  deriving DecidableEq

/-- What the constructor meets: whether the service starts with given settings, what `Send` gives
back for the query of the version, and what lies in memory behind the identifier. -/
structure Surroundings where
  startService : ReaderSettings → Bool
  nSend : Int
  response : Str
  behind : CharArray Char readerIdLen

abbrev Construct := StateT Members (Except Thrown)

variable (env : Surroundings)

def setReaderSettings (readerSettings : ReaderSettings) : Construct Unit :=
  modify fun m => { m with readerSettings := readerSettings }

def connQueueSetReaderSettings (rSettings : ReaderSettings) : Construct Unit :=
  modify fun m => { m with connQueueSettings := rSettings }

def startService : Construct Bool := return env.startService (← get).connQueueSettings

/-- `GetVersion(version_info)` -/
def getVersionInfo : Construct Int := do
  match (getVersion (← get).versionInfo).after env.nSend env.response with
  | some (fResult, versionInfo) =>
      modify fun m => { m with versionInfo := versionInfo }
      return fResult
  | none => throw .outOfRange

def copyReaderId : Construct Unit :=
  modify fun m => { m with
    readerSettings := { m.readerSettings with
      readerId := memcpy nul m.versionInfo.strReaderId env.behind } }

/-- The body of the constructor; the block of the failed start goes on behind its `throw`. -/
def rfidInterface (readerSettings : ReaderSettings) : Construct Unit := do
  setReaderSettings readerSettings
  connQueueSetReaderSettings readerSettings
  if !(← startService env) then
    throw (.runtimeError "connection error".toList)
    if (← getVersionInfo env) ≠ rfidOk then
      throw (.runtimeError "get version error".toList)
  copyReaderId env

/-- The members before the body: the strings of the version are empty, the settings are not
initialised. -/
def Members.initial (unset : ReaderSettings) : Members := ⟨unset, unset, ⟨[], [], [], [], []⟩⟩

/-- The members of an interface that is built, or the exception. -/
def construct (unset readerSettings : ReaderSettings) : Except Thrown Members :=
  ((rfidInterface env readerSettings).run (.initial unset)).map Prod.snd

/-- `string reader_id = reader_settings.reader_id`, with what follows the array in memory. -/
def Members.readerId (m : Members) (back : Str) : ReaderId where
  text := text nul (m.readerSettings.readerId.cells ++ back)
  no_nul := not_mem_text nul _

/-- A reply to the command `V` with the fields of a version. -/
structure VersionReply where
  response : Str
  fields : VersionFields
  layout : (∃ h : StampedHead, contentOf response = h.content fields.text) ∨
    contentOf response = fields.text

/-- The identifier of a reply as far as the array of the settings holds it. -/
def VersionReply.readerId (reply : VersionReply) : Str :=
  (reply.fields.readerId : Str).take (readerIdLen - 1)

/-- The identifier of the reply is in the settings and in every record counted on the handle. -/
structure CarriesReaderId (reply : VersionReply) (m : Members) : Prop where
  settings : text nul m.readerSettings.readerId.cells = reply.readerId
  records : ∀ back rule readerResult stats,
    doStatisticHelper (m.readerId back) rule readerResult = some stats →
    ∀ item ∈ stats, text nul item.readerID.cells = reply.readerId

theorem bind_of_ok {α β : Type} {x : Construct α} {m m' : Members} {a : α}
    (hx : x m = .ok (a, m')) (f : α → Construct β) : (x >>= f) m = f a m' := by
  change (x m).bind (fun r => f r.1 r.2) = f a m'
  rw [hx]
  rfl

theorem bind_of_error {α β : Type} {x : Construct α} {m : Members} {e : Thrown}
    (hx : x m = .error e) (f : α → Construct β) : (x >>= f) m = .error e := by
  change (x m).bind (fun r => f r.1 r.2) = .error e
  rw [hx]
  rfl

theorem startService_eq (m : Members) :
    startService env m = .ok (env.startService m.connQueueSettings, m) := rfl

/-- The members with the empty identifier of the initial version copied. -/
def built (readerSettings : ReaderSettings) : Members where
  readerSettings := { readerSettings with readerId := memcpy nul [] env.behind }
  connQueueSettings := readerSettings
  versionInfo := ⟨[], [], [], [], []⟩

/-- The service starts and the empty identifier is copied, or the first exception is thrown. -/
theorem construct_eq (unset readerSettings : ReaderSettings) :
    construct env unset readerSettings =
      if env.startService readerSettings then .ok (built env readerSettings)
      else .error (.runtimeError "connection error".toList) := by
  rw [construct, StateT.run, rfidInterface, bind_of_ok rfl, bind_of_ok rfl,
    bind_of_ok (startService_eq env _)]
  cases env.startService readerSettings with
  | true =>
      rw [if_neg (by simp)]
      rfl
  | false =>
      -- the rest of the block, with the query of the version, is behind the first `throw`
      rw [if_pos (by simp), bind_of_error rfl]
      rfl

theorem text_empty_copy (behind : CharArray Char readerIdLen) (back : Str) :
    text nul ((memcpy nul [] behind).cells ++ back) = [] :=
  text_memcpy_of_lt List.not_mem_nil (by decide) behind back

theorem readerSettings_of_construct {unset readerSettings : ReaderSettings} {m : Members}
    (h : construct env unset readerSettings = .ok m) :
    m.readerSettings.readerId = memcpy nul [] env.behind := by
  rw [construct_eq] at h
  split at h
  · rw [← Except.ok.inj h, built]
  · exact absurd h (by simp)

/-- A record's identifier is copied when it is opened and never written again. -/
theorem doStatistic_readerID {id : ReaderId} {rule : StatisticsRule}
    {stats stats' : List EpcStatistics} {x : Read}
    (hid : ∀ item ∈ stats, ∃ behind, item.readerID = memcpy nul id.text behind)
    (h : doStatistic id rule stats x = some stats') :
    ∀ item ∈ stats', ∃ behind, item.readerID = memcpy nul id.text behind := by
  obtain ⟨-, rfl⟩ | ⟨antenna, -, -, ⟨-, rfl⟩ | ⟨hp, -, rfl⟩⟩ := doStatistic_cases h
  · exact hid
  · intro item hitem
    rw [List.mem_append, List.mem_singleton] at hitem
    obtain hold | rfl := hitem
    · exact hid item hold
    · exact ⟨x.behind.readerID, rfl⟩
  · intro item hitem
    obtain ⟨k, hk, rfl⟩ := List.mem_iff_getElem.mp hitem
    rw [List.length_modify] at hk
    obtain ⟨behind, hbehind⟩ := hid _ (List.getElem_mem hk)
    refine ⟨behind, ?_⟩
    rw [List.getElem_modify]
    split
    · rw [countRead_eq]
      exact hbehind
    · exact hbehind

theorem doStatisticHelper_readerID {id : ReaderId} {rule : StatisticsRule}
    {readerResult : List Read} {stats : List EpcStatistics}
    (h : doStatisticHelper id rule readerResult = some stats) :
    ∀ item ∈ stats, ∃ behind, item.readerID = memcpy nul id.text behind := by
  have hnone : ∀ item ∈ ([] : List EpcStatistics),
      ∃ behind, item.readerID = memcpy nul id.text behind :=
    fun item hitem => absurd hitem List.not_mem_nil
  exact StepSystem.exec_invariant
    (I := fun stats => ∀ item ∈ stats, ∃ behind, item.readerID = memcpy nul id.text behind)
    (fun _ _ _ hid hstep => doStatistic_readerID hid hstep) hnone h

/-- An interface that is built carries the identifier of a reply exactly when that is empty: the
query of the version is never sent. -/
theorem readerId_carried_iff {unset readerSettings : ReaderSettings} {m : Members}
    (reply : VersionReply)
    (h : construct { env with response := reply.response } unset readerSettings = .ok m) :
    CarriesReaderId reply m ↔ (reply.fields.readerId : Str) = [] := by
  have hcopy := readerSettings_of_construct _ h
  have hsettings : text nul m.readerSettings.readerId.cells = [] := by
    have hempty := text_empty_copy env.behind []
    rwa [List.append_nil, ← hcopy] at hempty
  constructor
  · intro hcarries
    have htake : (reply.fields.readerId : Str).take (readerIdLen - 1) = [] :=
      hcarries.settings.symm.trans hsettings
    exact (List.take_eq_nil_iff.mp htake).resolve_left (by decide)
  · intro hid
    have hreply : reply.readerId = [] := by rw [VersionReply.readerId, hid, List.take_nil]
    refine ⟨hsettings.trans hreply.symm, fun back rule readerResult stats hstats item hitem => ?_⟩
    obtain ⟨behind, hbehind⟩ := doStatisticHelper_readerID hstats item hitem
    have hreaderId : (m.readerId back).text = [] := by
      change text nul (m.readerSettings.readerId.cells ++ back) = []
      rw [hcopy]
      exact text_empty_copy env.behind back
    have hrecord := text_empty_copy behind []
    rw [List.append_nil] at hrecord
    rw [hbehind, hreaderId, hreply, hrecord]

/-- A version without an identifier. -/
def namelessVersion : VersionFields :=
  { sampleVersion with readerId := FieldText.mk [] List.not_mem_nil List.not_mem_nil rfl }

/-- `@<timestamp>-Antenna1-VD407,000015E1,CA,2` -/
def sampleReply : VersionReply where
  response := '@' :: sampleStampedHead.content sampleVersion.text
  fields := sampleVersion
  layout := Or.inl ⟨sampleStampedHead, by decide +kernel⟩

/-- The same reply without the identifier. -/
def namelessReply : VersionReply where
  response := '@' :: sampleStampedHead.content namelessVersion.text
  fields := namelessVersion
  layout := Or.inl ⟨sampleStampedHead, by decide +kernel⟩

/-- Settings for a socket, with an identifier of their own. -/
def sampleSettings : ReaderSettings where
  type := .socket
  ipv4 := ⟨[192, 168, 88, 91], rfl⟩
  ipv6 := ⟨List.replicate 6 0, rfl⟩
  devName := ⟨List.replicate 20 nul, rfl⟩
  port := 1001
  power := 25
  loopTime := 300
  antenna := 1
  readerId := memcpy nul "OWN".toList ⟨List.replicate 16 nul, rfl⟩

/-- The service starts and the reader answers the command `V`. -/
def answering (reply : VersionReply) : Surroundings where
  startService := fun _ => true
  nSend := 3
  response := reply.response
  behind := ⟨List.replicate 16 nul, rfl⟩

theorem construct_answering (reply : VersionReply) :
    construct (answering reply) sampleSettings sampleSettings =
      .ok (built (answering reply) sampleSettings) := by
  have hstarts : (answering reply).startService sampleSettings = true := rfl
  rw [construct_eq, if_pos hstarts]

/-- A reply without an identifier has it carried. -/
theorem readerId_carried_nameless :
    CarriesReaderId namelessReply (built (answering namelessReply) sampleSettings) :=
  (readerId_carried_iff (answering namelessReply) namelessReply
    (construct_answering namelessReply)).mpr rfl

/-- The identifier `000015E1` of a reply is not in the settings. -/
theorem readerId_not_carried :
    construct (answering sampleReply) sampleSettings sampleSettings =
        .ok (built (answering sampleReply) sampleSettings) ∧
      ¬ CarriesReaderId sampleReply (built (answering sampleReply) sampleSettings) :=
  ⟨construct_answering sampleReply, fun h => absurd h.settings (by decide +kernel)⟩

end RfidEngine.RfidInterface
