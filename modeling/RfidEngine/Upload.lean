import RfidEngine.CurlStub
import RfidEngine.Lib.JsonValue
import RfidEngine.Lib.Regex
import RfidEngine.RfidInterface.Requests

/-!
# curl_post: the records at the server

`curl_post` asks the server for a token first and posts the records with it.
Without a cookie there is no post, and the queue of the stub is emptied all the
same; where the cookies cannot be listed the process exits. libcurl asks
`read_callback` for the body until it is told the end.

## Main results

The token is what stands behind the first place of its name. In every run of a
stub the batches whose first request was answered with a cookie arrive, each in
one post of its own, and no other record does.
-/

namespace RfidEngine

open BacktrackRegex JsonValue StepSystem
open RfidInterface (decimal)

def textCsrftoken : Str := "csrftoken".toList

/-- `csrftoken\s+(.*)` -/
def rgxCsrftoken : Regex Char :=
  .seq (.lit textCsrftoken) (.seq (.plus isspace) (.group 1 (.many isDot)))

def findCsrfTokenInCookie (cookieString : Str) : Str :=
  match search rgxCsrftoken cookieString with
  | some sm => Captures.str sm.caps 1
  | none => []

/-- The name of the token with white space behind it. -/
def BeginsToken (s : Str) : Prop :=
  ∃ ch rest, s = textCsrftoken ++ ch :: rest ∧ isspace ch = true

/-- A text behind the first place of the name, up to the end of its line; where the name has no
place, the empty text. -/
inductive TokenIn (cookieString tok : Str) : Prop where
  | absent (none : ∀ v, v <:+ cookieString → ¬ BeginsToken v) (empty : tok = [])
  | found (lead spaces tail : Str)
      (text : cookieString = lead ++ (textCsrftoken ++ (spaces ++ (tok ++ tail))))
      (first : ∀ v, v <:+ lead → v ≠ [] →
        ¬ BeginsToken (v ++ (textCsrftoken ++ (spaces ++ (tok ++ tail)))))
      (some_space : spaces ≠ []) (all_spaces : ∀ ch ∈ spaces, isspace ch = true)
      (no_space : ∀ ch, (tok ++ tail).head? = some ch → isspace ch = false)
      (in_line : ∀ ch ∈ tok, isDot ch = true)
      (line_end : ∀ ch, tail.head? = some ch → isDot ch = false)

/-- A match begins only where the name does, with white space behind it. -/
theorem dead_rgxCsrftoken {s : Str} (h : ¬ BeginsToken s) : Dead rgxCsrftoken s := by
  rintro b w t c rfl hd
  obtain ⟨v, rfl, hv⟩ := (derives_seq_lit_iff _ _ b w t c).mp hd
  obtain ⟨spaces, rest, rfl, ⟨hne, hspaces⟩, -⟩ := (derives_seq_plus_iff _ _ _ v t c).mp hv
  cases spaces with
  | nil => exact hne rfl
  | cons ch spaces =>
      apply h
      exact ⟨ch, spaces ++ rest ++ t, by simp, hspaces ch List.mem_cons_self⟩

theorem findCsrfTokenInCookie_of_absent {cookieString : Str}
    (h : ∀ v, v <:+ cookieString → ¬ BeginsToken v) : findCsrfTokenInCookie cookieString = [] := by
  rw [findCsrfTokenInCookie, search,
    searchFrom_eq_none_of_dead (fun v hv => dead_rgxCsrftoken (h v hv))]

/-- The search stops at the first place of the name; white space behind it is left out, the rest
of the line is captured. -/
theorem findCsrfTokenInCookie_of_found {lead spaces tok tail : Str}
    (hfirst : ∀ v, v <:+ lead → v ≠ [] →
      ¬ BeginsToken (v ++ (textCsrftoken ++ (spaces ++ (tok ++ tail)))))
    (hne : spaces ≠ []) (hspaces : ∀ ch ∈ spaces, isspace ch = true)
    (hnospace : ∀ ch, (tok ++ tail).head? = some ch → isspace ch = false)
    (hline : ∀ ch ∈ tok, isDot ch = true) (hend : ∀ ch, tail.head? = some ch → isDot ch = false) :
    findCsrfTokenInCookie (lead ++ (textCsrftoken ++ (spaces ++ (tok ++ tail)))) = tok := by
  obtain ⟨b, hskip⟩ := @searchFrom_append_of_dead _ rgxCsrftoken lead
    (textCsrftoken ++ (spaces ++ (tok ++ tail)))
    (fun v hv hvne => dead_rgxCsrftoken (hfirst v hv hvne)) true
  have hfirstAttempt : (attempts rgxCsrftoken b
      (textCsrftoken ++ (spaces ++ (tok ++ tail)))).head? =
        some ⟨textCsrftoken ++ (spaces ++ tok), tail, [(1, tok)]⟩ :=
    first_seq (takesFirst_lit textCsrftoken b _)
      (first_seq (first_plus hne hspaces hnospace) (first_group (first_many hline hend)))
  rw [findCsrfTokenInCookie, search, hskip, searchFrom_of_first hfirstAttempt]
  simp [Found.shift, Captures.str]

theorem head_dropWhile_false {p : Char → Bool} {s : Str} {ch : Char}
    (h : (s.dropWhile p).head? = some ch) : p ch = false := by
  have hnot := List.head?_dropWhile_not p s
  rw [h] at hnot
  exact hnot

/-- Every cookie has a token in this sense. -/
theorem exists_tokenIn (cookieString : Str) : ∃ tok, TokenIn cookieString tok := by
  obtain hnone | ⟨lead, rest, rfl, ⟨ch, after, rfl, hch⟩, hfirst⟩ :=
    exists_first_place BeginsToken cookieString
  · exact ⟨[], .absent hnone rfl⟩
  · obtain ⟨spaces, hspaces⟩ : ∃ spaces, (ch :: after).takeWhile isspace = spaces := ⟨_, rfl⟩
    obtain ⟨line, hline⟩ : ∃ line, (ch :: after).dropWhile isspace = line := ⟨_, rfl⟩
    have hafter : ch :: after = spaces ++ (line.takeWhile isDot ++ line.dropWhile isDot) := by
      rw [List.takeWhile_append_dropWhile, ← hspaces, ← hline, List.takeWhile_append_dropWhile]
    rw [hafter] at hfirst ⊢
    refine ⟨line.takeWhile isDot, .found lead spaces (line.dropWhile isDot) rfl hfirst ?_ ?_ ?_ ?_
      ?_⟩
    · rw [← hspaces, List.takeWhile_cons_of_pos hch]
      exact List.cons_ne_nil _ _
    · intro x hx
      rw [← hspaces] at hx
      exact List.mem_takeWhile_imp hx
    · intro x hx
      rw [List.takeWhile_append_dropWhile, ← hline] at hx
      exact head_dropWhile_false hx
    · intro x hx
      exact List.mem_takeWhile_imp hx
    · intro x hx
      exact head_dropWhile_false hx

theorem findCsrfTokenInCookie_of_tokenIn {cookieString tok : Str} (h : TokenIn cookieString tok) :
    findCsrfTokenInCookie cookieString = tok := by
  cases h with
  | absent hnone hempty => rw [findCsrfTokenInCookie_of_absent hnone, hempty]
  | found lead spaces tail htext hfirst hne hspaces hnospace hline hend =>
      rw [htext]
      exact findCsrfTokenInCookie_of_found hfirst hne hspaces hnospace hline hend

/-- The token found is the one in the cookie. -/
theorem tokenIn_findCsrfTokenInCookie (cookieString : Str) :
    TokenIn cookieString (findCsrfTokenInCookie cookieString) := by
  obtain ⟨tok, htok⟩ := exists_tokenIn cookieString
  rw [findCsrfTokenInCookie_of_tokenIn htok]
  exact htok

/-- What is found in a cookie is exactly what stands behind the first place of the name. -/
theorem csrf_token_found (cookieString tok : Str) :
    findCsrfTokenInCookie cookieString = tok ↔ TokenIn cookieString tok := by
  constructor
  · rintro rfl
    exact tokenIn_findCsrfTokenInCookie cookieString
  · exact findCsrfTokenInCookie_of_tokenIn

/-- A line of a cookie file, with the token as its last field. -/
example : findCsrfTokenInCookie "192.168.1.9\tFALSE\t/\tFALSE\t0\tcsrftoken\tx7Qf2".toList =
    "x7Qf2".toList := by decide +kernel

/-- Where the server is. -/
structure Target where
  targetIp : Str
  port : Int
  api : Str

structure Post where
  url : Str
  header : Str
  body : Str
  deriving DecidableEq

inductive Request where
  | get (url : Str)
  | post (p : Post)

def Request.post? : Request → Option Post
  | .get _ => none
  | .post p => some p

/-- What libcurl does in one call of `curl_post`: whether there is a handle, whether
`curl_easy_getinfo` lists the cookies behind the first request and which these are, the buffers
given to `read_callback` with how often it is asked for more, and the code of the post. A code that
is never set has some value. -/
structure Transfer where
  easyInit : Bool
  getinfo : Bool
  cookies : List Str
  buffers : Nat → Nat × Nat
  asked : Nat
  responseCode : Int
  unset : Int

/-- The body of a post is what `read_callback` has handed over. -/
def Transfer.body (transfer : Transfer) (postData : Str) : Str :=
  ((List.range transfer.asked).map (chunkAt postData transfer.buffers)).flatten

/-- The requests made, and the code returned; none is where `get_cookies` calls `exit( 1 )`. -/
def curlPost (target : Target) (postData : Str) (transfer : Transfer) :
    List Request × Option Int :=
  let server := "http://".toList ++ target.targetIp ++ ":".toList ++ decimal target.port
  let getToken := Request.get (server ++ "/ulog/getToken".toList)
  if transfer.easyInit then
    if transfer.getinfo then
      match transfer.cookies with
      | [] => ([getToken], some (-1))
      | cookie :: _ =>
          ([getToken,
            .post ⟨server ++ target.api,
              "X-CSRFToken: ".toList ++ findCsrfTokenInCookie cookie,
              transfer.body postData⟩], some transfer.responseCode)
    else ([getToken], none)
  else ([], some transfer.unset)

/-- The first request was answered with a cookie. -/
def Transfer.answered (transfer : Transfer) : Bool :=
  transfer.easyInit && transfer.getinfo && !transfer.cookies.isEmpty

/-- The process exits in `get_cookies`. -/
def Transfer.exits (transfer : Transfer) : Bool := transfer.easyInit && !transfer.getinfo

theorem curlPost_exits_iff (target : Target) (postData : Str) (transfer : Transfer) :
    (curlPost target postData transfer).2 = none ↔ transfer.exits = true := by
  unfold curlPost Transfer.exits
  cases transfer.easyInit with
  | false => simp
  | true =>
      cases transfer.getinfo with
      | false => simp
      | true => cases transfer.cookies <;> simp

theorem Transfer.not_answered_of_exits {transfer : Transfer} (h : transfer.exits = true) :
    transfer.answered = false := by
  obtain ⟨-, hgetinfo⟩ := (Bool.and_eq_true _ _).mp h
  rw [Bool.not_eq_true'] at hgetinfo
  simp [answered, hgetinfo]

/-- libcurl asks for more into buffers that hold something, until it is told the end. -/
def Transfer.EndsWith (transfer : Transfer) (postData : Str) : Prop :=
  0 < (transfer.buffers transfer.asked).1 * (transfer.buffers transfer.asked).2 ∧
    chunkAt postData transfer.buffers transfer.asked = []

theorem Transfer.body_eq {transfer : Transfer} {postData : Str}
    (h : transfer.EndsWith postData) : transfer.body postData = postData := by
  obtain ⟨hbuffer, hend⟩ := h
  have hlen := congrArg List.length hend
  rw [length_chunkAt, List.length_nil] at hlen
  have hplace : postData.length ≤ placeAt postData transfer.buffers transfer.asked := by omega
  rw [Transfer.body, flatten_chunks, List.take_of_length_le hplace]

def Ulog.toJson (log : Ulog) : Json :=
  .object [("logger_id", .text log.loggerId), ("log_level", .integer log.logLevel),
    ("msg", .text log.msg), ("app_name", .text log.appName),
    ("app_flags", .integer log.appFlags)]

def Ulog.fromJson (j : Json) : Option Ulog := do
  let loggerId ← j.field "logger_id" Json.getText
  let logLevel ← j.field "log_level" Json.getInteger
  let msg ← j.field "msg" Json.getText
  let appName ← j.field "app_name" Json.getText
  let appFlags ← j.field "app_flags" Json.getInteger
  some ⟨loggerId, logLevel, msg, appName, appFlags⟩

theorem Ulog.respects : Json.Respects Ulog.fromJson := by
  intro j j' h
  simp only [fromJson, h.field _ Json.respects_getText, h.field _ Json.respects_getInteger]

theorem Ulog.roundTrips (log : Ulog) : RoundTrips Ulog.toJson Ulog.fromJson log := by
  simp [RoundTrips, Ulog.toJson, Ulog.fromJson]

theorem Ulog.read_dump {texts : ArrayTexts} {batch : List Ulog} {postData : Str}
    (h : texts.dump (batch.map Ulog.toJson) = some postData) :
    texts.read Ulog.fromJson postData = some batch := by
  rw [texts.read_dump Ulog.respects h]
  obtain ⟨hall, -⟩ | ⟨-, log, -, hrefused⟩ :=
    @mapM_map_encode Ulog Ulog.toJson Ulog.fromJson batch fun log _ => Or.inl log.roundTrips
  · exact hall
  · exact absurd log.roundTrips hrefused

/-- What the stub meets: `dump` throws at texts that are no UTF-8. -/
def ulogHost (texts : ArrayTexts) : StubHost Ulog Transfer where
  dumps batch := (texts.dump (batch.map Ulog.toJson)).isSome
  exits := Transfer.exits

/-- The requests of a batch that has been dumped. -/
def upload (texts : ArrayTexts) (target : Target) (sent : List Ulog × Transfer) : List Request :=
  match texts.dump (sent.1.map Ulog.toJson) with
  | some postData => (curlPost target postData sent.2).1
  | none => []

/-- The requests of all calls of `curl_post`. -/
def uploads (texts : ArrayTexts) (target : Target) (stub : CurlStub Ulog Transfer) :
    List Request := stub.calls.flatMap (upload texts target)

/-- libcurl sends the texts of the batches that are posted to their end. -/
def SendsWhole (texts : ArrayTexts) (batches : List (List Ulog × Transfer)) : Prop :=
  ∀ sent ∈ batches, sent.2.answered = true → ∀ postData,
    texts.dump (sent.1.map Ulog.toJson) = some postData → sent.2.EndsWith postData

/-- A post that carries a batch, with the token of the first cookie. -/
structure Carries (texts : ArrayTexts) (target : Target) (sent : List Ulog × Transfer) (p : Post) :
    Prop where
  url : p.url = "http://".toList ++ target.targetIp ++ ":".toList ++ decimal target.port ++
    target.api
  token : ∃ cookie cookies tok, sent.2.cookies = cookie :: cookies ∧ TokenIn cookie tok ∧
    p.header = "X-CSRFToken: ".toList ++ tok
  batch : texts.read Ulog.fromJson p.body = some sent.1

theorem upload_answered {texts : ArrayTexts} {sent : List Ulog × Transfer} (target : Target)
    (hdumps : (ulogHost texts).dumps sent.1 = true)
    (hends : ∀ postData, texts.dump (sent.1.map Ulog.toJson) = some postData →
      sent.2.EndsWith postData) (hanswered : sent.2.answered = true) :
    ∃ p, (upload texts target sent).filterMap Request.post? = [p] ∧
      Carries texts target sent p := by
  obtain ⟨postData, hdump⟩ := Option.isSome_iff_exists.mp hdumps
  obtain ⟨hlists, hcookies⟩ := (Bool.and_eq_true _ _).mp hanswered
  obtain ⟨hinit, hgetinfo⟩ := (Bool.and_eq_true _ _).mp hlists
  cases hlist : sent.2.cookies with
  | nil => simp [hlist] at hcookies
  | cons cookie cookies =>
      simp only [upload, hdump, curlPost, if_pos hinit, if_pos hgetinfo, hlist]
      have htoken := tokenIn_findCsrfTokenInCookie cookie
      refine ⟨_, rfl, rfl, ⟨cookie, cookies, _, hlist, htoken, rfl⟩, ?_⟩
      rw [Transfer.body_eq (hends postData hdump)]
      exact Ulog.read_dump hdump

theorem upload_unanswered {texts : ArrayTexts} {sent : List Ulog × Transfer} (target : Target)
    (hunanswered : sent.2.answered = false) :
    (upload texts target sent).filterMap Request.post? = [] := by
  unfold upload
  split
  · unfold curlPost
    by_cases hinit : sent.2.easyInit = true
    · rw [if_pos hinit]
      by_cases hgetinfo : sent.2.getinfo = true
      · have hempty : sent.2.cookies = [] := by
          simpa [Transfer.answered, hinit, hgetinfo] using hunanswered
        rw [if_pos hgetinfo, hempty]
        rfl
      · rw [if_neg hgetinfo]
        rfl
    · rw [if_neg hinit]
      rfl
  · rfl

/-- The posts are those of the batches that were answered, in their order. -/
theorem uploads_carry {texts : ArrayTexts} (target : Target)
    {batches : List (List Ulog × Transfer)}
    (hdumps : ∀ sent ∈ batches, (ulogHost texts).dumps sent.1 = true)
    (hwhole : SendsWhole texts batches) :
    List.Forall₂ (Carries texts target) (batches.filter fun sent => sent.2.answered)
      ((batches.flatMap (upload texts target)).filterMap Request.post?) := by
  induction batches with
  | nil => exact List.Forall₂.nil
  | cons sent batches ih =>
      obtain ⟨hfirst, hdumps⟩ := List.forall_mem_cons.mp hdumps
      obtain ⟨hends, hwhole⟩ := List.forall_mem_cons.mp hwhole
      have hcarried := ih hdumps hwhole
      rw [List.flatMap_cons, List.filterMap_append, List.filter_cons]
      cases hanswered : sent.2.answered with
      | true =>
          obtain ⟨p, hp, hcarries⟩ := upload_answered target hfirst (hends hanswered) hanswered
          rw [hp]
          exact List.Forall₂.cons hcarries hcarried
      | false =>
          rw [upload_unanswered target hanswered]
          exact hcarried

/-- The records of the batches that were answered. -/
def arrived (batches : List (List Ulog × Transfer)) : List Ulog :=
  ((batches.filter fun sent => sent.2.answered).map Prod.fst).flatten

theorem arrived_sublist (batches : List (List Ulog × Transfer)) :
    (arrived batches).Sublist (batches.map Prod.fst).flatten :=
  List.Sublist.flatten (List.filter_sublist.map Prod.fst)

/-- No record is missing exactly if each batch was answered or empty. -/
theorem arrived_eq_iff (batches : List (List Ulog × Transfer)) :
    arrived batches = (batches.map Prod.fst).flatten ↔
      ∀ sent ∈ batches, sent.2.answered = true ∨ sent.1 = [] := by
  induction batches with
  | nil => simp [arrived]
  | cons sent batches ih =>
      rw [List.forall_mem_cons, List.map_cons, List.flatten_cons]
      cases hanswered : sent.2.answered with
      | true =>
          have hcons : arrived (sent :: batches) = sent.1 ++ arrived batches := by
            simp [arrived, hanswered]
          rw [hcons, List.append_cancel_left_eq, ih]
          simp
      | false =>
          have hskip : arrived (sent :: batches) = arrived batches := by
            simp [arrived, hanswered]
          rw [hskip]
          constructor
          · intro hall
            have hle := (arrived_sublist batches).length_le
            have hlen := congrArg List.length hall
            rw [List.length_append] at hlen
            have hempty : sent.1 = [] := List.eq_nil_of_length_eq_zero (by omega)
            rw [hempty, List.nil_append] at hall
            exact ⟨Or.inr hempty, ih.mp hall⟩
          · rintro ⟨hhead, hrest⟩
            obtain habsurd | hempty := hhead
            · exact absurd habsurd Bool.false_ne_true
            · rw [hempty, List.nil_append]
              exact ih.mpr hrest

/-- A call that exits the process brings nothing to the server. -/
theorem arrived_calls {texts : ArrayTexts} {threshold : Int}
    {acts : List (StubAction Ulog Transfer)} {stub : CurlStub Ulog Transfer}
    (h : CurlStub.Conserves (ulogHost texts) threshold acts stub) :
    arrived stub.calls = arrived stub.posted := by
  unfold CurlStub.calls
  split
  · rename_i transfer hending
    have hunanswered := Transfer.not_answered_of_exits (h.exits transfer hending).2
    simp [arrived, hunanswered]
  · rw [List.append_nil]

/-- In every run of a stub the server gets the batches whose first request was answered, each in one
post that decodes to it. While the process lives, what was posted is all at the server or still in
the queue exactly if every batch with a record in it was answered; where it has ended, at a record
that cannot be dumped or at cookies that cannot be listed, the records in the queue are lost. -/
theorem uploads_arrive (texts : ArrayTexts) (target : Target) (threshold : Int)
    (acts : List (StubAction Ulog Transfer)) (stub : CurlStub Ulog Transfer)
    (hrun : exec (CurlStub.step (ulogHost texts) threshold) CurlStub.init acts = some stub)
    (hwhole : SendsWhole texts stub.calls) :
    List.Forall₂ (Carries texts target) (stub.calls.filter fun sent => sent.2.answered)
      ((uploads texts target stub).filterMap Request.post?) ∧
    (arrived stub.calls ++ stub.postDataQueue).Sublist (posts acts) ∧
    (stub.ending = none → (arrived stub.calls ++ stub.postDataQueue = posts acts ↔
      ∀ sent ∈ stub.calls, sent.2.answered = true ∨ sent.1 = [])) ∧
    (stub.ending ≠ none → stub.Explained (ulogHost texts) ∧
      (0 ≤ threshold → (arrived stub.calls).length < (posts acts).length)) := by
  have hconserves := CurlStub.conserves_of_run hrun
  have hposted := arrived_sublist stub.posted
  refine ⟨uploads_carry target hconserves.dumps_calls hwhole, ?_, ?_, ?_⟩
  · rw [arrived_calls hconserves, ← hconserves.flatten]
    exact hposted.append_right stub.postDataQueue
  · intro hlive
    rw [CurlStub.calls_of_live hlive, ← hconserves.flatten, List.append_cancel_right_eq]
    exact arrived_eq_iff stub.posted
  · intro hended
    refine ⟨hconserves.explained, fun hthreshold => ?_⟩
    have hqueue := List.length_pos_iff.mpr ((hconserves.unsent hended).2 hthreshold)
    have hle := hposted.length_le
    rw [arrived_calls hconserves, ← hconserves.flatten, List.length_append]
    omega

def sampleUlog : Ulog := newUlog ['m'] ['t'] ['x'] 4

def sampleUlogText : Str :=
  ("[\x7b\"app_flags\":0,\"app_name\":\"rfid_engine\",\"log_level\":4," ++
    "\"logger_id\":\"m\",\"msg\":\"[t] x\"\x7d]").toList

/-- The record with the members in the order of the text. -/
def sampleUlogParsed : Json :=
  .object [("app_flags", .integer 0), ("app_name", .text "rfid_engine".toList),
    ("log_level", .integer 4), ("logger_id", .text ['m']), ("msg", .text "[t] x".toList)]

theorem same_sampleUlogParsed : Json.Same sampleUlog.toJson sampleUlogParsed := by
  refine .pick 3 rfl rfl (.text _) (.pick 2 rfl rfl (.integer 4) ?_)
  refine .pick 2 rfl rfl (.text _) (.pick 1 rfl rfl (.text _) ?_)
  exact .pick 0 rfl rfl (.integer 0) .empty

noncomputable def sampleUlogTexts : ArrayTexts :=
  .only [sampleUlog.toJson] [sampleUlogParsed] sampleUlogText (.cons same_sampleUlogParsed .nil)

/-- libcurl asks for the body in buffers of 64 bytes. -/
def sampleTransfer : Transfer where
  easyInit := true
  getinfo := true
  cookies := ["192.168.1.9\tFALSE\t/\tFALSE\t0\tcsrftoken\tx7Qf2".toList]
  buffers := fun _ => (1, 64)
  asked := 2
  responseCode := 0
  unset := 0

def sampleTarget : Target := ⟨"192.168.1.9".toList, 8000, "/ulog/add".toList⟩

/-- The stub of a sink whose record has been posted. -/
def sampleStub : CurlStub Ulog Transfer :=
  ⟨[], [([sampleUlog], sampleTransfer)], true, .ended, true, none⟩

theorem dump_sampleUlog : sampleUlogTexts.dump [sampleUlog.toJson] = some sampleUlogText :=
  if_pos rfl

theorem exec_sampleStub : exec (CurlStub.step (ulogHost sampleUlogTexts) defaultThreshold)
    CurlStub.init [.post sampleUlog, .destruct, .background sampleTransfer,
      .background sampleTransfer, .join] = some sampleStub := by
  have hdumps : (ulogHost sampleUlogTexts).dumps [sampleUlog] = true :=
    Option.isSome_of_eq_some dump_sampleUlog
  have hexits : (ulogHost sampleUlogTexts).exits sampleTransfer = false := rfl
  have hone : (0 : Int) < toInt [sampleUlog].length := by decide
  have hflush : CurlStub.flushQueue (ulogHost sampleUlogTexts) 0 sampleTransfer
      ⟨[sampleUlog], [], true, .lastFlush, false, none⟩ =
        ⟨[], [([sampleUlog], sampleTransfer)], true, .lastFlush, false, none⟩ := by
    simp only [CurlStub.flushQueue, if_pos hone, hdumps, hexits, if_true, Bool.false_eq_true,
      if_false, List.nil_append]
  have hturn : CurlStub.step (ulogHost sampleUlogTexts) defaultThreshold
      ⟨[sampleUlog], [], true, .lastFlush, false, none⟩ (.background sampleTransfer) =
        some ⟨[], [([sampleUlog], sampleTransfer)], true, .ended, false, none⟩ := by
    simp only [CurlStub.step, CurlStub.act, CurlStub.backgroundThreadFunc, hflush, CurlStub.goOn]
  have hbegun : exec (CurlStub.step (ulogHost sampleUlogTexts) defaultThreshold) CurlStub.init
      [.post sampleUlog, .destruct, .background sampleTransfer] =
        some ⟨[sampleUlog], [], true, .lastFlush, false, none⟩ := rfl
  have hjoin : CurlStub.step (ulogHost sampleUlogTexts) defaultThreshold
      ⟨[], [([sampleUlog], sampleTransfer)], true, .ended, false, none⟩ .join =
        some sampleStub := rfl
  exact exec_snoc (exec_snoc hbegun hturn) hjoin

/-- The record of a sink arrives. -/
theorem uploads_arrive_oneRecord : ∃ p,
    (uploads sampleUlogTexts sampleTarget sampleStub).filterMap Request.post? = [p] ∧
      p.header = "X-CSRFToken: x7Qf2".toList ∧
      sampleUlogTexts.read Ulog.fromJson p.body = some [sampleUlog] := by
  have hwhole : SendsWhole sampleUlogTexts sampleStub.calls := by
    intro sent hsent _ postData hpost
    obtain rfl := List.mem_singleton.mp hsent
    obtain rfl := Option.some.inj (dump_sampleUlog.symm.trans hpost)
    exact ⟨by decide, by decide +kernel⟩
  obtain ⟨hcarried, -⟩ := uploads_arrive sampleUlogTexts sampleTarget defaultThreshold _ _
    exec_sampleStub hwhole
  have hanswered : sampleStub.calls.filter (fun sent => sent.2.answered) =
      [([sampleUlog], sampleTransfer)] := rfl
  rw [hanswered] at hcarried
  generalize (uploads sampleUlogTexts sampleTarget sampleStub).filterMap Request.post? = ps at *
  cases hcarried with
  | cons hcarries hnil =>
      cases hnil
      obtain ⟨cookie, cookies, tok, hcookies, htok, hheader⟩ := hcarries.token
      obtain ⟨rfl, -⟩ := List.cons.inj hcookies
      have hfound := findCsrfTokenInCookie_of_tokenIn htok
      have hsample : findCsrfTokenInCookie
          "192.168.1.9\tFALSE\t/\tFALSE\t0\tcsrftoken\tx7Qf2".toList = "x7Qf2".toList := by
        decide +kernel
      rw [hsample] at hfound
      rw [← hfound] at hheader
      exact ⟨_, rfl, hheader, hcarries.batch⟩

end RfidEngine
