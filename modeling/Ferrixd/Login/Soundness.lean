import Ferrixd.Data.Machine
import Ferrixd.Login.Sasl

/-! # Logins are earned

Only a client that presents the password, the certificate or the SCRAM proof of an account logs in to
it.  An attempt that fails is over, except when a line is refused before the attempt is looked at. -/

namespace Ferrixd

/-! ## What a client presents -/

/-- A line of data, with the accounts and the nonce there were when it came. -/
structure DataLine where
  text : String
  accounts : AccountStore
  nonce : Option String

/-- The bytes of a complete response, with the accounts and the nonce of its last line. -/
structure Response where
  data : Bytes
  accounts : AccountStore
  nonce : Option String

/-- The responses in the lines of an attempt, and the chunks of the one that is not complete. -/
inductive Received (crypto : Crypto) : List DataLine → List Response → String → Prop where
  | start : Received crypto [] [] ""
  | chunk {lines : List DataLine} {responses : List Response} {pending : String} {line : DataLine}
      (received : Received crypto lines responses pending) (nonempty : line.text ≠ "+")
      (full : chunkLen ≤ line.text.utf8ByteSize) :
      Received crypto (lines ++ [line]) responses (pending ++ line.text)
  | complete {lines : List DataLine} {responses : List Response} {pending : String} {line : DataLine}
      {data : Bytes} (received : Received crypto lines responses pending)
      (last : line.text = "+" ∨ line.text.utf8ByteSize < chunkLen)
      (decoded : crypto.decodeBase64 (if line.text = "+" then pending else pending ++ line.text) = some data) :
      Received crypto (lines ++ [line]) (responses ++ [⟨data, line.accounts, line.nonce⟩]) ""

namespace Response

variable (crypto : Crypto)

/-- The response holds the password of an account. -/
def HoldsPassword (response : Response) (account : String) : Prop :=
  ∃ authzid authcid password, decodePlain response.data = some (authzid, authcid, password) ∧
    ∃ stored hash, response.accounts.accounts.lookup (response.accounts.casemapping.fold authcid) = some stored ∧
      stored.passwordHash = some hash ∧ crypto.argon2 hash password = true ∧ stored.display = account

/-- A certificate with this fingerprint is registered for an account. -/
def AllowsCertificate (response : Response) (certFp : Option String) (account : String) : Prop :=
  ∃ fp, certFp = some fp ∧ ∃ key stored, response.accounts.accounts.lookup key = some stored ∧
    fp ∈ stored.fingerprints ∧ stored.display = account

/-- The first response names an account with SCRAM keys, and the second one proves, for the nonces of
both sides, a client key that hashes to the stored key. -/
def ProvesKey (first final : Response) (account : String) : Prop :=
  ∃ hello bare username clientNonce serverNonce stored creds,
    fromUtf8? first.data = some hello ∧ clientFirstBare hello = some bare ∧
    lastField (bare.splitOn ",") "n=" = some username ∧ lastField (bare.splitOn ",") "r=" = some clientNonce ∧
    first.nonce = some serverNonce ∧
    first.accounts.accounts.lookup (first.accounts.casemapping.fold username) = some stored ∧
    stored.scram = some creds ∧ stored.display = account ∧
    ∃ answer proof64 proof, fromUtf8? final.data = some answer ∧
      lastField (answer.splitOn ",") "r=" = some (clientNonce ++ serverNonce) ∧
      lastField (answer.splitOn ",") "p=" = some proof64 ∧ crypto.decodeBase64 proof64 = some proof ∧
      proof.length = 32 ∧
      let serverFirst := "r=" ++ (clientNonce ++ serverNonce) ++ ",s=" ++ crypto.encodeBase64 creds.salt ++
        ",i=" ++ toString creds.iterations
      let message := bare ++ "," ++ serverFirst ++ "," ++ ("c=biws,r=" ++ (clientNonce ++ serverNonce))
      crypto.sha256 (List.zipWith (fun left right => left ^^^ right) proof
        (crypto.hmac creds.storedKey (utf8 message))) = creds.storedKey

end Response

/-- The lines since the mechanism was selected are a complete exchange that proves an account. -/
inductive Proves (crypto : Crypto) (certFp : Option String) (lines : List DataLine) (account : String) :
    Mechanism → Prop where
  | plain {response : Response} (received : Received crypto lines [response] "")
      (password : response.HoldsPassword crypto account) : Proves crypto certFp lines account .plain
  | external {response : Response} (received : Received crypto lines [response] "")
      (certificate : response.AllowsCertificate certFp account) : Proves crypto certFp lines account .external
  | scram {first final acknowledgement : Response}
      (received : Received crypto lines [first, final, acknowledgement] "")
      (key : Response.ProvesKey crypto first final account) : Proves crypto certFp lines account .scram

/-! ## The responses of an attempt and its state -/

section Attempt

variable {crypto : Crypto}

/-- The exchange was begun by this response. -/
def Began (crypto : Crypto) (first : Response) (exchange : Exchange) : Prop :=
  ∃ hello serverNonce serverFirst, fromUtf8? first.data = some hello ∧ first.nonce = some serverNonce ∧
    Exchange.start crypto hello serverNonce first.accounts.scramLookup = some (exchange, serverFirst)

/-- The exchange was finished by this response. -/
def Finished (crypto : Crypto) (final : Response) (exchange : Exchange) : Prop :=
  ∃ answer serverFinal, fromUtf8? final.data = some answer ∧ exchange.finish crypto answer = some serverFinal

/-- The phase of an attempt after some responses. -/
def InPhase (crypto : Crypto) (responses : List Response) : Mechanism → ScramPhase → Prop
  | .scram, .awaitingClientFirst => responses = []
  | .scram, .awaitingClientFinal exchange => ∃ first, responses = [first] ∧ Began crypto first exchange
  | .scram, .awaitingFinalAck account => ∃ first final exchange, responses = [first, final] ∧
      Began crypto first exchange ∧ Finished crypto final exchange ∧ exchange.account = account
  | .scram, .idle => False
  | _, phase => responses = [] ∧ phase = .idle

/-- The state of an attempt is what the lines since the selection of its mechanism make it. -/
structure Tracks (crypto : Crypto) (lines : List DataLine) (sasl : SaslSession) : Prop where
  idle : sasl.mechanism = none → sasl = {}
  attempt : ∀ mechanism, sasl.mechanism = some mechanism → ∃ responses,
    Received crypto lines responses sasl.buffer ∧ InPhase crypto responses mechanism sasl.scram

theorem Tracks.none (lines : List DataLine) : Tracks crypto lines {} :=
  ⟨fun _ => rfl, fun _ => nofun⟩

theorem Exchange.start_some {hello serverNonce serverFirst : String}
    {lookup : String → Option (String × ScramCreds)} {exchange : Exchange}
    (started : Exchange.start crypto hello serverNonce lookup = some (exchange, serverFirst)) :
    ∃ bare username clientNonce account creds, Ferrixd.clientFirstBare hello = some bare ∧
      lastField (bare.splitOn ",") "n=" = some username ∧ lastField (bare.splitOn ",") "r=" = some clientNonce ∧
      lookup username = some (account, creds) ∧
      exchange = ⟨account, creds, bare, "r=" ++ (clientNonce ++ serverNonce) ++ ",s=" ++
        crypto.encodeBase64 creds.salt ++ ",i=" ++ toString creds.iterations, clientNonce ++ serverNonce⟩ := by
  simp only [Exchange.start, Option.bind_eq_bind, Option.bind_eq_some_iff] at started
  obtain ⟨bare, isBare, username, named, clientNonce, drawn, ⟨account, creds⟩, found, same⟩ := started
  cases same
  exact ⟨bare, username, clientNonce, account, creds, isBare, named, drawn, found, rfl⟩

theorem Exchange.finish_some {exchange : Exchange} {answer serverFinal : String}
    (finished : exchange.finish crypto answer = some serverFinal) :
    ∃ proof64 proof, lastField (answer.splitOn ",") "r=" = some exchange.combinedNonce ∧
      lastField (answer.splitOn ",") "p=" = some proof64 ∧ crypto.decodeBase64 proof64 = some proof ∧
      proof.length = 32 ∧ crypto.sha256 (List.zipWith (fun left right => left ^^^ right) proof
        (crypto.hmac exchange.creds.storedKey (utf8 exchange.authMessage))) = exchange.creds.storedKey := by
  simp only [Exchange.finish, Option.bind_eq_bind, Option.bind_eq_some_iff] at finished
  obtain ⟨nonce, given, finished⟩ := finished
  split at finished
  · cases finished
  · rename_i same
    rw [Decidable.not_not] at same
    rw [Option.bind_eq_some_iff] at finished
    obtain ⟨proof64, encoded, finished⟩ := finished
    rw [Option.bind_eq_some_iff] at finished
    obtain ⟨proof, decoded, finished⟩ := finished
    split at finished
    · cases finished
    · rename_i length
      split at finished
      · cases finished
      · rename_i hash
        rw [Decidable.not_not] at length hash
        exact ⟨proof64, proof, by rw [given, same], encoded, decoded, length, hash⟩

/-- An exchange that was begun and finished proves the key of its account. -/
theorem Began.provesKey {first final : Response} {exchange : Exchange} (began : Began crypto first exchange)
    (finished : Finished crypto final exchange) : Response.ProvesKey crypto first final exchange.account := by
  obtain ⟨hello, serverNonce, serverFirst, isHello, drawn, started⟩ := began
  obtain ⟨answer, serverFinal, isAnswer, verified⟩ := finished
  obtain ⟨bare, username, clientNonce, account, creds, isBare, named, given, found, rfl⟩ :=
    Exchange.start_some started
  obtain ⟨stored, isStored, capable, display⟩ := AccountStore.scramLookup_some found
  obtain ⟨proof64, proof, nonce, encoded, decoded, length, hash⟩ := Exchange.finish_some verified
  exact ⟨hello, bare, username, clientNonce, serverNonce, stored, creds, isHello, isBare, named, given, drawn,
    isStored, capable, display, answer, proof64, proof, isAnswer, nonce, encoded, decoded, length, hash⟩

/-- A chunk is refused, kept, or completes a response. -/
theorem pushChunk_cases (sasl : SaslSession) (chunk : String) :
    (∃ later, sasl.pushChunk crypto chunk = (later, .invalid)) ∨
      (chunk ≠ "+" ∧ chunkLen ≤ chunk.utf8ByteSize ∧
        sasl.pushChunk crypto chunk = ({ sasl with buffer := sasl.buffer ++ chunk }, .needMore)) ∨
      ∃ data, (chunk = "+" ∨ chunk.utf8ByteSize < chunkLen) ∧
        crypto.decodeBase64 (if chunk = "+" then sasl.buffer else sasl.buffer ++ chunk) = some data ∧
        sasl.pushChunk crypto chunk = ({ sasl with buffer := "" }, .complete data) := by
  rw [SaslSession.pushChunk]
  split
  · exact .inl ⟨sasl, rfl⟩
  · dsimp only
    split
    · rename_i last
      cases decoded : crypto.decodeBase64 (if chunk = "+" then sasl.buffer else sasl.buffer ++ chunk) with
      | none => exact .inl ⟨_, rfl⟩
      | some data => exact .inr (.inr ⟨data, last, rfl, rfl⟩)
    · rename_i more
      rw [not_or] at more
      refine .inr (.inl ⟨more.1, by omega, ?_⟩)
      rw [if_neg more.1]

/-- What a line may lead to: the attempt goes on, fails and is over, or proves an account. -/
def Settled (crypto : Crypto) (certFp : Option String) (mechanism : Option Mechanism) (lines : List DataLine)
    (sasl : SaslSession) : SaslReply → Prop
  | .silent => Tracks crypto lines sasl
  | .challenge _ => Tracks crypto lines sasl
  | .failure _ _ => sasl = {}
  | .success account => sasl = {} ∧ ∃ selected, mechanism = some selected ∧ Proves crypto certFp lines account selected

variable {certFp : Option String} {lines : List DataLine}

theorem Settled.finishSasl {response : Response} (received : Received crypto lines [response] "")
    (sasl : SaslSession) {mechanism : Mechanism} (simple : mechanism ≠ .scram) :
    Settled crypto certFp (some mechanism) lines
      (sasl.finishSasl crypto response.accounts certFp mechanism response.data).1
      (sasl.finishSasl crypto response.accounts certFp mechanism response.data).2 := by
  cases mechanism with
  | plain =>
    -- the password is checked against the accounts of the last line
    have checked : sasl.finishSasl crypto response.accounts certFp .plain response.data =
        (sasl.reset, ((decodePlain response.data).bind fun parts =>
          response.accounts.verifyPassword crypto parts.2.1 parts.2.2).elim saslFailed .success) := rfl
    rw [checked]
    cases result : (decodePlain response.data).bind fun parts =>
        response.accounts.verifyPassword crypto parts.2.1 parts.2.2 with
    | none => exact rfl
    | some account =>
      refine ⟨rfl, .plain, rfl, .plain received ?_⟩
      obtain ⟨⟨authzid, authcid, password⟩, decoded, verified⟩ := Option.bind_eq_some_iff.mp result
      exact ⟨authzid, authcid, password, decoded, AccountStore.verifyPassword_some verified⟩
  | external =>
    cases result : certFp.bind fun fp =>
        response.accounts.verifyFingerprint (fromUtf8Lossy response.data) fp with
    | none =>
      simp only [SaslSession.finishSasl, result]
      rfl
    | some account =>
      simp only [SaslSession.finishSasl, result]
      refine ⟨rfl, .external, rfl, .external received ?_⟩
      obtain ⟨fp, presented, verified⟩ := Option.bind_eq_some_iff.mp result
      exact ⟨fp, presented, AccountStore.verifyFingerprint_some verified⟩
  | scram => exact absurd rfl simple

theorem Settled.scramStep {responses : List Response} {response : Response}
    (received : Received crypto lines (responses ++ [response]) "") {sasl : SaslSession}
    (selected : sasl.mechanism = some .scram) (empty : sasl.buffer = "")
    (phase : InPhase crypto responses .scram sasl.scram) :
    Settled crypto certFp (some .scram) lines
      (sasl.scramStep crypto response.accounts response.nonce response.data).1
      (sasl.scramStep crypto response.accounts response.nonce response.data).2 := by
  -- a later phase of the same attempt
  have proceeds : ∀ next : ScramPhase, InPhase crypto (responses ++ [response]) .scram next →
      Tracks crypto lines { sasl with scram := next } := by
    intro next inNext
    refine ⟨fun absent => ?_, fun mechanism isSelected => ?_⟩
    · rw [selected] at absent
      cases absent
    · rw [selected] at isSelected
      cases isSelected
      refine ⟨_, ?_, inNext⟩
      show Received crypto lines _ sasl.buffer
      rw [empty]
      exact received
  rw [SaslSession.scramStep]
  cases isText : fromUtf8? response.data with
  | none => exact rfl
  | some text =>
    dsimp only
    cases isPhase : sasl.scram with
    | idle =>
      rw [isPhase] at phase
      exact phase.elim
    | awaitingClientFirst =>
      rw [isPhase] at phase
      cases started : response.nonce.bind fun nonce =>
          Exchange.start crypto text nonce response.accounts.scramLookup with
      | none => exact rfl
      | some result =>
        obtain ⟨exchange, serverFirst⟩ := result
        obtain ⟨nonce, drawn, begins⟩ := Option.bind_eq_some_iff.mp started
        refine proceeds _ ⟨response, ?_, text, nonce, serverFirst, isText, drawn, begins⟩
        rw [show responses = [] from phase, List.nil_append]
    | awaitingClientFinal exchange =>
      rw [isPhase] at phase
      obtain ⟨first, rfl, began⟩ := phase
      dsimp only
      cases finished : exchange.finish crypto text with
      | none => exact rfl
      | some serverFinal =>
        exact proceeds _ ⟨first, response, exchange, rfl, began, ⟨text, serverFinal, isText, finished⟩, rfl⟩
    | awaitingFinalAck account =>
      rw [isPhase] at phase
      obtain ⟨first, final, exchange, rfl, began, finished, rfl⟩ := phase
      exact ⟨rfl, .scram, rfl, .scram received (began.provesKey finished)⟩

/-- The lines of an attempt after one more. -/
def linesAfter (mechanism : Option Mechanism) (lines : List DataLine) (line : DataLine) : List DataLine :=
  if mechanism.isSome then lines ++ [line] else []

/-- One line that is let in. -/
theorem Tracks.respond {sasl : SaslSession} (tracks : Tracks crypto lines sasl) (line : DataLine) :
    Settled crypto certFp sasl.mechanism (linesAfter sasl.mechanism lines line)
      (sasl.respond crypto line.accounts line.nonce certFp line.text).1
      (sasl.respond crypto line.accounts line.nonce certFp line.text).2 := by
  rw [SaslSession.respond]
  by_cases aborted : line.text = "*"
  · rw [if_pos aborted]
    exact rfl
  rw [if_neg aborted]
  cases selected : sasl.mechanism with
  | none =>
    have idle := tracks.idle selected
    dsimp only
    cases Mechanism.fromName line.text with
    | none => exact idle
    | some mechanism =>
      refine ⟨nofun, fun other same => ?_⟩
      cases same
      rw [idle]
      refine ⟨[], .start, ?_⟩
      cases mechanism with
      | plain => exact ⟨rfl, rfl⟩
      | external => exact ⟨rfl, rfl⟩
      | scram => exact rfl
  | some mechanism =>
    obtain ⟨responses, received, phase⟩ := tracks.attempt mechanism selected
    dsimp only [linesAfter, Option.isSome_some, if_true]
    obtain ⟨later, refused⟩ | ⟨nonempty, full, kept⟩ | ⟨data, last, decoded, completed⟩ :=
      @pushChunk_cases crypto sasl line.text
    · rw [refused]
      exact rfl
    · rw [kept]
      refine ⟨fun absent => ?_, fun other same => ?_⟩
      · exact absurd (selected.symm.trans absent) nofun
      · cases selected.symm.trans same
        exact ⟨responses, received.chunk nonempty full, phase⟩
    · rw [completed]
      have complete := received.complete last decoded
      by_cases scram : mechanism = .scram
      · subst scram
        simp only [if_true]
        have emptied : ({ sasl with buffer := "" } : SaslSession).mechanism = some .scram := selected
        exact Settled.scramStep complete emptied rfl phase
      · simp only [if_neg scram]
        -- PLAIN and EXTERNAL end with their first response
        have first : responses = [] := by
          cases mechanism with
          | plain => exact phase.1
          | external => exact phase.1
          | scram => exact absurd rfl scram
        rw [first] at complete
        exact Settled.finishSasl complete _ scram

end Attempt

/-! ## The account of a client -/

namespace Server

theorem announceAccount_toTables (s : Server) (id : UInt64) (account : Option String) :
    (s.announceAccount id account).toTables = s.toTables := rfl

/-- Only a success changes the account, and nothing else of the client. -/
theorem answerSasl_entry (s : Server) (id : UInt64) (reply : SaslReply) :
    (s.answerSasl id reply).entry id =
      match reply with
      | .success account => { s.entry id with account := some account }
      | _ => s.entry id := by
  cases reply with
  | silent => rfl
  | challenge payload => rfl
  | failure code text => rfl
  | success account =>
    have tables : (s.saslSuccess id account).toTables =
        (s.modifyEntry id fun entry => { entry with account := some account }).toTables := by
      simp only [saslSuccess, numeric_toTables, announceAccount_toTables]
    have stored : (s.saslSuccess id account).entries =
        s.entries.insert id { s.entry id with account := some account } :=
      congrArg (fun t : Tables => t.entries) tables
    show (s.saslSuccess id account).entry id = _
    rw [Tables.entry, stored, AList.lookup_insert]
    rfl

end Server

namespace Connection

def account (c : Connection) : Option String :=
  (c.server.entry c.id).account

def registered (c : Connection) : Bool :=
  (c.server.entry c.id).registered

def hasSasl (c : Connection) : Bool :=
  (c.server.entry c.id).caps.has .sasl

/-- Whether a line is refused before the attempt is looked at. -/
def refuses (c : Connection) (params : List String) : Bool :=
  !c.registered && c.account.isSome || !c.hasSasl || params.isEmpty

variable (crypto : Crypto) (accounts : AccountStore) (nonce : Option String) (c : Connection)

/-- A line that is refused leaves the attempt alone. -/
theorem authenticate_refused {params : List String} (refused : c.refuses params = true) :
    ∃ code text, c.authenticate crypto accounts nonce params = (c.sasl, .failure code text) := by
  rw [authenticate.eq_def]
  dsimp only
  split
  · exact ⟨_, _, rfl⟩
  · rename_i notAlready
    split
    · exact ⟨_, _, rfl⟩
    · rename_i capable
      cases params with
      | nil => exact ⟨_, _, rfl⟩
      | cons arg rest =>
        simp only [refuses, registered, account, hasSasl, List.isEmpty_cons, Bool.or_false] at refused
        simp_all

theorem authenticate_letIn {params : List String} (letIn : c.refuses params = false) :
    ∃ arg rest, params = arg :: rest ∧
      c.authenticate crypto accounts nonce params = c.sasl.respond crypto accounts nonce c.certFp arg := by
  rw [refuses, Bool.or_eq_false_iff, Bool.or_eq_false_iff] at letIn
  obtain ⟨⟨notAlready, capable⟩, given⟩ := letIn
  cases params with
  | nil => cases given
  | cons arg rest =>
    refine ⟨arg, rest, rfl, ?_⟩
    simp only [account, registered, hasSasl] at notAlready capable
    simp [authenticate, notAlready, capable]

end Connection

/-! ## Runs -/

/-- A connection, and the lines of data since its mechanism was selected. -/
structure Login where
  conn : Connection
  lines : List DataLine

/-- An `AUTHENTICATE` line, with the accounts and the nonce there are when it comes. -/
structure Attempt where
  accounts : AccountStore
  nonce : Option String
  params : List String

namespace Login

/-- The lines of the attempt after one more; a line that is refused is none of them. -/
def presented (login : Login) (attempt : Attempt) : List DataLine :=
  match login.conn.refuses attempt.params, attempt.params with
  | false, arg :: _ => linesAfter login.conn.sasl.mechanism login.lines ⟨arg, attempt.accounts, attempt.nonce⟩
  | _, _ => login.lines

def authenticate (crypto : Crypto) (login : Login) (attempt : Attempt) : Login :=
  ⟨login.conn.cmdAuthenticate crypto attempt.accounts attempt.nonce attempt.params, login.presented attempt⟩

/-- What else happens: before it is registered a client has no way to another account. -/
def Elsewhere (login login' : Login) : Prop :=
  login'.lines = login.lines ∧ login'.conn.sasl = login.conn.sasl ∧ login'.conn.id = login.conn.id ∧
    login'.conn.certFp = login.conn.certFp ∧
    (login.conn.registered = true → login'.conn.registered = true) ∧
    (login'.conn.account = login.conn.account ∨ login'.conn.registered = true)

/-- A connection begins without an account and without an attempt. -/
def machine (crypto : Crypto) : Machine Login (Option Attempt) where
  start login := login.conn.account = none ∧ login.conn.sasl = {} ∧ login.lines = []
  step login event login' := match event with
    | some attempt => login' = login.authenticate crypto attempt
    | none => login.Elsewhere login'

/-- The account changes to one that was proved, and a failure ends the attempt. -/
structure Sound (crypto : Crypto) (login : Login) (attempt : Attempt) : Prop where
  earned : (login.authenticate crypto attempt).conn.account ≠ login.conn.account →
    ∃ account mechanism, (login.authenticate crypto attempt).conn.account = some account ∧
      login.conn.sasl.mechanism = some mechanism ∧
      Proves crypto login.conn.certFp (login.presented attempt) account mechanism
  closed : ∀ code text, (login.conn.authenticate crypto attempt.accounts attempt.nonce attempt.params).2 =
      .failure code text →
    (login.authenticate crypto attempt).conn.account = login.conn.account ∧
      (login.authenticate crypto attempt).conn.sasl = {}

/-- A line without a parameter, or from a client that gave up the capability, in the middle of an attempt. -/
def CutShort (login : Login) (attempt : Attempt) : Prop :=
  login.conn.sasl.mechanism ≠ none ∧ (attempt.params = [] ∨ login.conn.hasSasl = false)

/-- The attempt fits its lines, and there is none once a client has logged in to register. -/
structure Consistent (crypto : Crypto) (login : Login) : Prop where
  tracks : Tracks crypto login.lines login.conn.sasl
  early : login.conn.registered = false → login.conn.account ≠ none → login.conn.sasl.mechanism = none

variable {crypto : Crypto} {login : Login}

theorem account_authenticate (login : Login) (attempt : Attempt) :
    (login.authenticate crypto attempt).conn.account =
      match (login.conn.authenticate crypto attempt.accounts attempt.nonce attempt.params).2 with
      | .success account => some account
      | _ => login.conn.account := by
  show ((login.conn.server.answerSasl login.conn.id
    (login.conn.authenticate crypto attempt.accounts attempt.nonce attempt.params).2).entry login.conn.id).account = _
  rw [Server.answerSasl_entry]
  split <;> rfl

theorem registered_authenticate (login : Login) (attempt : Attempt) :
    (login.authenticate crypto attempt).conn.registered = login.conn.registered := by
  show ((login.conn.server.answerSasl login.conn.id
    (login.conn.authenticate crypto attempt.accounts attempt.nonce attempt.params).2).entry
      login.conn.id).registered = _
  rw [Server.answerSasl_entry]
  split <;> rfl

theorem sasl_authenticate (login : Login) (attempt : Attempt) :
    (login.authenticate crypto attempt).conn.sasl =
      (login.conn.authenticate crypto attempt.accounts attempt.nonce attempt.params).1 := rfl

namespace Consistent

/-- A line that is let in. -/
theorem settled (inv : Consistent crypto login) {attempt : Attempt}
    (letIn : login.conn.refuses attempt.params = false) :
    Settled crypto login.conn.certFp login.conn.sasl.mechanism (login.presented attempt)
      (login.conn.authenticate crypto attempt.accounts attempt.nonce attempt.params).1
      (login.conn.authenticate crypto attempt.accounts attempt.nonce attempt.params).2 := by
  obtain ⟨arg, rest, params, same⟩ :=
    login.conn.authenticate_letIn crypto attempt.accounts attempt.nonce letIn
  have lines : login.presented attempt =
      linesAfter login.conn.sasl.mechanism login.lines ⟨arg, attempt.accounts, attempt.nonce⟩ := by
    rw [presented, letIn, params]
  rw [same, lines]
  exact inv.tracks.respond ⟨arg, attempt.accounts, attempt.nonce⟩

theorem authenticate (inv : Consistent crypto login) (attempt : Attempt) :
    Consistent crypto (login.authenticate crypto attempt) := by
  cases letIn : login.conn.refuses attempt.params with
  | true =>
    obtain ⟨code, text, refused⟩ :=
      login.conn.authenticate_refused crypto attempt.accounts attempt.nonce letIn
    have lines : (login.authenticate crypto attempt).lines = login.lines := by
      show login.presented attempt = login.lines
      rw [presented, letIn]
    constructor
    · rw [lines, sasl_authenticate, refused]
      exact inv.tracks
    · rw [registered_authenticate, account_authenticate, sasl_authenticate, refused]
      exact inv.early
  | false =>
    have settled := inv.settled letIn
    have isLines : (login.authenticate crypto attempt).lines = login.presented attempt := rfl
    cases reply : (login.conn.authenticate crypto attempt.accounts attempt.nonce attempt.params).2 with
    | failure code text =>
      rw [reply] at settled
      have reset : (login.authenticate crypto attempt).conn.sasl = {} := settled
      constructor
      · rw [reset]
        exact .none _
      · intro _ _
        rw [reset]
    | success account =>
      rw [reply] at settled
      have reset : (login.authenticate crypto attempt).conn.sasl = {} := settled.1
      constructor
      · rw [reset]
        exact .none _
      · intro _ _
        rw [reset]
    | silent =>
      rw [reply] at settled
      refine ⟨settled, fun early isIn => ?_⟩
      rw [account_authenticate, reply] at isIn
      rw [registered_authenticate] at early
      -- such a client is refused
      have already : login.conn.refuses attempt.params = true := by
        rw [Connection.refuses, early, Option.isSome_iff_ne_none.mpr isIn]
        rfl
      rw [already] at letIn
      cases letIn
    | challenge payload =>
      rw [reply] at settled
      refine ⟨settled, fun early isIn => ?_⟩
      rw [account_authenticate, reply] at isIn
      rw [registered_authenticate] at early
      have already : login.conn.refuses attempt.params = true := by
        rw [Connection.refuses, early, Option.isSome_iff_ne_none.mpr isIn]
        rfl
      rw [already] at letIn
      cases letIn

theorem elsewhere (inv : Consistent crypto login) {login' : Login} (other : login.Elsewhere login') :
    Consistent crypto login' := by
  obtain ⟨lines, sasl, -, -, stays, account⟩ := other
  constructor
  · rw [lines, sasl]
    exact inv.tracks
  · intro early isIn
    rw [sasl]
    have before : login.conn.registered = false := by
      cases was : login.conn.registered with
      | false => rfl
      | true => exact absurd (stays was) (by simp [early])
    rcases account with same | late
    · exact inv.early before (same ▸ isIn)
    · rw [early] at late
      cases late

/-- A line is sound exactly if it does not cut an attempt short. -/
theorem sound_iff (inv : Consistent crypto login) (attempt : Attempt) :
    login.Sound crypto attempt ↔ ¬ login.CutShort attempt := by
  constructor
  · rintro sound ⟨selected, refusal⟩
    have refused : login.conn.refuses attempt.params = true := by
      rw [Connection.refuses]
      rcases refusal with none | incapable
      · simp [none]
      · simp [incapable]
    obtain ⟨code, text, same⟩ := login.conn.authenticate_refused crypto attempt.accounts attempt.nonce refused
    have closed := (sound.closed code text (by rw [same])).2
    rw [sasl_authenticate, same] at closed
    dsimp only at closed
    rw [closed] at selected
    exact selected rfl
  · intro whole
    cases letIn : login.conn.refuses attempt.params with
    | true =>
      obtain ⟨code, text, same⟩ := login.conn.authenticate_refused crypto attempt.accounts attempt.nonce letIn
      -- a refused AUTHENTICATE leaves an exchange open, unless there was none
      have idle : login.conn.sasl = {} := by
        refine inv.tracks.idle ?_
        by_contra selected
        rw [Connection.refuses, Bool.or_eq_true, Bool.or_eq_true] at letIn
        obtain (already | incapable) | none := letIn
        · rw [Bool.and_eq_true, Bool.not_eq_true', Option.isSome_iff_ne_none] at already
          exact selected (inv.early already.1 already.2)
        · rw [Bool.not_eq_true'] at incapable
          exact whole ⟨selected, .inr incapable⟩
        · exact whole ⟨selected, .inl (List.isEmpty_iff.mp none)⟩
      have account : (login.authenticate crypto attempt).conn.account = login.conn.account := by
        rw [account_authenticate, same]
      constructor
      · exact fun changed => absurd account changed
      · intro _ _ _
        refine ⟨account, ?_⟩
        rw [sasl_authenticate, same]
        exact idle
    | false =>
      have settled := inv.settled letIn
      constructor
      · intro changed
        rw [account_authenticate] at changed
        cases reply : (login.conn.authenticate crypto attempt.accounts attempt.nonce attempt.params).2 with
        | success account =>
          rw [reply] at settled
          obtain ⟨-, mechanism, selected, proves⟩ := settled
          exact ⟨account, mechanism, by rw [account_authenticate, reply], selected, proves⟩
        | silent => exact absurd rfl (by rwa [reply] at changed)
        | challenge payload => exact absurd rfl (by rwa [reply] at changed)
        | failure code text => exact absurd rfl (by rwa [reply] at changed)
      · intro code text reply
        rw [reply] at settled
        exact ⟨by rw [account_authenticate, reply], settled⟩

end Consistent

theorem run_consistent (run : (machine crypto).Reachable login) : Consistent crypto login := by
  refine run.invariant (I := Consistent crypto) ?_ ?_
  · rintro login ⟨fresh, idle, -⟩
    constructor
    · rw [idle]
      exact .none _
    · exact fun _ isIn => absurd fresh isIn
  · intro login event next inv _ taken
    cases event with
    | none => exact inv.elsewhere taken
    | some attempt =>
      cases taken
      exact inv.authenticate attempt

/-- In every run, an `AUTHENTICATE` line changes the account only to one that the client has proved since
it selected the mechanism, and ends the attempt if it fails, exactly if it does not cut an attempt short. -/
theorem run_sound (run : (machine crypto).Reachable login) (attempt : Attempt) :
    login.Sound crypto attempt ↔ ¬ login.CutShort attempt :=
  (run_consistent run).sound_iff attempt

/-- What the libraries do to the credentials `alice` and `s3cret`. -/
def aliceCrypto : Crypto where
  argon2 hash password := hash = "$argon2id$alice" ∧ password = "s3cret"
  hmac _ _ := []
  sha256 _ := []
  encodeBase64 _ := ""
  decodeBase64 text := if text = "AGFsaWNlAHMzY3JldA==" then some (utf8 "\x00alice\x00s3cret") else none

/-- A client that negotiated `sasl`. -/
def capable : Login where
  conn := ⟨{ Server.alpha with entries := AList.insert 1 { caps := [.sasl] } ∅ }, 1, none, {}⟩
  lines := []

def aliceAccounts : AccountStore where
  casemapping := .ascii
  accounts := AList.insert "alice" ⟨"Alice", some "$argon2id$alice", none, []⟩ ∅

def selectPlain : Attempt :=
  ⟨aliceAccounts, none, ["PLAIN"]⟩

theorem run_sound_plain :
    (capable.authenticate aliceCrypto selectPlain).Sound aliceCrypto
        ⟨aliceAccounts, none, ["AGFsaWNlAHMzY3JldA=="]⟩ ↔
      ¬ (capable.authenticate aliceCrypto selectPlain).CutShort
        ⟨aliceAccounts, none, ["AGFsaWNlAHMzY3JldA=="]⟩ := by
  have started : (machine aliceCrypto).Reachable capable := .start ⟨by decide, rfl, rfl⟩
  exact run_sound (.step (e := some selectPlain) started trivial rfl) _

/-- After `AUTHENTICATE PLAIN`, an `AUTHENTICATE` without a parameter fails and leaves the attempt. -/
theorem parameterless_fails :
    ¬ ∀ login, (machine aliceCrypto).Reachable login → ∀ attempt, login.Sound aliceCrypto attempt := by
  intro sound
  have started : (machine aliceCrypto).Reachable capable := .start ⟨by decide, rfl, rfl⟩
  have selected : (machine aliceCrypto).Reachable (capable.authenticate aliceCrypto selectPlain) :=
    .step (e := some selectPlain) started trivial rfl
  have closed := ((sound _ selected ⟨aliceAccounts, none, []⟩).closed errSaslFail "SASL authentication failed"
    (by decide)).2
  exact absurd (congrArg SaslSession.mechanism closed) (by decide)

end Login

end Ferrixd
