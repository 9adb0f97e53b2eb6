import Ferrixd.Login.Accounts
import Ferrixd.State.Session

/-! # AUTHENTICATE

A client selects a mechanism and sends its credentials in base64, in chunks.  SCRAM takes three
responses: the first message, the proof, and an empty acknowledgement. -/

namespace Ferrixd

def rplLoggedIn : Nat := 900
def rplSaslSuccess : Nat := 903
def errSaslFail : Nat := 904
def errSaslTooLong : Nat := 905
def errSaslAborted : Nat := 906
def errSaslAlready : Nat := 907

/-! ## SCRAM-SHA-256 -/

/-- The last field of a list that begins with a key, without the key. -/
def lastField (fields : List String) (key : String) : Option String :=
  (fields.filterMap fun field => stripLead? field key).getLast?

/-- What stands after the first comma. -/
def afterComma (text : List Char) : Option (List Char) :=
  match text.dropWhile fun c => c != ',' with
  | [] => none
  | _ :: rest => some rest

/-- The client's first message without the GS2 header. -/
def clientFirstBare (clientFirst : String) : Option String :=
  ((afterComma clientFirst.toList).bind afterComma).map String.ofList

/-- A SCRAM exchange, after the server's first message. -/
structure Exchange where
  account : String
  creds : ScramCreds
  clientFirstBare : String
  serverFirst : String
  combinedNonce : String
  deriving DecidableEq

namespace Exchange

def start (crypto : Crypto) (clientFirst serverNonce : String)
    (lookup : String → Option (String × ScramCreds)) : Option (Exchange × String) := do
  let bare ← Ferrixd.clientFirstBare clientFirst
  let username ← lastField (bare.splitOn ",") "n="
  let clientNonce ← lastField (bare.splitOn ",") "r="
  let (account, creds) ← lookup username
  let combinedNonce := clientNonce ++ serverNonce
  let serverFirst := "r=" ++ combinedNonce ++ ",s=" ++ crypto.encodeBase64 creds.salt ++ ",i=" ++
    toString creds.iterations
  return (⟨account, creds, bare, serverFirst, combinedNonce⟩, serverFirst)

def withoutProof (exchange : Exchange) : String :=
  "c=biws,r=" ++ exchange.combinedNonce

def authMessage (exchange : Exchange) : String :=
  exchange.clientFirstBare ++ "," ++ exchange.serverFirst ++ "," ++ exchange.withoutProof

/-- Verify the client's proof; the server's signature is returned. -/
def finish (crypto : Crypto) (exchange : Exchange) (clientFinal : String) : Option String := do
  -- the channel binding is not looked at
  let nonce ← lastField (clientFinal.splitOn ",") "r="
  if nonce ≠ exchange.combinedNonce then none
  else
    let proof ← (← lastField (clientFinal.splitOn ",") "p=") |> crypto.decodeBase64
    if proof.length ≠ 32 then none
    else
      let signature := crypto.hmac exchange.creds.storedKey (utf8 exchange.authMessage)
      let clientKey := List.zipWith (fun left right => left ^^^ right) proof signature
      if crypto.sha256 clientKey ≠ exchange.creds.storedKey then none
      else
        some ("v=" ++ crypto.encodeBase64 (crypto.hmac exchange.creds.serverKey (utf8 exchange.authMessage)))

end Exchange

/-! ## The state of an attempt -/

inductive Mechanism where
  | plain
  | external
  | scram
  deriving DecidableEq

def Mechanism.fromName (name : String) : Option Mechanism :=
  match asciiUpper name with
  | "PLAIN" => some .plain
  | "EXTERNAL" => some .external
  | "SCRAM-SHA-256" => some .scram
  | _ => none

inductive ScramPhase where
  | idle
  | awaitingClientFirst
  | awaitingClientFinal (exchange : Exchange)
  | awaitingFinalAck (account : String)
  deriving DecidableEq

structure SaslSession where
  mechanism : Option Mechanism := none
  scram : ScramPhase := .idle
  buffer : String := ""
  deriving DecidableEq

def maxSaslLen : Nat := 8192

def chunkLen : Nat := 400

inductive ChunkResult where
  | needMore
  | complete (data : Bytes)
  | invalid

/-- What a line makes the server answer. -/
inductive SaslReply where
  /-- Nothing: further chunks are expected. -/
  | silent
  | challenge (payload : String)
  | failure (code : Nat) (text : String)
  | success (account : String)
  deriving DecidableEq

/-- The fields of a PLAIN response. -/
def decodePlain (data : Bytes) : Option (String × String × String) :=
  match data.splitOn 0 with
  | [authzid, authcid, password] => do
    return (← fromUtf8? authzid, ← fromUtf8? authcid, ← fromUtf8? password)
  | _ => none

def saslFailed : SaslReply :=
  .failure errSaslFail "SASL authentication failed"

namespace SaslSession

variable (crypto : Crypto) (sasl : SaslSession)

def reset (_sasl : SaslSession) : SaslSession :=
  {}

/-- Take one chunk; `+` is the empty one, and one that is not full ends the response. -/
def pushChunk (chunk : String) : SaslSession × ChunkResult :=
  if chunk ≠ "+" ∧ maxSaslLen < sasl.buffer.utf8ByteSize + chunk.utf8ByteSize then (sasl, .invalid)
  else
    let buffer := if chunk = "+" then sasl.buffer else sasl.buffer ++ chunk
    if chunk = "+" ∨ chunk.utf8ByteSize < chunkLen then
      ({ sasl with buffer := "" }, (crypto.decodeBase64 buffer).elim .invalid .complete)
    else ({ sasl with buffer }, .needMore)

/-- The end of a PLAIN or EXTERNAL attempt. -/
def finishSasl (accounts : AccountStore) (certFp : Option String) (mechanism : Mechanism) (data : Bytes) :
    SaslSession × SaslReply :=
  let result := match mechanism with
    | .plain => (decodePlain data).bind fun (_, authcid, password) =>
        accounts.verifyPassword crypto authcid password
    | .external => certFp.bind fun fp => accounts.verifyFingerprint (fromUtf8Lossy data) fp
    | .scram => none
  (sasl.reset, result.elim saslFailed .success)

/-- One response of a SCRAM exchange.  `nonce` is what the random generator gives, if it works. -/
def scramStep (accounts : AccountStore) (nonce : Option String) (data : Bytes) : SaslSession × SaslReply :=
  match fromUtf8? data with
  | none => (sasl.reset, saslFailed)
  | some text =>
    match sasl.scram with
    | .awaitingClientFirst =>
      match nonce.bind fun nonce => Exchange.start crypto text nonce accounts.scramLookup with
      | some (exchange, serverFirst) =>
        ({ sasl with scram := .awaitingClientFinal exchange },
          .challenge (crypto.encodeBase64 (utf8 serverFirst)))
      | none => (sasl.reset, saslFailed)
    | .awaitingClientFinal exchange =>
      match exchange.finish crypto text with
      | some serverFinal =>
        ({ sasl with scram := .awaitingFinalAck exchange.account },
          .challenge (crypto.encodeBase64 (utf8 serverFinal)))
      | none => (sasl.reset, saslFailed)
    -- whatever the client answers to the server's signature
    | .awaitingFinalAck account => (sasl.reset, .success account)
    | .idle => (sasl.reset, saslFailed)

/-- The argument of a line that is let in. -/
def respond (accounts : AccountStore) (nonce certFp : Option String) (arg : String) : SaslSession × SaslReply :=
  if arg = "*" then (sasl.reset, .failure errSaslAborted "SASL authentication aborted")
  else match sasl.mechanism with
    | none =>
      match Mechanism.fromName arg with
      | some mechanism =>
        ({ sasl with
            mechanism := some mechanism
            scram := if mechanism = .scram then .awaitingClientFirst else sasl.scram }, .challenge "+")
      -- an unknown mechanism leaves the session as it is
      | none => (sasl, saslFailed)
    | some mechanism =>
      match sasl.pushChunk crypto arg with
      | (sasl, .needMore) => (sasl, .silent)
      | (sasl, .invalid) => (sasl.reset, .failure errSaslTooLong "SASL message too long")
      | (sasl, .complete data) =>
        if mechanism = .scram then sasl.scramStep crypto accounts nonce data
        else sasl.finishSasl crypto accounts certFp mechanism data

end SaslSession

/-! ## The command -/

namespace Server

/-- Deliver an event to the co-members and the watchers of a client that have two capabilities. -/
def propagateMonitored (s : Server) (id : UInt64) (event : Event) (required : Cap) : Server :=
  let shared := (s.entry id).channels.flatMap fun folded =>
    ((s.findChannel folded).map fun channel => channel.members.keys).getD []
  let seen := (shared.filter fun other => other ≠ id ∧ (s.entry other).caps.has required).eraseDups
  let watching := (watchers s.monitors (s.fold (s.entry id).nick)).filter fun other =>
    other ≠ id ∧ other ∉ seen ∧ other ∈ s.byId ∧ (s.entry other).caps.has .extendedMonitor ∧
      (s.entry other).caps.has required
  (s.sendEvent seen event).sendEvent watching event

def propagateAccount (s : Server) (id : UInt64) (account : Option String) : Server :=
  s.propagateToLinks (.saccount (s.localUid id) (account.getD "*"))

def announceAccount (s : Server) (id : UInt64) (account : Option String) : Server :=
  let body := s.userLine id |>.command "ACCOUNT" |>.param (account.getD "*") |>.body
  (s.propagateMonitored id (s.event id body) .accountNotify).propagateAccount id account

/-- The end of every successful attempt. -/
def saslSuccess (s : Server) (id : UInt64) (account : String) : Server :=
  let s := s.modifyEntry id fun entry => { entry with account := some account }
  let s := s.announceAccount id (some account)
  let entry := s.entry id
  let user := if entry.user = "" then "*" else entry.user
  let s := s.numeric id rplLoggedIn [hostmask entry.nick user entry.host, account]
    (some ("You are now logged in as " ++ account))
  s.numeric id rplSaslSuccess [] (some "SASL authentication successful")

def answerSasl (s : Server) (id : UInt64) : SaslReply → Server
  | .silent => s
  | .challenge payload => s.send id (Line.bare |>.command "AUTHENTICATE" |>.param payload |>.build)
  | .failure code text => s.numeric id code [] (some text)
  | .success account => s.saslSuccess id account

end Server

/-- A connection: its server and id, the fingerprint of its certificate, and its attempt. -/
structure Connection where
  server : Server
  id : UInt64
  certFp : Option String
  sasl : SaslSession

namespace Connection

/-- What `AUTHENTICATE` does to the attempt, and the answer. -/
def authenticate (crypto : Crypto) (accounts : AccountStore) (nonce : Option String) (c : Connection)
    (params : List String) : SaslSession × SaslReply :=
  let entry := c.server.entry c.id
  if !entry.registered && entry.account.isSome then
    (c.sasl, .failure errSaslAlready "You have already authenticated using SASL")
  else if !entry.caps.has .sasl then (c.sasl, saslFailed)
  else match params with
    | [] => (c.sasl, saslFailed)
    | arg :: _ => c.sasl.respond crypto accounts nonce c.certFp arg

/-- `AUTHENTICATE`. -/
def cmdAuthenticate (crypto : Crypto) (accounts : AccountStore) (nonce : Option String) (c : Connection)
    (params : List String) : Connection :=
  let (sasl, reply) := c.authenticate crypto accounts nonce params
  { c with server := c.server.answerSasl c.id reply, sasl }

end Connection

end Ferrixd
