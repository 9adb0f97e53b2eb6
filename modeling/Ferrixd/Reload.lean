import Ferrixd.Data.Fallible
import Ferrixd.Login.Accounts
import Ferrixd.State.Types

/-! # REHASH

The configuration file is read again and its reloadable part replaces what the server runs with. -/

namespace Ferrixd

/-! ## Configuration -/

/-- A listen address. -/
structure SocketAddr where
  text : String
  isLoopback : Bool
  deriving DecidableEq

structure AccountConfig where
  name : String
  password : Option String := none
  passwordHash : Option String := none
  scram : Option String := none
  fingerprints : List String := []

structure OperatorConfig where
  name : String
  password : Option String := none
  passwordHash : Option String := none
  hosts : List String := []

structure BanConfig where
  mask : String
  reason : String := "Banned"

structure WebircConfig where
  name : String
  password : String
  hosts : List String
  deriving DecidableEq

inductive LinkProtocol where
  | ferrix
  | ts6
  deriving DecidableEq

structure LinkConfig where
  name : String
  connect : Option SocketAddr := none
  fingerprint : String
  password : String
  protocol : LinkProtocol := .ferrix
  deriving DecidableEq

structure TlsConfig where
  cert : Option String := none
  key : Option String := none
  selfSignedDev : Bool := false
  devHostnames : List String := ["localhost"]

structure ServerConfig where
  motd : List String := []
  plainBind : Option SocketAddr := none
  allowPlainNonlocal : Bool := false
  wsBind : Option SocketAddr := none
  password : Option String := none

structure LimitsConfig where
  maxTagBytes : Nat := 8191
  maxBodyBytes : Nat := 512
  maxLineBytes : Nat := 8191 + 512 + 1

structure Config where
  server : ServerConfig := {}
  tls : TlsConfig := {}
  limits : LimitsConfig := {}
  accounts : List AccountConfig := []
  operators : List OperatorConfig := []
  bans : List BanConfig := []
  links : List LinkConfig := []
  webirc : List WebircConfig := []

inductive ConfigError where
  | read (path : String)
  | parse (path : String)
  | invalid (text : String)

def ConfigError.text : ConfigError → String
  | .read path => "reading config " ++ path
  | .parse path => "parsing config " ++ path
  | .invalid text => "invalid config: " ++ text

/-- A plaintext listener that anybody can reach, without the operator's consent. -/
def ServerConfig.exposes (server : ServerConfig) (addr : SocketAddr) : Bool :=
  !addr.isLoopback && !server.allowPlainNonlocal

namespace Config

variable (crypto : Crypto) (config : Config)

/-- The first account whose SCRAM token cannot be decoded. -/
def malformedScram : Option AccountConfig :=
  config.accounts.find? fun account => account.scram.any fun token => (ScramCreds.decode crypto token).isNone

/-- Refuse the configuration where there is something to complain about. -/
def ensure (complaint : Option String) : Except ConfigError Unit :=
  match complaint with
  | none => .ok ()
  | some text => .error (.invalid text)

/-- Check cross-field invariants that the type system cannot. -/
def validate : Except ConfigError Unit := do
  ensure ((config.server.plainBind.filter config.server.exposes).map fun addr =>
    "plain_bind " ++ addr.text ++ " is not loopback; set allow_plain_nonlocal = true to permit " ++
      "cleartext on a public interface (not recommended)")
  ensure ((config.server.wsBind.filter config.server.exposes).map fun addr =>
    "ws_bind " ++ addr.text ++ " is not loopback; set allow_plain_nonlocal = true to permit " ++
      "cleartext WebSocket on a public interface (use wss_bind instead)")
  ensure (if config.tls.cert.isSome != config.tls.key.isSome then
    some "tls.cert and tls.key must be set together" else none)
  ensure (if !(config.tls.cert.isSome && config.tls.key.isSome) && !config.tls.selfSignedDev then
    some "tls requires either cert+key or self_signed_dev = true" else none)
  ensure ((config.malformedScram crypto).map fun account =>
    "account " ++ account.name ++ ": malformed scram credential (expected " ++
      "<iterations>:<b64 salt>:<b64 stored_key>:<b64 server_key>, " ++
      "as printed by `ferrixd hash-password --toml`)")
  let minLine := config.limits.maxTagBytes + config.limits.maxBodyBytes
  ensure (if config.limits.maxLineBytes < minLine then
    some ("limits.max_line_bytes (" ++ toString config.limits.maxLineBytes ++
      ") must be >= max_tag_bytes + max_body_bytes (" ++ toString minLine ++ ")") else none)

end Config

/-! ## Hashing -/

/-- The libraries and the random source that password hashing rests on. -/
structure Hashing where
  crypto : Crypto
  /-- The successive 16 bytes that the operating system gives, or its refusal. -/
  entropy : Nat → Except String Bytes
  argon2Hash : Bytes → Bytes → Except String String
  pbkdf2 : Bytes → Bytes → UInt32 → Bytes
  /-- `str::to_lowercase`, by the Unicode tables. -/
  toLowercase : String → String

def scramIterations : UInt32 := 4096

namespace Hashing

variable (hashing : Hashing)

def randomSaltBytes : Draw String Nat Bytes := fun drawn =>
  match hashing.entropy drawn with
  | .ok salt => .ok (salt, drawn + 1)
  | .error reason => .error ("gathering entropy for salt: " ++ reason)

/-- Hash a password with a fresh random salt. -/
def hashPasswordRandom (password : String) : Draw String Nat String := fun drawn => do
  let (salt, drawn) ← hashing.randomSaltBytes drawn
  let hash ← hashing.argon2Hash (utf8 password) salt
  return (hash, drawn)

/-- Derive SCRAM credentials from a plaintext password. -/
def derive (password : String) (salt : Bytes) (iterations : UInt32) : ScramCreds :=
  let salted := hashing.pbkdf2 (utf8 password) salt iterations
  { salt, iterations
    storedKey := hashing.crypto.sha256 (hashing.crypto.hmac salted (utf8 "Client Key"))
    serverKey := hashing.crypto.hmac salted (utf8 "Server Key") }

end Hashing

/-! ## The running server -/

/-- A self-registered account as the database has it. -/
structure AccountRecord where
  folded : String
  display : String
  passwordHash : Option String
  scram : Option ScramCreds

/-- What a REHASH replaces. -/
structure Settings where
  accounts : AccountStore
  opers : AccountStore
  operHosts : Table String (List String)
  serverBans : List ServerBan
  motd : List String
  clientPassword : Option String
  webirc : List WebircConfig
  linkConfigs : List LinkConfig

/-- The server, as far as a REHASH sees it. -/
structure Daemon extends Settings where
  configPath : Option String
  /-- The TLS material the listeners use, where there are any. -/
  tls : Option Bytes
  linkClientConfig : Option Bytes
  /-- The persisted accounts, where there is a database. -/
  chanreg : Option (List AccountRecord)
  /-- How often the random source has been asked. -/
  drawn : Nat

/-- What a REHASH finds outside the server: files, certificates, the clock. -/
structure Surroundings where
  hashing : Hashing
  /-- Read a file and parse it. -/
  parse : String → Except ConfigError Config
  buildServerConfig : TlsConfig → Except String Bytes
  buildLinkClientConfig : TlsConfig → Except String Bytes
  nowUnix : UInt64

/-- A change of the server that can fail half way. -/
abbrev Rehash := EStateM String Daemon

/-- Let something outside the server succeed or fail. -/
def attempt {α : Type} (result : Except String α) : Rehash α :=
  match result with
  | .ok value => pure value
  | .error reason => throw reason

/-- Ask the random source. -/
def draw {α : Type} (source : Draw String Nat α) : Rehash α := do
  let (value, drawn) ← attempt (source (← get).drawn)
  modify fun daemon => { daemon with drawn }
  return value

def withAccounts (change : AccountStore → AccountStore) : Rehash Unit :=
  modify fun daemon => { daemon with accounts := change daemon.accounts }

/-- Set a password from plaintext; nothing is stored before both salts are drawn. -/
def setPassword (hashing : Hashing) (name password : String) : Rehash Unit := do
  let hash ← draw (hashing.hashPasswordRandom password)
  let salt ← draw hashing.randomSaltBytes
  withAccounts fun store => store.setCredentials name hash (hashing.derive password salt scramIterations)

/-- A plaintext password counts only where no hash is given. -/
def applyPassword (hashing : Hashing) (account : AccountConfig) : Rehash Unit :=
  match account.passwordHash, account.password with
  | some hash, _ => withAccounts fun store => store.upsertPassword account.name hash
  | none, some password => setPassword hashing account.name password
  | none, none => pure ()

def applyScram (hashing : Hashing) (account : AccountConfig) : Rehash Unit :=
  match account.scram with
  | none => pure ()
  | some token =>
    match ScramCreds.decode hashing.crypto token with
    | some creds => withAccounts fun store => store.upsertScram account.name creds
    | none => throw ("account " ++ account.name ++ ": malformed scram credential")

/-- One round of the loop over the accounts. -/
def applyAccount (hashing : Hashing) (account : AccountConfig) : Rehash Unit := do
  applyPassword hashing account
  applyScram hashing account
  account.fingerprints.forM fun fingerprint =>
    withAccounts fun store => store.addFingerprint account.name (hashing.toLowercase fingerprint)

/-- The hash of an operator's password. -/
def operatorHash (hashing : Hashing) (oper : OperatorConfig) : Draw String Nat String := fun drawn =>
  match oper.passwordHash, oper.password with
  | some hash, _ => .ok (hash, drawn)
  | none, some password => hashing.hashPasswordRandom password drawn
  | none, none => .error ("operator " ++ oper.name ++ " has no password")

/-- One round of the loop over the operators. -/
def applyOperator (hashing : Hashing) (oper : OperatorConfig) : Rehash Unit := do
  let hash ← draw (operatorHash hashing oper)
  modify fun daemon => { daemon with
    opers := daemon.opers.upsertPassword oper.name hash
    operHosts := daemon.operHosts.insert oper.name oper.hosts }

def BanConfig.toServerBan (nowUnix : UInt64) (ban : BanConfig) : ServerBan :=
  { mask := ban.mask, reason := ban.reason, setBy := "config", setAt := nowUnix }

/-- Existing names are left untouched. -/
def restorePersistedAccounts : Rehash Unit :=
  modify fun daemon => { daemon with
    accounts := (daemon.chanreg.getD []).foldl
      (fun store record => store.restoreIfAbsent record.display record.passwordHash record.scram) daemon.accounts }

/-- Apply the reloadable part of a configuration. -/
def applyConfig (hashing : Hashing) (nowUnix : UInt64) (config : Config) : Rehash Unit := do
  withAccounts AccountStore.clear
  config.accounts.forM (applyAccount hashing)
  modify fun daemon => { daemon with opers := daemon.opers.clear, operHosts := ∅ }
  config.operators.forM (applyOperator hashing)
  modify fun daemon => { daemon with
    serverBans := config.bans.map (BanConfig.toServerBan nowUnix)
    motd := config.server.motd
    clientPassword := config.server.password
    webirc := config.webirc
    linkConfigs := config.links }
  restorePersistedAccounts

/-- Load and validate a configuration. -/
def Config.load (around : Surroundings) (path : String) : Except ConfigError Config := do
  let config ← around.parse path
  config.validate around.hashing.crypto
  return config

/-- New TLS material for the listeners, where there are any. -/
def stageTls (around : Surroundings) (installed : Option Bytes) (tls : TlsConfig) : Except String (Option Bytes) :=
  match installed with
  | some _ => ((around.buildServerConfig tls).mapError ("reloading TLS material: " ++ ·)).map some
  | none => .ok none

/-- What has to succeed before anything is applied. -/
def stage (around : Surroundings) (daemon : Daemon) : Except String (Config × Option Bytes × Bytes) := do
  let path ← daemon.configPath.elim (.error "no config path recorded") .ok
  let config ← (Config.load around path).mapError ConfigError.text
  let staged ← stageTls around daemon.tls config.tls
  let client ← (around.buildLinkClientConfig config.tls).mapError ("building link client TLS: " ++ ·)
  return (config, staged, client)

/-- Reload the configuration without dropping connections. -/
def rehash (around : Surroundings) : Rehash Unit := do
  let (config, staged, client) ← attempt (stage around (← get))
  applyConfig around.hashing around.nowUnix config
  modify fun daemon => { daemon with
    tls := if daemon.tls.isSome then staged else daemon.tls
    linkClientConfig := some client }

end Ferrixd
