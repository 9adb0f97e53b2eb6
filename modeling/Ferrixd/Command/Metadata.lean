import Ferrixd.Command.Monitor
import Ferrixd.Data.Weight

/-! # METADATA

Clients and channels carry a few values under keys.  A client that subscribes to a key is told when it changes on
somebody it can see. -/

namespace Ferrixd

def maxMetadataKeys : Nat := 20
def maxMetadataSubs : Nat := 20
def maxMetadataKeyLen : Nat := 32
def maxMetadataValueLen : Nat := 300

def rplKeyValue : Nat := 761
def rplMetadataEnd : Nat := 762
def rplMetadataSubOk : Nat := 770
def rplMetadataUnsubOk : Nat := 771
def rplMetadataSubs : Nat := 772

def validMetadataKey (key : String) : Bool :=
  key != "" && key.utf8ByteSize ≤ maxMetadataKeyLen &&
    key.toList.all fun c => c.isAlphanum || c = '_' || c = '-' || c = '.' || c = ':' || c = '/'

/-- Set or unset a key.  A new key is dropped when there are too many. -/
def applyMetadata (map : Table String String) (key : String) (value : Option String) : Table String String :=
  match value with
  | some value => if map.keys.length < maxMetadataKeys ∨ key ∈ map then map.insert key value else map
  | none => map.erase key

/-- A server with the metadata of its clients and channels, and the keys that clients subscribe to. -/
structure Annotated where
  server : Server
  clients : UInt64 → Table String String
  channels : String → Table String String
  subs : UInt64 → List String

/-- What a client is told, and whom its changes are announced to. -/
inductive MetadataReply where
  | keyValue (target key : String) (value : Option String)
  | metadataEnd (text : String)
  | subOk (key : String)
  | unsubOk (key : String)
  | subs (keys : List String)
  | fail (code : String) (context : List String) (text : String)
  | announce (target key : String) (value : Option String)
  deriving DecidableEq

namespace Annotated

variable (m : Annotated) (id : UInt64)

/-- The target is the client itself. -/
def isSelfTarget (target : String) : Bool :=
  target = "*" || (!isValidChannel target && m.server.fold target = m.server.fold (m.server.entry id).nick)

def metadataSnapshot (target : String) : Option (Table String String) :=
  if m.isSelfTarget id target then some (m.clients id)
  else if isValidChannel target then
    (m.server.findChannel (m.server.fold target)).map fun _ => m.channels (m.server.fold target)
  else (m.server.findClient (m.server.fold target)).map m.clients

/-- The client is an operator of the channel. -/
def operates (target : String) : Bool :=
  (m.server.findChannel (m.server.fold target)).any fun channel => (channel.members.lookup id).any (·.op)

/-- Change the metadata of a target, if that is permitted. -/
def changeMetadata (target : String) (change : Table String String → Table String String) : Option Annotated :=
  if m.isSelfTarget id target then
    some { m with clients := fun other => if other = id then change (m.clients id) else m.clients other }
  else if isValidChannel target && m.operates id target then
    let folded := m.server.fold target
    some { m with channels := fun name => if name = folded then change (m.channels folded) else m.channels name }
  else none

def metadataSet (target key : String) (value : Option String) : Option Annotated :=
  m.changeMetadata id target fun map => applyMetadata map key value

def metadataClear (target : String) : Option Annotated :=
  m.changeMetadata id target fun _ => ∅

def getKey (map : Table String String) (target key : String) : MetadataReply :=
  match map.lookup key with
  | some value => .keyValue target key (some value)
  | none => .fail "KEY_NOT_SET" [target, key] "Key not set"

/-- Subscribe to keys one after the other, until there are too many. -/
def subscribe : List String → Annotated → Annotated × List MetadataReply
  | [], m => (m, [])
  | key :: keys, m =>
    -- an invalid key is passed over, a full list ends the command
    if !validMetadataKey key then
      let (m, replies) := subscribe keys m
      (m, .fail "KEY_INVALID" [key] "Invalid key" :: replies)
    else if maxMetadataSubs ≤ (m.subs id).length ∧ key ∉ m.subs id then
      (m, [.fail "TOO_MANY_SUBS" [key] "Too many subscriptions"])
    else
      let m := { m with subs := fun other => if other = id then (m.subs id).insert key else m.subs other }
      let (m, replies) := subscribe keys m
      (m, .subOk key :: replies)

/-- `METADATA`. -/
def cmdMetadata (params : List String) : Annotated × List MetadataReply :=
  match params with
  | target :: sub :: rest =>
    match asciiUpper sub with
    | "GET" =>
      match m.metadataSnapshot id target with
      | none => (m, [.fail "INVALID_TARGET" [target] "No such target"])
      | some map => (m, rest.map (getKey map target))
    | "LIST" =>
      match m.metadataSnapshot id target with
      | none => (m, [.fail "INVALID_TARGET" [target] "No such target"])
      | some map => (m, map.entries.map (fun entry => .keyValue target entry.1 (some entry.2)) ++
          [.metadataEnd "End of metadata"])
    | "SET" =>
      match rest with
      | [] => (m, [.fail "INVALID_PARAMS" ["SET"] "Missing key"])
      | key :: more =>
        -- an empty value deletes the key
        let value := more.head?.filter fun value => value ≠ ""
        if !validMetadataKey key then (m, [.fail "KEY_INVALID" [target, key] "Invalid key"])
        else if value.any fun value => maxMetadataValueLen < value.utf8ByteSize then
          (m, [.fail "VALUE_INVALID" [target, key] "Value too long"])
        else
          match m.metadataSet id target key value with
          | none => (m, [.fail "KEY_NO_PERMISSION" [target, key] "Permission denied"])
          | some m => (m, [.keyValue target key value, .announce target key value])
    | "CLEAR" =>
      -- the keys are read before they are cleared, for the announcements
      let keys := ((m.metadataSnapshot id target).map fun map => map.keys).getD []
      match m.metadataClear id target with
      | none => (m, [.fail "KEY_NO_PERMISSION" [target] "Permission denied"])
      | some m => (m, keys.map (fun key => .announce target key none) ++ [.metadataEnd "End of metadata"])
    | "SUB" =>
      if rest = [] then (m, [.fail "INVALID_PARAMS" ["SUB"] "Missing keys"]) else subscribe id rest m
    | "UNSUB" =>
      if rest = [] then (m, [.fail "INVALID_PARAMS" ["UNSUB"] "Missing keys"])
      else
        ({ m with subs := fun other => if other = id then (m.subs id).filter (· ∉ rest) else m.subs other },
          rest.map .unsubOk)
    | "SUBS" =>
      (m, (m.subs id).toChunks 10 |>.map .subs |>.append [.metadataEnd "End of metadata subscriptions"])
    | other => (m, [.fail "INVALID_PARAMS" [other] "Unknown subcommand"])
  | _ => (m, [.fail "INVALID_PARAMS" [] "Not enough parameters"])

/-! ## What is sent -/

/-- The name of a target as others see it. -/
def displayOf (target : String) : Option String :=
  if isValidChannel target then (m.server.findChannel (m.server.fold target)).map (·.name)
  else if m.isSelfTarget id target then some (m.server.entry id).nick
  else (m.server.findClient (m.server.fold target)).map fun other => (m.server.entry other).nick

/-- Those who can see a target: the members of the channel, or of the channels of the client, and the client. -/
def audience (target : String) : List UInt64 :=
  let membersOf (folded : String) := ((m.server.findChannel folded).map fun channel => channel.members.keys).getD []
  if isValidChannel target then membersOf (m.server.fold target)
  else
    match if m.isSelfTarget id target then some id else m.server.findClient (m.server.fold target) with
    | none => []
    | some owner => ((m.server.entry owner).channels.flatMap membersOf ++ [owner]).eraseDups

/-- Tell those who subscribe to a key and can see the target that it changed. -/
def announceMetadata (s : Server) (target key : String) (value : Option String) : Server :=
  match m.displayOf id target with
  | none => s
  | some display =>
    let line := Line.server s.info.name |>.command "METADATA" |>.param display |>.param key |>.param "*"
    s.sendAll ((m.audience id target).filter fun other =>
      decide (key ∈ m.subs other) && (s.entry other).caps.has .metadata) (value.elim line line.trailing).build

/-- Send a reply, or announce a change. -/
def answer (s : Server) : MetadataReply → Server
  | .keyValue target key value => s.numeric id rplKeyValue [target, key, "*"] value
  | .metadataEnd text => s.numeric id rplMetadataEnd [] (some text)
  | .subOk key => s.numeric id rplMetadataSubOk [key] none
  | .unsubOk key => s.numeric id rplMetadataUnsubOk [key] none
  | .subs keys => s.numeric id rplMetadataSubs keys none
  | .fail code context text => s.fail id "METADATA" code context text
  | .announce target key value => m.announceMetadata id s target key value

/-- The command of a client, with what is sent. -/
def metadata (params : List String) : Annotated :=
  let (m, replies) := m.cmdMetadata id params
  { m with server := replies.foldl (m.answer id) m.server }

end Annotated

end Ferrixd
