import Ferrixd.State.Types

/-! # The TS6 bridge

A TS6 peer is sent the frames of any other peer, each translated when it is written.  Identifiers that TS6
does not know get an alias for each link. -/

namespace Ferrixd

/-! ## Identifiers -/

def isTs6Char (b : UInt8) : Bool :=
  (0x41 ≤ b && b ≤ 0x5a) || Protocol.isAsciiDigit b

/-- A digit, then two letters or digits. -/
def validSid (sid : String) : Bool :=
  match utf8 sid with
  | [first, second, third] => Protocol.isAsciiDigit first && isTs6Char second && isTs6Char third
  | _ => false

/-- A SID followed by six letters or digits. -/
def validUid (uid : String) : Bool :=
  (utf8 uid).length == 9 && validSid (String.ofList (uid.toList.take 3)) && ((utf8 uid).drop 3).all isTs6Char

/-- The aliases of one link: TS6 identifiers for UIDs, and back. -/
structure UidMapper where
  aliases : Table String String := ∅
  originals : Table String String := ∅
  next : UInt64 := 0

/-- The letters and digits of an alias. -/
def aliasAlphabet : List Char :=
  "ABCDEFGHIJKLMNOPQRSTUVWXYZ0123456789".toList

/-- The last digits of a number in base 36. -/
def base36 (value : Nat) : Nat → List Char
  | 0 => []
  | count + 1 => base36 (value / 36) count ++ [aliasAlphabet.getD (value % 36) 'A']

/-- The suffix of the `n`-th alias: a letter, and five digits in base 36. -/
def encodeId (n : UInt64) : String :=
  String.ofList (aliasAlphabet.getD (n.toNat / 36 ^ 5 % 26) 'A' :: base36 (n.toNat % 36 ^ 5) 5)

namespace UidMapper

/-- The TS6 identifier of a UID, allocated on first use; none if its SID is not one of TS6. -/
def toTs6 (mapper : UidMapper) (uid : String) : Option String × UidMapper :=
  if validUid uid then (some uid, mapper)
  else match mapper.aliases.lookup uid with
    | some ts6Uid => (some ts6Uid, mapper)
    | none =>
      let sid := String.ofList (uid.toList.take 3)
      if validSid sid then
        let ts6Uid := sid ++ encodeId mapper.next
        (some ts6Uid, {
          aliases := mapper.aliases.insert uid ts6Uid
          originals := mapper.originals.insert ts6Uid uid
          next := mapper.next + 1 })
      else (none, mapper)

/-- The UID behind a TS6 identifier; one that is no alias stands for itself. -/
def toFerrix (mapper : UidMapper) (uid : String) : String :=
  (mapper.originals.lookup uid).getD uid

end UidMapper

/-! ## Mode arguments -/

/-- Translate the arguments of a mode string: those of `o` and `v` through `mapUid`, with its state; a `*`
for the removal of a key where the other side has one. -/
def translateModeArgs {σ : Type} (keyArgOnRemove : Bool) (mapUid : String → σ → Option String × σ) :
    List Char → Bool → List String → σ → List String × σ
  | [], _, _, state => ([], state)
  | c :: flags, adding, args, state =>
    if c = '+' then translateModeArgs keyArgOnRemove mapUid flags true args state
    else if c = '-' then translateModeArgs keyArgOnRemove mapUid flags false args state
    else if c = 'o' ∨ c = 'v' then
      match args with
      | [] => translateModeArgs keyArgOnRemove mapUid flags adding [] state
      | arg :: args =>
        -- an identifier that has no translation stays as it is
        let (mapped, state) := mapUid arg state
        let (out, state) := translateModeArgs keyArgOnRemove mapUid flags adding args state
        (mapped.getD arg :: out, state)
    else if c = 'k' then
      if adding then
        match args with
        | [] => translateModeArgs keyArgOnRemove mapUid flags adding [] state
        | arg :: args =>
          let (out, state) := translateModeArgs keyArgOnRemove mapUid flags adding args state
          (arg :: out, state)
      -- TS6 wants an argument to the removal of a key, and the own protocol has none
      else if keyArgOnRemove then
        let (out, state) := translateModeArgs keyArgOnRemove mapUid flags adding args state
        ("*" :: out, state)
      else translateModeArgs keyArgOnRemove mapUid flags adding args.tail state
    else if (c = 'l' ∧ adding) ∨ c = 'b' ∨ c = 'e' ∨ c = 'I' then
      match args with
      | [] => translateModeArgs keyArgOnRemove mapUid flags adding [] state
      | arg :: args =>
        let (out, state) := translateModeArgs keyArgOnRemove mapUid flags adding args state
        (arg :: out, state)
    else translateModeArgs keyArgOnRemove mapUid flags adding args state

def modeArgsToTs6 (flags : String) (args : List String) (mapper : UidMapper) : List String × UidMapper :=
  translateModeArgs true (fun uid mapper => mapper.toTs6 uid) flags.toList true args mapper

def modeArgsToFerrix (flags : String) (args : List String) (mapper : UidMapper) : List String :=
  (translateModeArgs false (fun uid (_ : Unit) => (some (mapper.toFerrix uid), ())) flags.toList true args ()).1

/-! ## Outbound frames -/

/-- The signs of a burst member. -/
def memberPrefixStr (op voice : Bool) : String :=
  (if op then "@" else "") ++ (if voice then "+" else "")

namespace Tables

/-- The TS6 identifier of whoever holds the nick of a display source. -/
def uidForSource (t : Tables) (mapper : UidMapper) (source : String) : Option String × UidMapper :=
  match t.uidOfNick (beforeChar source '!') with
  | some uid => mapper.toTs6 uid
  | none => (none, mapper)

/-- The time a channel was created, or the present. -/
def channelTs (t : Tables) (channel : String) : UInt64 :=
  ((t.findChannel (t.fold channel)).map (·.createdAt)).getD t.nowUnix

/-- The one line that is sent in the name of a user, if the user has a TS6 identifier. -/
def fromUser (mapper : UidMapper) (uid : String) (line : String → Line) : List Bytes × UidMapper :=
  let (ts6Uid, mapper) := mapper.toTs6 uid
  (ts6Uid.elim [] fun ts6Uid => [(line ts6Uid).build], mapper)

/-- The TS6 identifier of the source of a change; `*` stands for this server. -/
def ts6Source (t : Tables) (mapper : UidMapper) (source : String) : Option String × UidMapper :=
  if source = "*" then (some t.info.sid, mapper) else mapper.toTs6 source

/-- A relayed message, from whoever holds the nick of its source. -/
def encodeMessage (t : Tables) (mapper : UidMapper) (source : String) (notice : Bool)
    (target : UidMapper → Option String × UidMapper) (text : String) : List Bytes × UidMapper :=
  let (src, mapper) := t.uidForSource mapper source
  let (dst, mapper) := target mapper
  match src, dst with
  | some src, some dst =>
    ([Line.server src |>.command (if notice then "NOTICE" else "PRIVMSG") |>.param dst |>.trailing text |>.build],
      mapper)
  | _, _ => ([], mapper)

/-- Translate one frame to TS6 lines, with the aliases and the state as they are now. -/
def encodeOutbound (t : Tables) (mapper : UidMapper) (peerCaps : List String) :
    LinkMessage → List Bytes × UidMapper
  | .uid sid uid _ nick user host account realname =>
    let (ts6Uid, mapper) := mapper.toTs6 uid
    let introduction (verb ts6Uid : String) : Line :=
      Line.server sid |>.command verb |>.param nick |>.param "2" |>.param (printU64 t.nowUnix) |>.param "+i"
        |>.param user |>.param host |>.param "0" |>.param ts6Uid
    (ts6Uid.elim [] fun ts6Uid =>
      if peerCaps.contains "EUID" then
        [introduction "EUID" ts6Uid |>.param host |>.param account |>.trailing realname |>.build]
      else
        (introduction "UID" ts6Uid |>.trailing realname |>.build) ::
          if account = "*" then []
          else [Line.server t.info.sid |>.command "ENCAP" |>.param "*" |>.param "SU" |>.param ts6Uid |>.param account
            |>.build], mapper)
  | .nick uid nick =>
    fromUser mapper uid fun ts6Uid =>
      Line.server ts6Uid |>.command "NICK" |>.param nick |>.trailing (printU64 t.nowUnix)
  | .quit uid reason => fromUser mapper uid fun ts6Uid => Line.server ts6Uid |>.command "QUIT" |>.trailing reason
  | .userMessage source target notice _ _ _ text =>
    t.encodeMessage mapper source notice (fun mapper => t.uidForSource mapper target) text
  | .chanMessage source channel notice _ _ _ text =>
    t.encodeMessage mapper source notice (fun mapper => (some channel, mapper)) text
  | .sjoin channel uid op voice ts =>
    fromUser mapper uid fun ts6Uid =>
      Line.server t.info.sid |>.command "SJOIN" |>.param (printU64 (if 0 < ts then ts else t.channelTs channel))
        |>.param channel |>.param "+" |>.trailing (memberPrefixStr op voice ++ ts6Uid)
  | .spart channel uid reason =>
    fromUser mapper uid fun ts6Uid => Line.server ts6Uid |>.command "PART" |>.param channel |>.trailing reason
  | .stopic channel source setBy setAt text =>
    if source = "*" then
      -- a topic of the burst, with who set it and when
      if !peerCaps.contains "TB" || text = "" then ([], mapper)
      else
        ([Line.server t.info.sid |>.command "TB" |>.param channel |>.param (printU64 setAt) |>.param setBy
          |>.trailing text |>.build], mapper)
    else fromUser mapper source fun ts6Uid => Line.server ts6Uid |>.command "TOPIC" |>.param channel |>.trailing text
  | .smode channel source ts flags args =>
    let (src, mapper) := t.ts6Source mapper source
    match src with
    | none => ([], mapper)
    | some src =>
      let (args, mapper) := modeArgsToTs6 flags args mapper
      let line := Line.server src |>.command "TMODE" |>.param (printU64 (if 0 < ts then ts else t.channelTs channel))
        |>.param channel |>.param flags
      ([(args.foldl Line.param line).build], mapper)
  | .skick channel source target reason =>
    let (src, mapper) := t.ts6Source mapper source
    let (dst, mapper) := mapper.toTs6 target
    match src, dst with
    | some src, some dst =>
      ([Line.server src |>.command "KICK" |>.param channel |>.param dst |>.trailing reason |>.build], mapper)
    | _, _ => ([], mapper)
  | .saway uid reason =>
    fromUser mapper uid fun ts6Uid =>
      let line := Line.server ts6Uid |>.command "AWAY"
      reason.elim line line.trailing
  | .saccount uid account =>
    fromUser mapper uid fun ts6Uid =>
      let line := Line.server t.info.sid |>.command "ENCAP" |>.param "*" |>.param "SU" |>.param ts6Uid
      if account = "*" then line else line.param account
  | .kill uid reason =>
    fromUser mapper uid fun ts6Uid =>
      Line.server t.info.sid |>.command "KILL" |>.param ts6Uid |>.trailing (t.info.name ++ " (" ++ reason ++ ")")
  | .ssetname _ _ => ([], mapper)
  | .sumode uid flags =>
    let (ts6Uid, mapper) := mapper.toTs6 uid
    (ts6Uid.elim [] fun ts6Uid =>
      -- TS6 knows the operator flag, and no other one
      if flags.toList.contains 'o' then
        [Line.server ts6Uid |>.command "MODE" |>.param ts6Uid |>.param (if startsWith flags "-" then "-o" else "+o")
          |>.build]
      else [], mapper)
  | .sknock source channel _ =>
    fromUser mapper source fun ts6Uid => Line.server ts6Uid |>.command "KNOCK" |>.param channel
  | .sredact _ _ _ _ => ([], mapper)
  | .srename _ _ _ _ => ([], mapper)
  | .tagMessage _ _ _ => ([], mapper)
  | .schghost uid host =>
    fromUser mapper uid fun ts6Uid =>
      Line.server t.info.sid |>.command "ENCAP" |>.param "*" |>.param "CHGHOST" |>.param ts6Uid |>.param host
  | .swallops source text => ([Line.server source |>.command "WALLOPS" |>.trailing text |>.build], mapper)
  | .sinvite source target channel =>
    let (src, mapper) := mapper.toTs6 source
    let (dst, mapper) := mapper.toTs6 target
    match src, dst with
    | some src, some dst =>
      ([Line.server src |>.command "INVITE" |>.param dst |>.param channel |>.param (printU64 (t.channelTs channel))
        |>.build], mapper)
    | _, _ => ([], mapper)
  | .sban _ _ _ _ => ([], mapper)
  | .sserver name sid uplink description =>
    ([Line.server uplink |>.command "SID" |>.param name |>.param "2" |>.param sid |>.trailing description |>.build],
      mapper)
  | .squit sid reason =>
    ([Line.server t.info.sid |>.command "SQUIT" |>.param sid |>.trailing reason |>.build], mapper)
  | .ping token => ([Line.server t.info.sid |>.command "PING" |>.trailing token |>.build], mapper)
  | .pong token =>
    ([Line.server t.info.sid |>.command "PONG" |>.param t.info.name |>.trailing token |>.build], mapper)
  | .error reason => ([Line.bare.command "ERROR" |>.trailing reason |>.build], mapper)
  | .pass _ => ([], mapper)
  | .server _ _ _ => ([], mapper)

end Tables

end Ferrixd
