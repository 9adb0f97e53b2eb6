import Ferrixd.Protocol
import Ferrixd.Wire

/-! # The link protocol

The messages two linked servers exchange, their wire lines and the decoder. -/

namespace Ferrixd

open Protocol (Message Command)

/-- A message exchanged over a server-to-server link. -/
inductive LinkMessage where
  | pass (token : String)
  | server (name sid description : String)
  | sserver (name sid uplink description : String)
  | ping (token : String)
  | pong (token : String)
  | uid (sid uid : String) (lamport : UInt64) (nick user host account realname : String)
  | nick (uid nick : String)
  | quit (uid reason : String)
  | userMessage (source target : String) (notice : Bool) (msgid : Option String)
      (timeMs : Option UInt64) (tags : Option String) (text : String)
  | sjoin (channel uid : String) (op voice : Bool) (ts : UInt64)
  | spart (channel uid reason : String)
  | chanMessage (source channel : String) (notice : Bool) (msgid : Option String)
      (timeMs : Option UInt64) (tags : Option String) (text : String)
  | sumode (uid flags : String)
  | sknock (source channel mask : String)
  | tagMessage (source target tags : String)
  | sredact (source target msgid reason : String)
  | srename (source old new reason : String)
  | stopic (channel source setBy : String) (setAt : UInt64) (text : String)
  | smode (channel source : String) (ts : UInt64) (flags : String) (args : List String)
  | skick (channel source target reason : String)
  | saway (uid : String) (reason : Option String)
  | saccount (uid account : String)
  | ssetname (uid realname : String)
  | schghost (uid host : String)
  | swallops (source text : String)
  | sinvite (source target channel : String)
  | sban (add : Bool) (mask setBy reason : String)
  | kill (uid reason : String)
  | squit (sid reason : String)
  | error (reason : String)
  deriving DecidableEq

/-- Encode a member's status as SJOIN flags. -/
def prefixFlags (op voice : Bool) : String :=
  let flags := (if op then "o" else "") ++ (if voice then "v" else "")
  if flags = "" then "-" else flags

namespace LinkMessage

/-- Serialize to a wire line, CRLF included. -/
def toLine : LinkMessage → Bytes
  | .pass token => Line.bare.command "PASS" |>.trailing token |>.build
  | .server name sid description =>
    Line.bare.command "SERVER" |>.param name |>.param sid |>.trailing description |>.build
  | .sserver name sid uplink description =>
    Line.bare.command "SSERVER" |>.param name |>.param sid |>.param uplink |>.trailing description
      |>.build
  | .ping token => Line.bare.command "PING" |>.trailing token |>.build
  | .pong token => Line.bare.command "PONG" |>.trailing token |>.build
  | .uid sid u lamport n user host account realname =>
    Line.bare.command "UID" |>.param sid |>.param u |>.param (printU64 lamport) |>.param n
      |>.param user |>.param host |>.param account |>.trailing realname |>.build
  | .nick u n => Line.bare.command "NICK" |>.param u |>.param n |>.build
  | .quit u reason => Line.bare.command "QUIT" |>.param u |>.trailing reason |>.build
  | .userMessage source target notice msgid timeMs tags text =>
    Line.bare.command "SMSG" |>.param source |>.param target |>.param (if notice then "N" else "P")
      |>.param (msgid.getD "*") |>.param (timeMs.elim "*" printU64) |>.param (tags.getD "*")
      |>.trailing text |>.build
  | .sjoin channel u op voice ts =>
    Line.bare.command "SJOIN" |>.param channel |>.param u |>.param (prefixFlags op voice)
      |>.param (printU64 ts) |>.build
  | .spart channel u reason =>
    Line.bare.command "SPART" |>.param channel |>.param u |>.trailing reason |>.build
  | .chanMessage source channel notice msgid timeMs tags text =>
    Line.bare.command "SCMSG" |>.param source |>.param channel
      |>.param (if notice then "N" else "P") |>.param (msgid.getD "*")
      |>.param (timeMs.elim "*" printU64) |>.param (tags.getD "*") |>.trailing text |>.build
  | .sumode u flags => Line.bare.command "SUMODE" |>.param u |>.param flags |>.build
  | .sknock source channel mask =>
    Line.bare.command "SKNOCK" |>.param source |>.param channel |>.trailing mask |>.build
  | .tagMessage source target tags =>
    Line.bare.command "STAGMSG" |>.param source |>.param target |>.trailing tags |>.build
  | .sredact source target msgid reason =>
    Line.bare.command "SREDACT" |>.param source |>.param target |>.param msgid |>.trailing reason
      |>.build
  | .srename source old new reason =>
    Line.bare.command "SRENAME" |>.param source |>.param old |>.param new |>.trailing reason
      |>.build
  | .stopic channel source setBy setAt text =>
    Line.bare.command "STOPIC" |>.param channel |>.param source |>.param setBy
      |>.param (printU64 setAt) |>.trailing text |>.build
  | .smode channel source ts flags args =>
    args.foldl Line.param
      (Line.bare.command "SMODE" |>.param channel |>.param source |>.param (printU64 ts) |>.param flags)
      |>.build
  | .skick channel source target reason =>
    Line.bare.command "SKICK" |>.param channel |>.param source |>.param target |>.trailing reason
      |>.build
  | .saway u reason =>
    let line := Line.bare.command "SAWAY" |>.param u
    match reason with
    | some reason => line.trailing reason |>.build
    | none => line.build
  | .saccount u account => Line.bare.command "SACCOUNT" |>.param u |>.param account |>.build
  | .ssetname u realname => Line.bare.command "SSETNAME" |>.param u |>.trailing realname |>.build
  | .schghost u host => Line.bare.command "SCHGHOST" |>.param u |>.param host |>.build
  | .swallops source text => Line.bare.command "SWALLOPS" |>.param source |>.trailing text |>.build
  | .sinvite source target channel =>
    Line.bare.command "SINVITE" |>.param source |>.param target |>.param channel |>.build
  | .sban add mask setBy reason =>
    Line.bare.command "SBAN" |>.param (if add then "+" else "-") |>.param mask |>.param setBy
      |>.trailing reason |>.build
  | .kill u reason => Line.bare.command "KILL" |>.param u |>.trailing reason |>.build
  | .squit sid reason => Line.bare.command "SQUIT" |>.param sid |>.trailing reason |>.build
  | .error reason => Line.bare.command "ERROR" |>.trailing reason |>.build

/-- A `*` placeholder stands for an absent value. -/
def star (value : String) : Option String :=
  if value = "*" then none else some value

/-- The identity fields and the text of `SMSG` and `SCMSG`, across the three wire
generations of 4, 6 and 7 parameters. -/
def parseMessageTail (p : List String) :
    Option (Option String × Option UInt64 × Option String × String) :=
  if p.length ≤ 4 then do
    return (none, none, none, ← p[3]?)
  else if p.length ≤ 6 then do
    return (star (← p[3]?), parseU64 (← p[4]?), none, ← p[5]?)
  else do
    return (star (← p[3]?), parseU64 (← p[4]?), star (← p[5]?), ← p[6]?)

/-- The notice flag of `SMSG` and `SCMSG`. -/
def isNotice (p : List String) : Bool :=
  p[2]?.any fun flag => eqIgnoreAsciiCase flag "N"

/-- Decode the parameters of one named command. -/
def fromParams (verb : String) (p : List String) : Option LinkMessage :=
  match verb with
  | "PASS" => do return .pass (← p[0]?)
  | "SERVER" => do return .server (← p[0]?) (← p[1]?) (← p[2]?)
  | "SSERVER" => do return .sserver (← p[0]?) (← p[1]?) (← p[2]?) (← p[3]?)
  | "PING" => do return .ping (← p[0]?)
  | "PONG" => do return .pong (← p[0]?)
  | "UID" => do
    return .uid (← p[0]?) (← p[1]?) (← parseU64 (← p[2]?)) (← p[3]?) (← p[4]?) (← p[5]?) (← p[6]?)
      (← p[7]?)
  | "NICK" => do return .nick (← p[0]?) (← p[1]?)
  | "QUIT" => do return .quit (← p[0]?) (← p[1]?)
  | "SMSG" => do
    let (msgid, timeMs, tags, text) ← parseMessageTail p
    return .userMessage (← p[0]?) (← p[1]?) (isNotice p) msgid timeMs tags text
  | "SJOIN" => do
    let flags := p[2]?.getD "-"
    return .sjoin (← p[0]?) (← p[1]?) (containsChar flags 'o') (containsChar flags 'v')
      ((p[3]?.bind parseU64).getD 0)
  | "STOPIC" => do
    return .stopic (← p[0]?) (← p[1]?) (← p[2]?) (← parseU64 (← p[3]?)) (← p[4]?)
  | "SMODE" => do
    -- a mode string starts with a sign, so a number in third place is the timestamp
    let (ts, flagsAt) := match p[2]?.bind parseU64 with
      | some ts => (ts, 3)
      | none => (0, 2)
    return .smode (← p[0]?) (← p[1]?) ts (← p[flagsAt]?) (p.drop (flagsAt + 1))
  | "SKICK" => do return .skick (← p[0]?) (← p[1]?) (← p[2]?) (← p[3]?)
  | "SAWAY" => do return .saway (← p[0]?) p[1]?
  | "SSETNAME" => do return .ssetname (← p[0]?) (← p[1]?)
  | "SCHGHOST" => do return .schghost (← p[0]?) (← p[1]?)
  | "SWALLOPS" => do return .swallops (← p[0]?) (← p[1]?)
  | "SINVITE" => do return .sinvite (← p[0]?) (← p[1]?) (← p[2]?)
  | "SBAN" => do return .sban ((← p[0]?) == "+") (← p[1]?) (← p[2]?) (← p[3]?)
  | "SACCOUNT" => do return .saccount (← p[0]?) (← p[1]?)
  | "SPART" => do return .spart (← p[0]?) (← p[1]?) (← p[2]?)
  | "SCMSG" => do
    let (msgid, timeMs, tags, text) ← parseMessageTail p
    return .chanMessage (← p[0]?) (← p[1]?) (isNotice p) msgid timeMs tags text
  | "SUMODE" => do return .sumode (← p[0]?) (← p[1]?)
  | "SKNOCK" => do return .sknock (← p[0]?) (← p[1]?) (← p[2]?)
  | "STAGMSG" => do return .tagMessage (← p[0]?) (← p[1]?) (← p[2]?)
  | "SREDACT" => do return .sredact (← p[0]?) (← p[1]?) (← p[2]?) (p[3]?.getD "")
  | "SRENAME" => do return .srename (← p[0]?) (← p[1]?) (← p[2]?) (p[3]?.getD "")
  | "KILL" => do return .kill (← p[0]?) (← p[1]?)
  | "SQUIT" => do return .squit (← p[0]?) (← p[1]?)
  | "ERROR" => do return .error (← p[0]?)
  | _ => none

/-- Decode a parsed message; a numeric command is no link message. -/
def fromMessage (msg : Message) : Option LinkMessage :=
  match msg.command with
  | .numeric _ => none
  | .named name => fromParams (asciiUpper name) msg.params

end LinkMessage

end Ferrixd
