import Ferrixd.Ts6

/-! # Inbound TS6 lines

What a TS6 peer says, read off one parsed line, and the translation of its identifiers. -/

namespace Ferrixd

open Protocol (Message)

/-- What a line of a TS6 peer means, in the identifiers of the peer. -/
inductive Ts6In where
  | pass (password sid : String)
  | capab (caps : List String)
  | server (name description : String)
  | svinfo (max min : UInt32)
  | sid (name sid : String) (uplink : Option String) (description : String)
  | euid (sid : Option String) (uid nick user host : String) (account : Option String) (realname : String)
  | nick (uid nick : String)
  | quit (uid reason : String)
  | sjoin (channel : String) (ts : UInt64) (members : List (String × MemberPrefix)) (flags : String)
      (args : List String)
  | join (uid channel : String) (ts : UInt64)
  | part (uid channels reason : String)
  | msg (source target : String) (notice : Bool) (text : String)
  | tmode (source channel : String) (ts : UInt64) (flags : String) (args : List String)
  | kick (source channel target reason : String)
  | topic (source channel text : String)
  | tb (channel : String) (setAt : UInt64) (setBy text : String)
  | away (uid : String) (reason : Option String)
  | kill (target reason : String)
  | squit (sid reason : String)
  | ping (origin : String)
  | login (uid : String) (account : Option String)
  | wallops (source text : String)
  | chgHost (uid host : String)
  | invite (source target channel : String)
  | save (uid : String)
  | error (reason : String)
  /-- Recognised, and of no consequence. -/
  | ignore
  | unknown (verb : String)
  deriving DecidableEq

/-! ## Fields -/

/-- The timestamp at the head of a line; 0 if there is none. -/
def leadingTs (params : List String) : UInt64 :=
  (params[0]?.bind parseU64).getD 0

/-- A burst member: signs anywhere in it give status, those in front are no part of the identifier. -/
def burstMember (word : String) : String × MemberPrefix :=
  (String.ofList (word.toList.dropWhile fun c => c = '@' || c = '+'),
    { op := containsChar word '@', voice := containsChar word '+' })

/-- Verbs that say nothing that is bridged. -/
def ignoredVerbs : List String :=
  ["PONG", "MODE", "SVINFO2", "RESV", "UNRESV", "XLINE", "UNXLINE", "BAN", "ETB", "EOB", "SNOTE", "CONNECT", "ADMIN",
    "INFO", "LINKS", "MOTD", "STATS", "TIME", "TRACE", "USERS", "VERSION", "WHOIS", "LOCOPS", "SIGNON", "REHASH", "DLINE",
    "UNDLINE", "KLINE", "UNKLINE", "NICKDELAY", "KNOCK", "CERTFP"]

/-! ## The grammar -/

/-- A line with fields missing is ignored. -/
def orIgnore (event : Option Ts6In) : Ts6In :=
  event.getD .ignore

/-- The subcommand of an `ENCAP` line. -/
def parseEncap (src : String) (p : List String) : Ts6In :=
  match p[1]?.map asciiUpper with
  | some "LOGIN" => .login src p[2]?
  | some "SU" => orIgnore do
    return .login (← p[2]?) (p[3]?.filter fun account => account != "" && account != "*")
  | some "CHGHOST" => orIgnore do return .chgHost (← p[2]?) (← p[3]?)
  | _ => .ignore

/-- Read one line. -/
def parseTs6 (msg : Message) : Ts6In :=
  match msg.command with
  | .numeric _ => .ignore
  | .named name =>
    let source := msg.source.map (·.name)
    let src := source.getD ""
    let p := msg.params
    match asciiUpper name with
    | "PASS" => orIgnore do
      let isTs6 := (p[1]?.any fun kind => eqIgnoreAsciiCase kind "TS") && p[2]? == some "6"
      if isTs6 then return .pass (← p[0]?) (← p[3]?) else none
    | "CAPAB" => .capab ((p.getLast?.map splitWhitespace).getD [])
    | "SERVER" => orIgnore do return .server (← p[0]?) (← p[2]?)
    | "SVINFO" => orIgnore do return .svinfo (← parseU32 (← p[0]?)) (← parseU32 (← p[1]?))
    | "SID" => orIgnore do return .sid (← p[0]?) (← p[2]?) source (← p[3]?)
    -- hops, timestamp, modes, address and real host are not read
    | "EUID" => orIgnore do
      let account ← p[9]?
      return .euid source (← p[7]?) (← p[0]?) (← p[4]?) (← p[5]?) (if account = "*" then none else some account)
        (← p[10]?)
    | "UID" => orIgnore do return .euid source (← p[7]?) (← p[0]?) (← p[4]?) (← p[5]?) none (← p[8]?)
    | "NICK" => orIgnore do return .nick src (← p[0]?)
    | "QUIT" => .quit src (p[0]?.getD "")
    | "SJOIN" => orIgnore do
      let members := (splitWhitespace (← p.getLast?)).map burstMember
      return .sjoin (← p[1]?) (leadingTs p) members (← p[2]?) (p.drop 3).dropLast
    | "JOIN" => orIgnore do return .join src (← p[1]?) (leadingTs p)
    | "PART" => orIgnore do return .part src (← p[0]?) (p[1]?.getD "")
    | "PRIVMSG" => orIgnore do return .msg src (← p[0]?) false (← p[1]?)
    | "NOTICE" => orIgnore do return .msg src (← p[0]?) true (← p[1]?)
    | "TMODE" => orIgnore do return .tmode src (← p[1]?) (leadingTs p) (← p[2]?) (p.drop 3)
    | "KICK" => orIgnore do return .kick src (← p[0]?) (← p[1]?) (p[2]?.getD "")
    | "TOPIC" => orIgnore do return .topic src (← p[0]?) (p[1]?.getD "")
    | "TB" => orIgnore do
      -- the setter may be left out
      let setBy := if 4 ≤ p.length then p[2]?.getD "" else "*"
      return .tb (← p[0]?) (← parseU64 (← p[1]?)) setBy (← p.getLast?)
    | "AWAY" => .away src p[0]?
    | "KILL" => orIgnore do return .kill (← p[0]?) (p[1]?.getD "Killed")
    | "SQUIT" => orIgnore do return .squit (← p[0]?) (p[1]?.getD "")
    | "PING" => .ping ((p[0]?.or source).getD "")
    | "ENCAP" => parseEncap src p
    | "WALLOPS" => orIgnore do return .wallops src (← p[0]?)
    | "OPERWALL" => orIgnore do return .wallops src (← p[0]?)
    | "GLOBOPS" => orIgnore do return .wallops src (← p[0]?)
    | "CHGHOST" => orIgnore do return .chgHost (← p[0]?) (← p[1]?)
    | "INVITE" => orIgnore do return .invite src (← p[0]?) (← p[1]?)
    | "SAVE" => orIgnore do return .save (← p[0]?)
    | "ERROR" => .error (p[0]?.getD "")
    | verb => if ignoredVerbs.contains verb then .ignore else .unknown verb

/-! ## Back to UIDs -/

/-- An event in the UIDs of this network. -/
def UidMapper.unalias (mapper : UidMapper) : Ts6In → Ts6In
  | .euid sid uid nick user host account realname => .euid sid (mapper.toFerrix uid) nick user host account realname
  | .nick uid nick => .nick (mapper.toFerrix uid) nick
  | .quit uid reason => .quit (mapper.toFerrix uid) reason
  | .sjoin channel ts members flags args =>
    .sjoin channel ts (members.map fun member => (mapper.toFerrix member.1, member.2)) flags
      (modeArgsToFerrix flags args mapper)
  | .join uid channel ts => .join (mapper.toFerrix uid) channel ts
  | .part uid channels reason => .part (mapper.toFerrix uid) channels reason
  | .msg source target notice text => .msg (mapper.toFerrix source) (mapper.toFerrix target) notice text
  | .tmode source channel ts flags args =>
    .tmode (mapper.toFerrix source) channel ts flags (modeArgsToFerrix flags args mapper)
  | .kick source channel target reason => .kick (mapper.toFerrix source) channel (mapper.toFerrix target) reason
  | .topic source channel text => .topic (mapper.toFerrix source) channel text
  | .away uid reason => .away (mapper.toFerrix uid) reason
  | .kill target reason => .kill (mapper.toFerrix target) reason
  | .login uid account => .login (mapper.toFerrix uid) account
  | .wallops source text => .wallops (mapper.toFerrix source) text
  | .chgHost uid host => .chgHost (mapper.toFerrix uid) host
  | .invite source target channel => .invite (mapper.toFerrix source) (mapper.toFerrix target) channel
  | .save uid => .save (mapper.toFerrix uid)
  | event => event

end Ferrixd
