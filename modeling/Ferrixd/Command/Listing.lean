import Ferrixd.Command.Multiline

/-! # Listings

`NAMES`, `WHO`, `WHOIS` and `LIST`: what a client is shown of the users and the channels. -/

namespace Ferrixd

def rplWhoisUser : Nat := 311
def rplWhoisServer : Nat := 312
def rplWhoisOperator : Nat := 313
def rplEndOfWho : Nat := 315
def rplWhoisIdle : Nat := 317
def rplEndOfWhois : Nat := 318
def rplWhoisChannels : Nat := 319
def rplListStart : Nat := 321
def rplList : Nat := 322
def rplListEnd : Nat := 323
def rplWhoisAccount : Nat := 330
def rplWhoisBot : Nat := 335
def rplWhoisActually : Nat := 338
def rplWhoReply : Nat := 352
def rplWhosPcRpl : Nat := 354
def errNoNicknameGiven : Nat := 431
def rplWhoisSecure : Nat := 671

/-- What is shown of a connection besides the data of its client. -/
structure Signon where
  connectedAt : UInt64
  lastActive : UInt64
  secure : Bool

/-- The version of the server, and its connections. -/
structure About where
  version : String
  signon : UInt64 → Signon

/-- One numeric, without the nick that it is sent to. -/
structure Reply where
  code : Nat
  params : List String
  text : Option String

/-- `u64::saturating_sub`. -/
def saturatingSub (left right : UInt64) : UInt64 :=
  if right ≤ left then left - right else 0

/-- `u64::saturating_mul`. -/
def saturatingMul (left right : UInt64) : UInt64 :=
  .ofNat (min (left.toNat * right.toNat) (2 ^ 64 - 1))

/-! ## `LIST` filters -/

inductive ListFilter where
  | minUsers (count : UInt64)
  | maxUsers (count : UInt64)
  | createdWithin (minutes : UInt64)
  | createdBefore (minutes : UInt64)
  | topicWithin (minutes : UInt64)
  | topicBefore (minutes : UInt64)
  | mask (pattern : String)
  | notMask (pattern : String)

/-- What is not a comparison is a mask. -/
def parseListFilter (token : String) : ListFilter :=
  let rest (chars : List Char) : String := String.ofList chars
  let parsed : Option ListFilter := match token.toList with
    | '>' :: count => (parseU64 (rest count)).map .minUsers
    | '<' :: count => (parseU64 (rest count)).map .maxUsers
    | '!' :: mask => if mask.isEmpty then none else some (.notMask (rest mask))
    | first :: '<' :: minutes =>
      if first = 'C' ∨ first = 'c' then (parseU64 (rest minutes)).map .createdWithin
      else if first = 'T' ∨ first = 't' then (parseU64 (rest minutes)).map .topicWithin
      else none
    | first :: '>' :: minutes =>
      if first = 'C' ∨ first = 'c' then (parseU64 (rest minutes)).map .createdBefore
      else if first = 'T' ∨ first = 't' then (parseU64 (rest minutes)).map .topicBefore
      else none
    | _ => none
  parsed.getD (.mask token)

namespace ListFilter

def admits (now : UInt64) (channel : ChannelEntry) : ListFilter → Bool
  | minUsers count => count.toNat < channel.members.keys.length + channel.remoteMembers.keys.length
  | maxUsers count => channel.members.keys.length + channel.remoteMembers.keys.length < count.toNat
  | createdWithin minutes => saturatingSub now channel.createdAt < saturatingMul minutes 60
  | createdBefore minutes => saturatingMul minutes 60 < saturatingSub now channel.createdAt
  | topicWithin minutes => channel.topic.any fun topic => saturatingSub now topic.setAt < saturatingMul minutes 60
  | topicBefore minutes => channel.topic.any fun topic => saturatingMul minutes 60 < saturatingSub now topic.setAt
  | .mask pattern => maskMatches pattern channel.name
  | notMask pattern => !maskMatches pattern channel.name

end ListFilter

/-! ## `WHO` rows -/

/-- The fields that an extended `WHO` asks for. -/
structure WhoxRequest where
  fields : String
  querytype : Option String

def parseWhox (flags : String) : Option WhoxRequest :=
  (splitOnce flags '%').map fun (_, after) =>
    match splitOnce after ',' with
    | some (fields, querytype) => ⟨fields, some querytype⟩
    | none => ⟨after, none⟩

structure WhoRow where
  nick : String
  user : String
  host : String
  /-- The real address, if it may be seen. -/
  ip : Option String
  server : String
  realname : String
  away : Bool
  oper : Bool
  bot : Bool
  account : Option String
  idle : UInt64
  hops : Nat
  status : MemberPrefix

namespace WhoRow

def flags (row : WhoRow) (multi : Bool) : String :=
  (if row.away then "G" else "H") ++ (if row.oper then "*" else "") ++ (if row.bot then "B" else "") ++
    row.status.render multi

def reply (row : WhoRow) (multi : Bool) (channel : String) : Reply :=
  ⟨rplWhoReply, [channel, row.user, row.host, row.server, row.nick, row.flags multi],
    some (toString row.hops ++ " " ++ row.realname)⟩

/-- The fields asked for, in a fixed order. -/
def replyX (row : WhoRow) (multi : Bool) (channel : String) (request : WhoxRequest) : Reply :=
  let field (letter : Char) (value : String) : List String :=
    if containsChar request.fields letter then [value] else []
  ⟨rplWhosPcRpl,
    field 't' (request.querytype.getD "0") ++ field 'c' channel ++ field 'u' row.user ++
      field 'i' (row.ip.getD "255.255.255.255") ++ field 'h' row.host ++ field 's' row.server ++
      field 'n' row.nick ++ field 'f' (row.flags multi) ++ field 'd' (toString row.hops) ++
      field 'l' (printU64 row.idle) ++ field 'a' (row.account.getD "0") ++
      field 'o' (if row.status.op then "999" else "n/a"),
    if containsChar request.fields 'r' then some row.realname else none⟩

end WhoRow

namespace Tables

variable (t : Tables) (about : About) (id : UInt64)

/-! ## `NAMES` -/

/-- Members see a secret channel, and operators do. -/
def mayListChannel (channel : ChannelEntry) : Bool :=
  !channel.modes.secret || decide (id ∈ channel.members) || (t.entry id).oper

/-- The channel of a name, if it may be listed. -/
def listedChannel (name : String) : Option ChannelEntry :=
  (t.findChannel (t.fold name)).filter (t.mayListChannel id)

def endOfNames (name : String) : Reply :=
  ⟨rplEndOfNames, [name], some "End of /NAMES list"⟩

def namesReplies (channel : ChannelEntry) : List Reply :=
  let caps := (t.entry id).caps
  let shown (status : MemberPrefix) (nick user host : String) : String :=
    status.render (caps.has .multiPrefix) ++
      if caps.has .userhostInNames then hostmask nick user host else nick
  let names :=
    channel.members.entries.map (fun member =>
      shown member.2 (t.entry member.1).nick (t.entry member.1).user (t.entry member.1).host) ++
    channel.remoteMembers.values.map fun member => shown member.status member.nick member.user member.host
  let symbol := if channel.modes.secret then "@" else "="
  (names.foldl Server.addToChunks []).reverse.map (fun chunk => ⟨rplNamReply, [symbol, channel.name], some chunk⟩) ++
    [endOfNames channel.name]

/-- A channel that may not be seen is answered as one that is not there. -/
def answerNames : List String → List Reply
  | [] => [endOfNames "*"]
  | target :: _ => (target.splitOn ",").flatMap fun name =>
    match t.listedChannel id name with
    | some channel => t.namesReplies id channel
    | none => [endOfNames name]

/-! ## `WHO` -/

def whoRowLocal (other : UInt64) (status : MemberPrefix) : WhoRow :=
  let entry := t.entry other
  let canSeeIp := (t.entry id).oper || other = id
  { nick := entry.nick, user := entry.user, host := entry.host
    ip := if canSeeIp then some entry.realIp else none
    server := t.info.name, realname := entry.realname, away := entry.away.isSome, oper := entry.oper, bot := entry.bot
    account := entry.account, idle := saturatingSub t.nowUnix (about.signon other).lastActive, hops := 0, status }

def whoRowRemote (user : RemoteUser) (status : MemberPrefix) : WhoRow :=
  { nick := user.nick, user := user.user, host := user.host, ip := none, server := user.serverSid
    realname := user.realname, away := user.away.isSome, oper := false, bot := user.bot, account := user.account
    idle := 0, hops := 1, status }

/-- The members of a channel. -/
def whoChannel (channel : ChannelEntry) : List WhoRow :=
  channel.members.entries.map (fun member => t.whoRowLocal about id member.1 member.2) ++
    channel.remoteMembers.values.filterMap fun member =>
      (t.findRemoteUser (t.fold member.nick)).map fun user => whoRowRemote user member.status

/-- Whoever has a nick. -/
def whoNick (nick : String) : List WhoRow :=
  match t.findClient (t.fold nick) with
  | some other => [t.whoRowLocal about id other {}]
  | none => (t.findRemoteUser (t.fold nick)).toList.map fun user => whoRowRemote user {}

/-- An invisible user is shown to itself, to operators and to those in a channel with it. -/
def isVisible (other : UInt64) : Bool :=
  !(t.entry other).invisible || (t.entry id).oper || other = id ||
    (t.entry other).channels.any fun folded => (t.entry id).channels.contains folded

/-- Everybody whose nick, user name, host or real name matches. -/
def whoMask (mask : String) : List WhoRow :=
  let fits (nick user host realname : String) : Bool :=
    maskMatches mask nick || maskMatches mask user || maskMatches mask host || maskMatches mask realname
  let clients := t.clients.values.filter fun other =>
    let entry := t.entry other
    entry.registered && fits entry.nick entry.user entry.host entry.realname && t.isVisible id other
  let users := t.remoteUsers.values.filter fun user => fits user.nick user.user user.host user.realname
  clients.map (fun other => t.whoRowLocal about id other {}) ++ users.map fun user => whoRowRemote user {}

/-- Who is asked for, each with the channel that is shown. -/
def whoRows (target : String) : List (String × WhoRow) :=
  if isValidChannel target then
    match t.listedChannel id target with
    | some channel => (t.whoChannel about id channel).map fun row => (channel.name, row)
    | none => []
  else if !containsChar target '*' && !containsChar target '?' && target ≠ "0" then
    (t.whoNick about id target).map fun row => ("*", row)
  else (t.whoMask about id (if target = "0" then "*" else target)).map fun row => ("*", row)

def answerWho (params : List String) : List Reply :=
  let target := params.head?.getD "0"
  let second := params[1]?.getD ""
  let whox := parseWhox second
  let opersOnly := containsChar (beforeChar second '%') 'o'
  let multi := (t.entry id).caps.has .multiPrefix
  let rows := (t.whoRows about id target).filter fun row => !opersOnly || row.2.oper
  rows.map (fun row => match whox with
    | some request => row.2.replyX multi row.1 request
    | none => row.2.reply multi row.1) ++ [⟨rplEndOfWho, [target], some "End of /WHO list"⟩]

/-! ## `WHOIS` -/

def endOfWhois (nick : String) : Reply :=
  ⟨rplEndOfWhois, [nick], some "End of /WHOIS list"⟩

/-- A reply, where it is due. -/
def replyIf (due : Bool) (reply : Reply) : List Reply :=
  if due then [reply] else []

def whoisRemote (user : RemoteUser) : List Reply :=
  ⟨rplWhoisUser, [user.nick, user.user, user.host, "*"], some user.realname⟩ ::
    replyIf user.bot ⟨rplWhoisBot, [user.nick], some "is a bot"⟩ ++
    [⟨rplWhoisServer, [user.nick, user.serverSid], some "remote server"⟩] ++
    (user.account.toList.map fun account => ⟨rplWhoisAccount, [user.nick, account], some "is logged in as"⟩) ++
    replyIf user.oper ⟨rplWhoisOperator, [user.nick], some "is an IRC operator"⟩ ++
    (user.away.toList.map fun away => ⟨rplAway, [user.nick], some away⟩) ++ [endOfWhois user.nick]

/-- The channels of a user that a client may see, with the status there. -/
def whoisChannels (other : UInt64) : List String :=
  (t.entry other).channels.filterMap fun folded =>
    (t.findChannel folded).bind fun channel =>
      if channel.modes.secret && !(other = id) && !(t.entry id).oper && !decide (id ∈ channel.members) then none
      else (channel.members.lookup other).map fun status => status.symbol ++ channel.name

def whoisLocal (other : UInt64) : List Reply :=
  let entry := t.entry other
  let signon := about.signon other
  let channels := t.whoisChannels id other
  let idle := saturatingSub t.nowUnix signon.lastActive
  ⟨rplWhoisUser, [entry.nick, entry.user, entry.host, "*"], some entry.realname⟩ ::
    replyIf entry.bot ⟨rplWhoisBot, [entry.nick], some "is a bot"⟩ ++
    replyIf ((t.entry id).oper || other = id)
      ⟨rplWhoisActually, [entry.nick, entry.user ++ "@" ++ entry.realIp, entry.realIp],
        some "Is actually using host"⟩ ++
    replyIf (!channels.isEmpty) ⟨rplWhoisChannels, [entry.nick], some (" ".intercalate channels)⟩ ++
    [⟨rplWhoisServer, [entry.nick, t.info.name], some about.version⟩] ++
    replyIf entry.oper ⟨rplWhoisOperator, [entry.nick], some "is an IRC operator"⟩ ++
    replyIf signon.secure ⟨rplWhoisSecure, [entry.nick], some "is using a secure connection"⟩ ++
    [⟨rplWhoisIdle, [entry.nick, printU64 idle, printU64 signon.connectedAt], some "seconds idle, signon time"⟩] ++
    (entry.account.toList.map fun account => ⟨rplWhoisAccount, [entry.nick, account], some "is logged in as"⟩) ++
    (entry.away.toList.map fun away => ⟨rplAway, [entry.nick], some away⟩) ++ [endOfWhois entry.nick]

def whoisOne (target : String) : List Reply :=
  match t.findClient (t.fold target) with
  | some other => t.whoisLocal about id other
  | none =>
    match t.findRemoteUser (t.fold target) with
    | some user => whoisRemote user
    | none => [⟨errNoSuchNick, [target], some "No such nick/channel"⟩, endOfWhois target]

/-- The last parameter lists the nicks; one before it names a server, and is skipped. -/
def answerWhois (params : List String) : List Reply :=
  match params.getLast? with
  | none => [⟨errNoNicknameGiven, [], some "No nickname given"⟩]
  | some list => ((list.splitOn ",").filter fun nick => nick ≠ "").flatMap (t.whoisOne about id)

/-! ## `LIST` -/

/-- A secret channel is hidden from operators here as well. -/
def answerList (params : List String) : List Reply :=
  let filters := match params with
    | [] => []
    | list :: _ => ((list.splitOn ",").filter fun token => token ≠ "").map parseListFilter
  let listed := t.channels.values.filter fun channel =>
    (!channel.modes.secret || decide (id ∈ channel.members)) &&
      filters.all fun filter => filter.admits t.nowUnix channel
  ⟨rplListStart, ["Channel"], some "Users  Name"⟩ ::
    (listed.map fun channel =>
      ⟨rplList, [channel.name, toString (channel.members.keys.length + channel.remoteMembers.keys.length)],
        some ((channel.topic.map (·.text)).getD "")⟩) ++ [⟨rplListEnd, [], some "End of /LIST"⟩]

end Tables

/-! ## The commands -/

namespace Server

variable (s : Server) (about : About) (id : UInt64)

/-- Send numerics one after the other. -/
def replyAll (replies : List Reply) : Server :=
  replies.foldl (fun s reply => s.numeric id reply.code reply.params reply.text) s

def cmdNames (params : List String) : Server :=
  s.replyAll id (s.answerNames id params)

def cmdWho (params : List String) : Server :=
  s.replyAll id (s.answerWho about id params)

def cmdWhois (params : List String) : Server :=
  s.replyAll id (s.answerWhois about id params)

def cmdList (params : List String) : Server :=
  s.replyAll id (s.answerList id params)

/-- The names of a channel are those sent to whoever joins it. -/
theorem sendNames_eq (channel : ChannelEntry) :
    s.sendNames id channel = s.replyAll id (s.namesReplies id channel) := by
  rw [replyAll, Tables.namesReplies, List.foldl_append, List.foldl_map]
  rfl

end Server

end Ferrixd
