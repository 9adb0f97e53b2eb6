import Ferrixd.Command.Monitor
import Ferrixd.Login.Sasl

/-! # Identity commands

What a client changes about itself, and an operator about others.  The peers are told of every change of a
registered client; they are told nothing of one that is still to register. -/

namespace Ferrixd

def rplUmodeIs : Nat := 221
def rplUnaway : Nat := 305
def rplNowAway : Nat := 306
def rplYoureOper : Nat := 381
def errAlreadyRegistered : Nat := 462
def errPasswdMismatch : Nat := 464
def errNoPrivileges : Nat := 481
def errCantKillServer : Nat := 483
def errNoOperHost : Nat := 491
def errUmodeUnknownFlag : Nat := 501
def errUsersDontMatch : Nat := 502

def maxAwayLen : Nat := 200

/-- The longest user name. -/
def maxUserLen : Nat := 10

/-! ## User modes -/

/-- A client's user modes. -/
def renderUserModes (entry : ClientEntry) : String :=
  "+" ++ (if entry.invisible then "i" else "") ++ (if entry.oper then "o" else "") ++
    (if entry.wallops then "w" else "") ++ (if entry.bot then "B" else "")

/-- A change of user modes as far as it was read: the sign in force, what changed, and an unknown letter. -/
structure UserModeChange where
  entry : ClientEntry
  adding : Bool := true
  changed : ModeAccum := {}
  unknown : Option Char := none

/-- One character of a change.  Only `OPER` makes an operator. -/
def userModeStep (state : UserModeChange) (c : Char) : UserModeChange :=
  let { entry, adding, changed, .. } := state
  if c = '+' then { state with adding := true }
  else if c = '-' then { state with adding := false }
  else if c = 'i' then
    if entry.invisible = adding then state
    else { state with entry := { entry with invisible := adding }, changed := changed.push adding 'i' }
  else if c = 'w' then
    if entry.wallops = adding then state
    else { state with entry := { entry with wallops := adding }, changed := changed.push adding 'w' }
  else if c = 'B' then
    if entry.bot = adding then state
    else { state with entry := { entry with bot := adding }, changed := changed.push adding 'B' }
  else if c = 'o' then
    if !adding && entry.oper then
      { state with entry := { entry with oper := false }, changed := changed.push false 'o' }
    else state
  else { state with unknown := some c }

/-- Whether an operator block may be used from a host.  One without masks is open to all. -/
def operHostAllowed (operHosts : Table String (List String)) (name hostmask ip : String) : Bool :=
  match operHosts.lookup name with
  | none => true
  | some masks => masks.isEmpty || masks.any fun mask => maskMatches mask hostmask || maskMatches mask ip

namespace Server

variable (s : Server) (id : UInt64) (params : List String)

def needMoreParams (command : String) : Server :=
  s.numeric id errNeedMoreParams [command] (some "Not enough parameters")

def notice (text : String) : Server :=
  s.send id (Line.server s.info.name |>.command "NOTICE" |>.param (s.entry id).nick |>.trailing text |>.build)

/-- Refuse a command to a client that is no operator. -/
def refuseOper : Server :=
  s.numeric id errNoPrivileges [] (some "Permission Denied- You're not an IRC operator")

/-- `USER`, up to the completion of the registration. -/
def cmdUser : Server :=
  if (s.entry id).registered then s.numeric id errAlreadyRegistered [] (some "You may not reregister")
  else match params with
    | user :: _ :: _ :: realname :: _ =>
      s.modifyEntry id fun entry => { entry with user := "~" ++ truncateChars user maxUserLen, realname }
    | _ => s.needMoreParams id "USER"

/-- `AWAY`.  Before registration it is only recorded. -/
def cmdAway : Server :=
  let away := match params with
    | message :: _ => if message = "" then none else some (truncateChars message maxAwayLen)
    | [] => none
  let s := s.modifyEntry id fun entry => { entry with away }
  let s := match away with
    | some _ => s.numeric id rplNowAway [] (some "You have been marked as being away")
    | none => s.numeric id rplUnaway [] (some "You are no longer marked as being away")
  if (s.entry id).registered then
    let line := s.userLine id |>.command "AWAY"
    let s := s.propagateMonitored id (s.event id (away.elim line line.trailing).body) .awayNotify
    s.propagateToLinks (.saway (s.localUid id) away)
  else s

def cmdSetname : Server :=
  match params with
  | [] => s.needMoreParams id "SETNAME"
  | realname :: _ =>
    let s := s.modifyEntry id fun entry => { entry with realname }
    let event := s.event id (s.userLine id |>.command "SETNAME" |>.trailing realname |>.body)
    let s := (s.propagateMonitored id event .setName).toClient id event
    s.propagateToLinks (.ssetname (s.localUid id) realname)

/-- `MODE` with a nick. -/
def userMode (target : String) (args : List String) : Server :=
  if s.fold target ≠ s.fold (s.entry id).nick then
    if (s.presenceMask (s.fold target)).isNone then
      s.numeric id errNoSuchNick [target] (some "No such nick/channel")
    else s.numeric id errUsersDontMatch [] (some "Cannot change mode for other users")
  else match args with
    | [] => s.numeric id rplUmodeIs [renderUserModes (s.entry id)] none
    | flags :: _ =>
      let change := flags.toList.foldl userModeStep { entry := s.entry id }
      let s := s.modifyEntry id fun _ => change.entry
      let s := match change.unknown with
        | some flag => s.numeric id errUmodeUnknownFlag [flag.toString] (some "Unknown MODE flag")
        | none => s
      if change.changed.flags = "" then s
      else
        let nick := (s.entry id).nick
        let s := s.send id (s.userLine id |>.command "MODE" |>.param nick |>.param change.changed.flags |>.build)
        s.propagateToLinks (.sumode (s.localUid id) change.changed.flags)

/-- `OPER`, with the accounts and the hosts of the operator blocks. -/
def cmdOper (crypto : Crypto) (opers : AccountStore) (operHosts : Table String (List String)) : Server :=
  match params with
  | name :: password :: _ =>
    let entry := s.entry id
    if !operHostAllowed operHosts name entry.hostmask entry.realIp then
      s.numeric id errNoOperHost [] (some "No O-lines for your host")
    else match opers.verifyPassword crypto name password with
      | none => s.numeric id errPasswdMismatch [] (some "Password incorrect")
      | some _ =>
        let s := s.modifyEntry id fun entry => { entry with oper := true }
        let nick := (s.entry id).nick
        let s := s.send id (Line.server s.info.name |>.command "MODE" |>.param nick |>.param "+o" |>.build)
        let s := s.numeric id rplYoureOper [] (some "You are now an IRC operator")
        s.propagateToLinks (.sumode (s.localUid id) "+o")
  | _ => s.needMoreParams id "OPER"

/-- `CHGHOST`: an operator changes the displayed host of a local client. -/
def cmdChghost : Server :=
  if !(s.entry id).oper then s.refuseOper id
  else match params with
    | targetNick :: host :: _ =>
      match s.findClient (s.fold targetNick) with
      | none => s.numeric id errNoSuchNick [targetNick] (some "No such nick/channel")
      | some target =>
        let old := s.entry target
        let s := s.modifyEntry target fun entry => { entry with host }
        -- announced under the old host
        let line := Line.user old.nick old.user old.host |>.command "CHGHOST" |>.param old.user |>.param host
        let event : Event := { body := line.body, time := some (formatServerTime s.nowMillis) }
        let s := if old.caps.has .chgHost then s.toClient target event else s
        let s := s.propagateMonitored target event .chgHost
        let s := s.notice id ("Changed host of " ++ old.nick ++ " to " ++ host)
        s.propagateToLinks (.schghost (s.localUid target) host)
    | _ => s.needMoreParams id "CHGHOST"

/-- Whether a name is that of a server of the network. -/
def isServerName (name : String) : Bool :=
  eqIgnoreAsciiCase name s.info.name || s.links.values.any (fun link => eqIgnoreAsciiCase link.name name) ||
    s.remoteServers.values.any fun server => eqIgnoreAsciiCase server.name name

/-- One target of a `KILL`: a local client is asked to go, a remote one is killed by its own server. -/
def killTarget (reason : String) (s : Server) (target : String) : Server :=
  if s.isServerName target then
    s.numeric id errCantKillServer [target] (some "You can't kill a server!")
  else
    let reason := "Killed (" ++ (s.entry id).nick ++ ": " ++ reason ++ ")"
    match s.findClient (s.fold target) with
    | some victim => s.requestKill victim reason
    | none =>
      match s.findRemoteUser (s.fold target) with
      | some user => (s.killRemote user reason).notice id ("KILL for " ++ target ++ " sent to its server")
      | none => s.numeric id errNoSuchNick [target] (some "No such nick/channel")

def cmdKill : Server :=
  if !(s.entry id).oper then s.refuseOper id
  else match params with
    | [] => s.needMoreParams id "KILL"
    | targets :: rest =>
      ((targets.splitOn ",").filter fun target => target ≠ "").foldl (killTarget id (rest.headD "Killed")) s

end Server

end Ferrixd
