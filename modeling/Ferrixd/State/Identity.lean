import Ferrixd.State.Channels

/-! # Identity changes and notices from other servers

What a link may change about a remote user, and the frames that only reach local clients. -/

namespace Ferrixd

def rplKnock : Nat := 710

/-- The most invitations a channel keeps pending. -/
def maxPendingInvites : Nat := 256

namespace Server

/-! ## Remote users -/

/-- Rewrite the record of a remote user. -/
def updateRemoteUser (s : Server) (uid : String) (change : RemoteUser → RemoteUser) : Server :=
  match s.remoteByUid.lookup uid with
  | none => s
  | some folded => { s with remoteUsers := s.remoteUsers.modify folded change }

/-- Send bytes to the local clients that share a channel with a remote user, or watch its nick,
and have negotiated `cap`. -/
def announceToRemoteComembers (s : Server) (uid : String) (bytes : Bytes) (cap : Cap) : Server :=
  let shared := (s.remoteMembershipChannels uid).flatMap fun folded =>
    ((s.findChannel folded).map fun channel => channel.members.keys).getD []
  let comembers := (shared.filter fun id => (s.entry id).caps.has cap).eraseDups
  let s := s.sendAll comembers bytes
  match (s.remoteByUid.lookup uid).bind s.monitors.lookup with
  | none => s
  | some watchers =>
    let others := watchers.filter fun id => id ∉ comembers ∧ id ∈ s.byId ∧
      (s.entry id).caps.has .extendedMonitor ∧ (s.entry id).caps.has cap
    s.sendAll others bytes

/-- Rewrite the record of a known remote user and announce it with a line. -/
def changeRemoteUser (s : Server) (uid : String) (change : RemoteUser → RemoteUser)
    (line : RemoteUser → Line) (cap : Cap) : Server :=
  match s.remoteUserByUid uid with
  | none => s
  | some user => (s.updateRemoteUser uid change).announceToRemoteComembers uid (line user).build cap

def remoteAway (s : Server) (uid : String) (reason : Option String) : Server :=
  s.changeRemoteUser uid (fun user => { user with away := reason })
    (fun user =>
      let line := Line.user user.nick user.user user.host |>.command "AWAY"
      reason.elim line line.trailing)
    .awayNotify

def remoteAccount (s : Server) (uid : String) (account : Option String) : Server :=
  s.changeRemoteUser uid (fun user => { user with account })
    (fun user => Line.user user.nick user.user user.host |>.command "ACCOUNT" |>.param (account.getD "*"))
    .accountNotify

def remoteSetname (s : Server) (uid realname : String) : Server :=
  s.changeRemoteUser uid (fun user => { user with realname })
    (fun user => Line.user user.nick user.user user.host |>.command "SETNAME" |>.trailing realname)
    .setName

/-- The announcement carries the old host as its source. -/
def remoteChghost (s : Server) (uid host : String) : Server :=
  s.changeRemoteUser uid (fun user => { user with host })
    (fun user =>
      Line.user user.nick user.user user.host |>.command "CHGHOST" |>.param user.user |>.param host)
    .chgHost

/-- One character of a umode change, with the sign in force. -/
def umodeStep (state : RemoteUser × Bool) (c : Char) : RemoteUser × Bool :=
  let (user, adding) := state
  if c = '+' then (user, true)
  else if c = '-' then (user, false)
  else if c = 'o' then ({ user with oper := adding }, adding)
  else if c = 'i' then ({ user with invisible := adding }, adding)
  else if c = 'B' then ({ user with bot := adding }, adding)
  else (user, adding)

def remoteUmode (s : Server) (uid flags : String) : Server :=
  s.updateRemoteUser uid fun user => (flags.toList.foldl umodeStep (user, true)).1

/-! ## Channels -/

/-- Deliver a knock to the local channel operators. -/
def remoteKnock (s : Server) (channelName mask : String) : Server :=
  match s.findChannel (s.fold channelName) with
  | none => s
  | some channel =>
    let ops := (channel.members.entries.filter fun member => member.2.op).map (·.1)
    ops.foldl (fun s id => s.send id (Line.server s.info.name |>.code rplKnock
      |>.param (s.entry id).nick |>.param channel.name |>.param mask
      |>.trailing "has asked for an invite" |>.build)) s

/-- Delete a message from the history and tell capable local clients. -/
def remoteRedact (s : Server) (source target msgid reason : String) : Server :=
  let mask := s.remoteSourceMask source
  let event (display : String) : Event :=
    let line := Line.server mask |>.command "REDACT" |>.param display |>.param msgid
    let line := if reason = "" then line else line.trailing reason
    { body := line.body, time := some (formatServerTime s.nowMillis) }
  if isValidChannel target then
    let folded := s.fold target
    let s := s.emit fun fx => { fx with history := fx.history.redact folded msgid }
    match s.findChannel folded with
    | none => s
    | some channel => s.toChannelCapped channel (event channel.name) .messageRedaction none
  else
    -- a private conversation is filed under its two nicks
    let pair := pairKey (s.fold (beforeChar mask '!')) (s.fold target)
    let s := s.emit fun fx => { fx with history := fx.history.redact pair msgid }
    match s.findClient (s.fold target) with
    | some dest =>
      if (s.entry dest).caps.has .messageRedaction then s.toClient dest (event target) else s
    | none => s

/-- An invitation of one of our clients. -/
def remoteInvite (s : Server) (sourceUid targetUid channelName : String) : Server :=
  let folded := s.fold channelName
  match s.findChannel folded, (s.localIdOfUid targetUid).bind s.indexed, s.remoteUserByUid sourceUid with
  | some channel, some target, some source =>
    let nick := (s.entry target).nick
    -- the oldest invitation gives way
    let pending := if maxPendingInvites ≤ channel.invited.length then channel.invited.drop 1
      else channel.invited
    let s := s.modifyChannel folded fun channel => { channel with invited := pending.insert (s.fold nick) }
    let body := Line.user source.nick source.user source.host |>.command "INVITE" |>.param nick
      |>.param channel.name |>.body
    let event : Event :=
      { body, time := some (formatServerTime s.nowMillis), account := source.account }
    (s.toClient target event).toChannelCapped channel event .inviteNotify none
  | _, _, _ => s

/-- Record an invitation that was pending on a peer. -/
def remoteInvitePending (s : Server) (foldedNick channelName : String) : Server :=
  s.modifyChannel (s.fold channelName) fun channel =>
    if maxPendingInvites ≤ channel.invited.length then channel
    else { channel with invited := channel.invited.insert foldedNick }

/-! ## Operators -/

/-- Send bytes to every local client that takes wallops. -/
def wallops (s : Server) (bytes : Bytes) : Server :=
  s.sendAll (s.clients.values.filter fun id => (s.entry id).wallops) bytes

def remoteWallops (s : Server) (source text : String) : Server :=
  s.wallops (Line.server source |>.command "WALLOPS" |>.trailing text |>.build)

def addKline (s : Server) (mask reason setBy : String) : Server :=
  { s with serverBans := s.serverBans ++ [⟨mask, reason, setBy, s.nowUnix⟩] }

def removeKline (s : Server) (mask : String) : Server :=
  { s with serverBans := s.serverBans.filter fun ban => ban.mask != mask }

/-- Disconnect every client whose real mask matches. -/
def killMatching (s : Server) (mask reason : String) : Server :=
  (s.clients.values.filter fun id => maskMatches mask (s.entry id).realHostmask).foldl
    (fun s id => s.requestKill id reason) s

/-- Apply a network-wide ban. -/
def remoteGline (s : Server) (add : Bool) (mask setBy reason : String) : Server :=
  if add then (s.addKline mask reason setBy).killMatching mask ("G-Lined: " ++ reason)
  else s.removeKline mask

/-! ## What these do to the tables -/

@[simp] theorem announceToRemoteComembers_toTables (s : Server) (uid : String) (bytes : Bytes) (cap : Cap) :
    (s.announceToRemoteComembers uid bytes cap).toTables = s.toTables := by
  simp only [announceToRemoteComembers]
  split <;> rfl

end Server

/-- The record of a remote user rewritten. -/
def Registry.update (r : Registry) (uid : String) (change : RemoteUser → RemoteUser) : Registry :=
  match r.remoteByUid.lookup uid with
  | none => r
  | some folded => ⟨r.remoteUsers.modify folded change, r.remoteByUid⟩

namespace Server

@[simp] theorem updateRemoteUser_toTables (s : Server) (uid : String) (change : RemoteUser → RemoteUser) :
    (s.updateRemoteUser uid change).toTables =
      { s.toTables with toRegistry := s.toRegistry.update uid change } := by
  rw [updateRemoteUser, Registry.update]
  split <;> rfl

@[simp] theorem changeRemoteUser_toTables (s : Server) (uid : String) (change : RemoteUser → RemoteUser)
    (line : RemoteUser → Line) (cap : Cap) :
    (s.changeRemoteUser uid change line cap).toTables =
      { s.toTables with toRegistry := s.toRegistry.update uid change } := by
  rw [changeRemoteUser]
  cases known : s.remoteUserByUid uid with
  | some user => simp only [announceToRemoteComembers_toTables, updateRemoteUser_toTables]
  | none =>
    -- an unknown UID has no index entry, or one that leads nowhere
    rw [Registry.update]
    cases index : s.remoteByUid.lookup uid with
    | none => rfl
    | some folded =>
      have absent : folded ∉ s.remoteUsers := by
        rw [Tables.remoteUserByUid, index] at known
        exact AList.lookup_eq_none.mp known
      simp only [Table.modify_of_notMem absent]

theorem umodeStep_keepsKeys (state : RemoteUser × Bool) (c : Char) :
    (umodeStep state c).1.uid = state.1.uid ∧ (umodeStep state c).1.nick = state.1.nick := by
  obtain ⟨user, adding⟩ := state
  simp only [umodeStep]
  split
  · exact ⟨rfl, rfl⟩
  · split
    · exact ⟨rfl, rfl⟩
    · split
      · exact ⟨rfl, rfl⟩
      · split
        · exact ⟨rfl, rfl⟩
        · split <;> exact ⟨rfl, rfl⟩

theorem umode_keepsKeys (flags : List Char) (user : RemoteUser) :
    (flags.foldl umodeStep (user, true)).1.uid = user.uid ∧
      (flags.foldl umodeStep (user, true)).1.nick = user.nick := by
  refine foldl_invariant (I := fun state : RemoteUser × Bool =>
    state.1.uid = user.uid ∧ state.1.nick = user.nick) umodeStep flags ?_ (user, true) ⟨rfl, rfl⟩
  intro state c _ same
  obtain ⟨sameUid, sameNick⟩ := umodeStep_keepsKeys state c
  exact ⟨sameUid.trans same.1, sameNick.trans same.2⟩

@[simp] theorem remoteKnock_toTables (s : Server) (channelName mask : String) :
    (s.remoteKnock channelName mask).toTables = s.toTables := by
  rw [remoteKnock]
  split
  · rfl
  · refine foldl_invariant (I := fun later : Server => later.toTables = s.toTables) _ _ ?_ s rfl
    intro later id _ same
    exact same

@[simp] theorem remoteRedact_toTables (s : Server) (source target msgid reason : String) :
    (s.remoteRedact source target msgid reason).toTables = s.toTables := by
  simp only [remoteRedact]
  split
  · split <;> rfl
  · split
    · split <;> rfl
    · rfl

end Server

end Ferrixd
