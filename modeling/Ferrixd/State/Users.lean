import Ferrixd.State.Rooms

/-! # Remote users

The registry of users on other servers: introductions, nick changes and departures, with
nick collisions resolved in favour of the lexicographically smaller UID. -/

namespace Ferrixd

/-- The frame that removes the loser of a nick collision. -/
def killFor (uid : String) : LinkMessage :=
  .kill uid "Nick collision"

namespace Registry

/-- Insert or refresh a user at a folded nick, dropping the index entry of a different user
it replaces there. -/
def remoteInsert (r : Registry) (folded : String) (user : RemoteUser) : Registry :=
  let staleUid := (r.remoteUsers.lookup folded).bind fun prev =>
    if prev.uid = user.uid then none else some prev.uid
  let remoteByUid := match staleUid with
    | some old => r.remoteByUid.erase old
    | none => r.remoteByUid
  ⟨r.remoteUsers.insert folded user, remoteByUid.insert user.uid folded⟩

/-- Remove a user by UID, through the index. -/
def remoteRemoveByUid (r : Registry) (uid : String) : Registry :=
  match r.remoteByUid.lookup uid with
  | none => r
  | some folded => ⟨r.remoteUsers.erase folded, r.remoteByUid.erase uid⟩

end Registry

/-- Store a new nick in a remote member's record. -/
def ChannelEntry.renameRemote (channel : ChannelEntry) (uid newNick : String) : ChannelEntry :=
  { channel with
    remoteMembers := channel.remoteMembers.modify uid fun member => { member with nick := newNick } }

namespace Server

def requestKill (s : Server) (id : UInt64) (reason : String) : Server :=
  s.modifyEntry id fun entry => entry.requestKill reason

def remoteInsert (s : Server) (folded : String) (user : RemoteUser) : Server :=
  { s with toRegistry := s.toRegistry.remoteInsert folded user }

def remoteRemoveByUid (s : Server) (uid : String) : Server :=
  { s with toRegistry := s.toRegistry.remoteRemoveByUid uid }

/-- Accept an introduction.  The returned frame kills the incoming user at its origin. -/
def acceptRemoteUser (s : Server) (user : RemoteUser) : Server × Option LinkMessage :=
  let folded := s.fold user.nick
  match s.findClient folded with
  | some localId =>
    if user.uid < s.localUid localId then
      -- the incoming user wins; the local client is asked to go
      let s := s.requestKill localId "Nick collision"
      let s := s.remoteInsert folded user
      (s.monitorOnlineMask user.hostmask, none)
    else (s, some (killFor user.uid))
  | none =>
    match s.remoteUsers.lookup folded with
    | some existing =>
      -- the same user once more, as a burst has it; of two others the lower UID keeps the nick
      if existing.uid = user.uid then (s.remoteInsert folded user, none)
      else if user.uid < existing.uid then
        let s := s.sendTowards existing.serverSid (killFor existing.uid)
        let s := s.purgeRemoteMemberships existing.uid "Nick collision"
        let s := s.remoteInsert folded user
        (s.monitorOnlineMask user.hostmask, none)
      else (s, some (killFor user.uid))
    | none =>
      let s := s.remoteInsert folded user
      (s.monitorOnlineMask user.hostmask, none)

/-- Rename a remote member in one channel, telling the local members not yet told. -/
def renameMembership (uid newNick : String) (old : RemoteUser) (state : Server × List UInt64)
    (folded : String) : Server × List UInt64 :=
  let (s, notified) := state
  match s.findChannel folded with
  | none => (s, notified)
  | some channel =>
    if uid ∈ channel.remoteMembers then
      let s := s.modifyChannel folded fun channel => channel.renameRemote uid newNick
      let line := Line.user old.nick old.user old.host |>.command "NICK" |>.param newNick |>.build
      let unaware := channel.members.keys.filter fun id => id ∉ notified
      let s := s.sendAll unaware line
      let s := s.recordChannelEvent (s.fold channel.name) channel.name old.hostmask .nick newNick
      (s, notified ++ unaware)
    else (s, notified)

/-- The last part of a nick change: the registry is re-keyed and everyone told. -/
def applyNickChange (s : Server) (uid newNick : String) (old : RemoteUser) : Server :=
  let s := { s with remoteUsers := s.remoteUsers.erase (s.fold old.nick) }
  let s := s.remoteInsert (s.fold newNick) { old with nick := newNick }
  let s := ((s.remoteMembershipChannels uid).foldl (renameMembership uid newNick old) (s, [])).1
  let s := s.recordWhowas old.nick old.user old.host old.realname
  let s := s.monitorOffline old.nick
  s.monitorOnline newNick (hostmask newNick old.user old.host)

/-- Drop a changer that loses a collision. -/
def dropLosingChanger (s : Server) (uid : String) : Server × Option LinkMessage :=
  let s := s.purgeRemoteMemberships uid "Nick collision"
  (s.remoteRemoveByUid uid, some (killFor uid))

/-- Apply a remote user's nick change.  The returned frame kills the changer at its origin. -/
def remoteNickChange (s : Server) (uid newNick : String) : Server × Option LinkMessage :=
  match s.remoteUserByUid uid with
  | none => (s, none)
  | some old =>
    if old.nick = newNick then (s, none)
    else
      let newFolded := s.fold newNick
      -- only the case changes, and nobody else can hold the nick
      if newFolded = s.fold old.nick then (s.applyNickChange uid newNick old, none)
      else match s.findClient newFolded with
        | some localId =>
          -- the lower UID keeps the nick, here and below
          if uid < s.localUid localId then
            ((s.requestKill localId "Nick collision").applyNickChange uid newNick old, none)
          else s.dropLosingChanger uid
        | none =>
          match s.remoteUsers.lookup newFolded with
          | some existing =>
            if uid < existing.uid then
              let s := s.sendTowards existing.serverSid (killFor existing.uid)
              let s := s.purgeRemoteMemberships existing.uid "Nick collision"
              let s := { s with remoteByUid := s.remoteByUid.erase existing.uid }
              (s.applyNickChange uid newNick old, none)
            else s.dropLosingChanger uid
          | none => (s.applyNickChange uid newNick old, none)

/-- Remove a departing user from the registry and from every channel. -/
def remoteQuit (s : Server) (uid reason : String) : Server :=
  let departed := s.remoteUserByUid uid
  let s := s.purgeRemoteMemberships uid reason
  let s := s.remoteRemoveByUid uid
  match departed with
  | some user =>
    (s.recordWhowas user.nick user.user user.host user.realname).monitorOffline user.nick
  | none => s

end Server

/-- Whether a UID is in our own namespace. -/
def Tables.ownsLocalUid (s : Tables) (uid : String) : Bool :=
  (s.localIdOfUid uid).isSome

namespace Server

/-- Disconnect a local client, or drop a remote user. -/
def killByUid (s : Server) (uid reason : String) : Server :=
  match s.localIdOfUid uid with
  | some id => if id ∈ s.byId then s.requestKill id reason else s
  | none => s.remoteQuit uid reason

/-- Route an operator's kill of a remote user towards its server. -/
def killRemote (s : Server) (user : RemoteUser) (reason : String) : Server :=
  s.sendTowards user.serverSid (.kill user.uid reason)

end Server

/-! ## What these do to the tables -/

namespace Tables

/-- The tables after a local client was asked to go. -/
def killed (t : Tables) (id : UInt64) (reason : String) : Tables :=
  { t with entries := t.entries.insert id ((t.entry id).requestKill reason) }

/-- The tables after a remote user was taken out of every channel. -/
def purged (t : Tables) (uid : String) : Tables :=
  { t with
    channels := ((t.remoteChannels.lookup uid).getD []).foldl (leave uid) t.channels
    remoteChannels := t.remoteChannels.erase uid }

/-- Whether a UID wins the nick against everyone else who holds it. -/
def outranks (t : Tables) (folded uid : String) : Bool :=
  match t.findClient folded with
  | some localId => uid < t.localUid localId
  | none => (t.remoteUsers.lookup folded).all fun existing => uid < existing.uid

/-- Whether the nick is held by no local client but by this very UID. -/
def refreshes (t : Tables) (folded uid : String) : Bool :=
  (t.findClient folded).isNone && (t.remoteUsers.lookup folded).any fun existing => existing.uid = uid

/-- Make way for the winner of a nick: a local holder is asked to go, a remote one is purged. -/
def vacate (t : Tables) (folded : String) : Tables :=
  match t.findClient folded with
  | some localId => t.killed localId "Nick collision"
  | none =>
    match t.remoteUsers.lookup folded with
    | some existing => t.purged existing.uid
    | none => t

theorem vacate_toTopology (t : Tables) (folded : String) : (t.vacate folded).toTopology = t.toTopology := by
  rw [vacate]
  split
  · rfl
  · split <;> rfl

/-- The tables after a nick change went through. -/
def renamed (t : Tables) (uid newNick : String) (old : RemoteUser) : Tables :=
  { t with
    toRegistry := (⟨t.remoteUsers.erase (t.fold old.nick), t.remoteByUid⟩ : Registry).remoteInsert
      (t.fold newNick) { old with nick := newNick }
    channels := (t.remoteMembershipChannels uid).foldl
      (fun channels folded => channels.modify folded fun channel => channel.renameRemote uid newNick)
      t.channels }

/-- The tables after a remote user left the network. -/
def departed (t : Tables) (uid : String) : Tables :=
  { t.purged uid with toRegistry := t.toRegistry.remoteRemoveByUid uid }

end Tables

namespace Server

@[simp] theorem requestKill_toTables (s : Server) (id : UInt64) (reason : String) :
    (s.requestKill id reason).toTables = s.toTables.killed id reason := rfl

@[simp] theorem requestKill_fx (s : Server) (id : UInt64) (reason : String) :
    (s.requestKill id reason).fx = s.fx := rfl

@[simp] theorem remoteInsert_toTables (s : Server) (folded : String) (user : RemoteUser) :
    (s.remoteInsert folded user).toTables =
      { s.toTables with toRegistry := s.toRegistry.remoteInsert folded user } := rfl

@[simp] theorem remoteInsert_fx (s : Server) (folded : String) (user : RemoteUser) :
    (s.remoteInsert folded user).fx = s.fx := rfl

@[simp] theorem remoteRemoveByUid_toTables (s : Server) (uid : String) :
    (s.remoteRemoveByUid uid).toTables =
      { s.toTables with toRegistry := s.toRegistry.remoteRemoveByUid uid } := rfl

@[simp] theorem remoteRemoveByUid_fx (s : Server) (uid : String) :
    (s.remoteRemoveByUid uid).fx = s.fx := rfl

theorem purgeRemoteMemberships_purged (s : Server) (uid reason : String) :
    (s.purgeRemoteMemberships uid reason).toTables = s.toTables.purged uid :=
  purgeRemoteMemberships_toTables s uid reason

/-- An introduction that refreshes the user's own entry. -/
theorem acceptRemoteUser_refresh {s : Server} {user : RemoteUser}
    (refreshes : s.refreshes (s.fold user.nick) user.uid = true) :
    s.acceptRemoteUser user = (s.remoteInsert (s.fold user.nick) user, none) := by
  rw [Tables.refreshes, Bool.and_eq_true, Option.isNone_iff_eq_none] at refreshes
  obtain ⟨noLocal, own⟩ := refreshes
  rw [acceptRemoteUser]
  simp only [noLocal]
  cases found : s.remoteUsers.lookup (s.fold user.nick) with
  | none => simp [found] at own
  | some existing =>
    have same : existing.uid = user.uid := by simpa [found] using own
    simp [same]

/-- An introduction that wins its nick. -/
theorem acceptRemoteUser_wins {s : Server} {user : RemoteUser}
    (wins : s.outranks (s.fold user.nick) user.uid = true) :
    (s.acceptRemoteUser user).2 = none ∧
      (s.acceptRemoteUser user).1.toTables =
        { s.toTables.vacate (s.fold user.nick) with
          toRegistry := s.toRegistry.remoteInsert (s.fold user.nick) user } := by
  rw [Tables.outranks] at wins
  rw [acceptRemoteUser, Tables.vacate]
  cases holder : s.findClient (s.fold user.nick) with
  | some localId =>
    simp only [holder, decide_eq_true_eq] at wins
    simp only [if_pos wins]
    refine ⟨trivial, ?_⟩
    simp only [monitorOnlineMask_toTables, remoteInsert_toTables, requestKill_toTables]
    rfl
  | none =>
    simp only [holder] at wins
    cases found : s.remoteUsers.lookup (s.fold user.nick) with
    | none =>
      simp only [monitorOnlineMask_toTables, remoteInsert_toTables, and_self]
    | some existing =>
      -- the smaller UID wins, and equal ones are no collision
      have smaller : user.uid < existing.uid := by simpa [found] using wins
      have different : ¬ existing.uid = user.uid := fun same => by
        rw [same] at smaller
        exact String.lt_irrefl _ smaller
      simp only [if_neg different, if_pos smaller]
      refine ⟨trivial, ?_⟩
      simp only [monitorOnlineMask_toTables, remoteInsert_toTables, purgeRemoteMemberships_purged,
        sendTowards_toTables]
      rfl

/-- An introduction that loses changes nothing and is answered with a kill. -/
theorem acceptRemoteUser_loses {s : Server} {user : RemoteUser}
    (notRefreshes : s.refreshes (s.fold user.nick) user.uid = false)
    (loses : s.outranks (s.fold user.nick) user.uid = false) :
    s.acceptRemoteUser user = (s, some (killFor user.uid)) := by
  rw [Tables.outranks] at loses
  rw [Tables.refreshes] at notRefreshes
  rw [acceptRemoteUser]
  cases holder : s.findClient (s.fold user.nick) with
  | some localId =>
    simp only [holder, decide_eq_false_iff_not] at loses
    simp only [if_neg loses]
  | none =>
    simp only [holder] at loses notRefreshes
    cases found : s.remoteUsers.lookup (s.fold user.nick) with
    | none => simp [found] at loses
    | some existing =>
      have different : ¬ existing.uid = user.uid := by simpa [found] using notRefreshes
      have larger : ¬ user.uid < existing.uid := by simpa [found] using loses
      simp only [if_neg different, if_neg larger]

theorem renameAll_toTables (uid newNick : String) (old : RemoteUser) (names : List String)
    (state : Server × List UInt64) :
    (names.foldl (renameMembership uid newNick old) state).1.toTables =
        { state.1.toTables with
          channels := names.foldl (fun channels folded =>
            channels.modify folded fun channel => channel.renameRemote uid newNick) state.1.channels } ∧
      (names.foldl (renameMembership uid newNick old) state).1.fx.frames = state.1.fx.frames := by
  induction names generalizing state with
  | nil => exact ⟨rfl, rfl⟩
  | cons name rest ih =>
    obtain ⟨s, notified⟩ := state
    have first : (renameMembership uid newNick old (s, notified) name).1.toTables =
          { s.toTables with
            channels := s.channels.modify name fun channel => channel.renameRemote uid newNick } ∧
        (renameMembership uid newNick old (s, notified) name).1.fx.frames = s.fx.frames := by
      simp only [renameMembership, Tables.findChannel]
      cases found : s.channels.lookup name with
      | none => simp [Table.modify_of_notMem (AList.lookup_eq_none.mp found)]
      | some channel =>
        by_cases member : uid ∈ channel.remoteMembers
        · simp [member]
        · have fixed : s.channels.modify name (fun channel => channel.renameRemote uid newNick) =
              s.channels := by
            refine Table.modify_eq_self fun value stored => ?_
            cases found.symm.trans stored
            rw [ChannelEntry.renameRemote, Table.modify_of_notMem member]
          simp [member, fixed]
    obtain ⟨restTables, restFrames⟩ := ih (renameMembership uid newNick old (s, notified) name)
    rw [List.foldl_cons, List.foldl_cons, restTables, restFrames, first.1, first.2]
    exact ⟨rfl, rfl⟩

@[simp] theorem applyNickChange_toTables (s : Server) (uid newNick : String) (old : RemoteUser) :
    (s.applyNickChange uid newNick old).toTables = s.toTables.renamed uid newNick old := by
  simp only [applyNickChange, monitorOnline_toTables, monitorOffline_toTables, recordWhowas_toTables]
  exact (renameAll_toTables uid newNick old _ _).1

@[simp] theorem applyNickChange_frames (s : Server) (uid newNick : String) (old : RemoteUser) :
    (s.applyNickChange uid newNick old).fx.frames = s.fx.frames := by
  simp only [applyNickChange, monitorOnline_frames, monitorOffline_frames, recordWhowas_frames]
  exact (renameAll_toTables uid newNick old _ _).2

@[simp] theorem remoteQuit_toTables (s : Server) (uid reason : String) :
    (s.remoteQuit uid reason).toTables = s.toTables.departed uid := by
  rw [remoteQuit]
  split <;> simp only [monitorOffline_toTables, recordWhowas_toTables, remoteRemoveByUid_toTables,
    purgeRemoteMemberships_purged] <;> rfl

@[simp] theorem remoteQuit_frames (s : Server) (uid reason : String) :
    (s.remoteQuit uid reason).fx.frames = s.fx.frames := by
  rw [remoteQuit]
  split <;> simp

/-- A nick change that only changes the case of the nick. -/
theorem remoteNickChange_case {s : Server} {uid newNick : String} {old : RemoteUser}
    (known : s.remoteUserByUid uid = some old) (changed : old.nick ≠ newNick)
    (sameFold : s.fold newNick = s.fold old.nick) :
    s.remoteNickChange uid newNick = (s.applyNickChange uid newNick old, none) := by
  simp only [remoteNickChange, known, if_neg changed, if_pos sameFold]

/-- A nick change that wins its new nick. -/
theorem remoteNickChange_wins {s : Server} {uid newNick : String} {old : RemoteUser}
    (known : s.remoteUserByUid uid = some old) (changed : s.fold newNick ≠ s.fold old.nick)
    (wins : s.outranks (s.fold newNick) uid = true) :
    (s.remoteNickChange uid newNick).2 = none ∧
      (s.remoteNickChange uid newNick).1.toTables =
        (s.toTables.vacate (s.fold newNick)).renamed uid newNick old := by
  have different : old.nick ≠ newNick := fun same => changed (congrArg s.fold same.symm)
  rw [Tables.outranks] at wins
  simp only [remoteNickChange, known, if_neg different, if_neg changed, Tables.vacate]
  cases holder : s.findClient (s.fold newNick) with
  | some localId =>
    simp only [holder, decide_eq_true_eq] at wins
    simp only [if_pos wins]
    exact ⟨trivial, applyNickChange_toTables _ _ _ _⟩
  | none =>
    simp only [holder] at wins
    cases found : s.remoteUsers.lookup (s.fold newNick) with
    | none => exact ⟨rfl, applyNickChange_toTables _ _ _ _⟩
    | some existing =>
      have smaller : uid < existing.uid := by simpa [found] using wins
      simp only [if_pos smaller]
      refine ⟨trivial, ?_⟩
      rw [applyNickChange_toTables]
      have tables : ((s.sendTowards existing.serverSid (killFor existing.uid)).purgeRemoteMemberships
          existing.uid "Nick collision").toTables = s.toTables.purged existing.uid := by
        rw [purgeRemoteMemberships_purged, sendTowards_toTables]
      -- the index entry of the purged user goes either way
      have registry : (⟨s.remoteUsers.erase (s.fold old.nick), s.remoteByUid.erase existing.uid⟩ :
            Registry).remoteInsert (s.fold newNick) { old with nick := newNick } =
          (⟨s.remoteUsers.erase (s.fold old.nick), s.remoteByUid⟩ : Registry).remoteInsert
            (s.fold newNick) { old with nick := newNick } := by
        simp only [Registry.remoteInsert, Table.lookup_erase_if, if_neg changed, found, Option.bind_some]
        by_cases same : existing.uid = old.uid
        · simp only [same, if_true, Table.insert_erase_self]
        · simp only [if_neg same, Table.erase_erase_self]
      simp only [Tables.renamed, tables]
      exact congrArg (fun r => { (s.toTables.purged existing.uid).renamed uid newNick old with
        toRegistry := r }) registry

/-- A nick change that loses its new nick removes the changer. -/
theorem remoteNickChange_loses {s : Server} {uid newNick : String} {old : RemoteUser}
    (known : s.remoteUserByUid uid = some old) (changed : s.fold newNick ≠ s.fold old.nick)
    (loses : s.outranks (s.fold newNick) uid = false) :
    s.remoteNickChange uid newNick = s.dropLosingChanger uid := by
  have different : old.nick ≠ newNick := fun same => changed (congrArg s.fold same.symm)
  rw [Tables.outranks] at loses
  simp only [remoteNickChange, known, if_neg different, if_neg changed]
  cases holder : s.findClient (s.fold newNick) with
  | some localId =>
    simp only [holder, decide_eq_false_iff_not] at loses
    simp only [if_neg loses]
  | none =>
    simp only [holder] at loses
    cases found : s.remoteUsers.lookup (s.fold newNick) with
    | none => simp [found] at loses
    | some existing =>
      have larger : ¬ uid < existing.uid := by simpa [found] using loses
      simp only [if_neg larger]

theorem dropLosingChanger_toTables (s : Server) (uid : String) :
    (s.dropLosingChanger uid).1.toTables = s.toTables.departed uid := by
  simp only [dropLosingChanger, remoteRemoveByUid_toTables, purgeRemoteMemberships_purged]
  rfl

end Server

end Ferrixd
