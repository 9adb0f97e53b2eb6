import Ferrixd.State.Identity
import Ferrixd.State.Messages
import Ferrixd.State.Modes
import Ferrixd.State.Users

/-! # What tells nobody

Most functions queue bytes for clients and nothing else: no frame for a peer, and no word to those who watch a
nick. -/

namespace Ferrixd

/-- No watcher was told anything, and the watchers are the same. -/
structure Unnoticed (s s' : Server) : Prop where
  notices : s'.fx.notices = s.fx.notices
  monitors : s'.monitors = s.monitors

/-- Besides, nothing was queued for peers. -/
structure Silent (s s' : Server) : Prop where
  frames : s'.fx.frames = s.fx.frames
  unnoticed : Unnoticed s s'

namespace Unnoticed

variable {s s' : Server}

theorem refl (s : Server) : Unnoticed s s :=
  ⟨rfl, rfl⟩

theorem trans {first second third : Server} (left : Unnoticed first second) (right : Unnoticed second third) :
    Unnoticed first third :=
  ⟨right.notices.trans left.notices, right.monitors.trans left.monitors⟩

theorem after {first second third : Server} (right : Unnoticed second third) (left : Unnoticed first second) :
    Unnoticed first third :=
  left.trans right

theorem of_tables (tables : s'.toTables = s.toTables) (notices : s'.fx.notices = s.fx.notices) : Unnoticed s s' :=
  ⟨notices, by rw [tables]⟩

theorem foldl {α : Type} {change : Server → α → Server} (unnoticed : ∀ s item, Unnoticed s (change s item))
    (items : List α) (s : Server) : Unnoticed s (items.foldl change s) :=
  foldl_invariant (I := Unnoticed s) change items (fun later item _ before => before.trans (unnoticed later item)) s
    (refl s)

end Unnoticed

namespace Server

variable (s : Server)

theorem sendToLink_notices (sid : String) (message : LinkMessage) :
    (s.sendToLink sid message).fx.notices = s.fx.notices := by
  rw [sendToLink]
  split <;> rfl

theorem sendTowards_notices (sid : String) (message : LinkMessage) :
    (s.sendTowards sid message).fx.notices = s.fx.notices := by
  rw [sendTowards]
  split
  · exact sendToLink_notices s _ _
  · rfl

theorem relayToMembers_notices (channelName : String) (originSid : Option String) (message : LinkMessage) :
    (s.relayToMembers channelName originSid message).fx.notices = s.fx.notices := by
  rw [relayToMembers]
  split
  · rfl
  · exact foldl_invariant (I := fun later : Server => later.fx.notices = s.fx.notices) _ _
      (fun later peer _ same => (sendToLink_notices later peer message).trans same) s rfl

end Server

namespace Silent

variable {s s' : Server}

theorem refl (s : Server) : Silent s s :=
  ⟨rfl, .refl s⟩

theorem trans {first second third : Server} (left : Silent first second) (right : Silent second third) :
    Silent first third :=
  ⟨right.frames.trans left.frames, left.unnoticed.trans right.unnoticed⟩

theorem after {first second third : Server} (right : Silent second third) (left : Silent first second) :
    Silent first third :=
  left.trans right

theorem foldl {α : Type} {change : Server → α → Server} (silent : ∀ s item, Silent s (change s item))
    (items : List α) (s : Server) : Silent s (items.foldl change s) :=
  foldl_invariant (I := Silent s) change items (fun later item _ before => before.trans (silent later item)) s (refl s)

/-- A fold that carries something else along. -/
theorem foldl_fst {α β : Type} {change : Server × β → α → Server × β}
    (silent : ∀ state item, Silent state.1 (change state item).1) (items : List α) (state : Server × β) :
    Silent state.1 (items.foldl change state).1 :=
  foldl_invariant (I := fun later : Server × β => Silent state.1 later.1) change items
    (fun later item _ before => before.trans (silent later item)) state (refl state.1)

variable (s)

theorem send (id : UInt64) (bytes : Bytes) : Silent s (s.send id bytes) :=
  ⟨rfl, rfl, rfl⟩

theorem modifyEntry (id : UInt64) (change : ClientEntry → ClientEntry) : Silent s (s.modifyEntry id change) :=
  ⟨rfl, rfl, rfl⟩

/-! ## Channels -/

theorem reapChannel (folded : String) : Silent s (s.reapChannel folded) := by
  rw [Server.reapChannel]
  split
  · exact refl s
  · split <;> exact ⟨rfl, rfl, rfl⟩

theorem endJoin (folded : String) : Silent s (s.endJoin folded) := by
  rw [Server.endJoin]
  exact (reapChannel _ folded).after ⟨rfl, rfl, rfl⟩

theorem beginJoin (folded name : String) : Silent s (s.beginJoin folded name).1 := by
  rw [Server.beginJoin]
  split <;> exact ⟨rfl, rfl, rfl⟩

theorem persistRegistered (folded : String) : Silent s (s.persistRegistered folded) := by
  have silent := Server.persistRegistered_fx s folded
  refine ⟨by rw [silent], by rw [silent], ?_⟩
  rw [Server.persistRegistered_toTables, Tables.persisted]
  split <;> rfl

theorem purgeRemoteMemberships (uid reason : String) : Silent s (s.purgeRemoteMemberships uid reason) := by
  rw [Server.purgeRemoteMemberships]
  split
  · exact refl s
  · dsimp only
    refine (foldl_fst (fun state folded => ?_) _ (_, [])).after ⟨rfl, rfl, rfl⟩
    rw [Server.purgeMembership]
    dsimp only
    split
    · exact refl _
    · split
      · split <;> exact (reapChannel _ folded).after ⟨rfl, rfl, rfl⟩
      · exact refl _

theorem reconcileChannelTs (folded : String) (peerTs : UInt64) : Silent s (s.reconcileChannelTs folded peerTs) := by
  rw [Server.reconcileChannelTs]
  split
  · exact refl s
  · split
    · dsimp only
      split <;> exact ⟨rfl, rfl, rfl⟩
    · exact refl s

theorem remoteJoin (channelName uid : String) (status : MemberPrefix) (peerTs : UInt64) :
    Silent s (s.remoteJoin channelName uid status peerTs) := by
  rw [Server.remoteJoin]
  split
  · exact refl s
  · dsimp only
    refine (beginJoin s (s.fold channelName) channelName).trans ?_
    have aged (later : Server) (created : Bool) : Silent later
        (if created then later.modifyChannel (s.fold channelName) fun channel => channel.dated peerTs
          else later.reconcileChannelTs (s.fold channelName) peerTs) := by
      split
      · exact ⟨rfl, rfl, rfl⟩
      · exact reconcileChannelTs later _ _
    refine (aged _ (s.beginJoin (s.fold channelName) channelName).2).trans ?_
    generalize (if (s.beginJoin (s.fold channelName) channelName).2 then _ else _) = later
    split
    · exact refl _
    · refine .trans ?_ (endJoin _ _)
      split <;> exact ⟨rfl, rfl, rfl⟩

theorem remotePart (channelName uid reason : String) : Silent s (s.remotePart channelName uid reason) := by
  rw [Server.remotePart]
  split
  · exact refl s
  · split
    · dsimp only
      refine .trans ?_ (reapChannel _ _)
      split <;> exact ⟨rfl, rfl, rfl⟩
    · exact refl s

theorem remoteTopic (channelName source setBy : String) (setAt : UInt64) (text : String) :
    Silent s (s.remoteTopic channelName source setBy setAt text) := by
  rw [Server.remoteTopic]
  split
  · exact refl s
  · dsimp only
    refine .trans ?_ (persistRegistered _ _)
    split <;> exact ⟨rfl, rfl, rfl⟩

theorem applyModeChange (channelName source : String) (peerTs : UInt64) (flags : String) (args : List String) :
    Silent s (s.applyModeChange channelName source peerTs flags args).1 := by
  rw [Server.applyModeChange]
  split
  · exact refl s
  · split
    · exact refl s
    · dsimp only
      refine (reconcileChannelTs s (s.fold channelName) peerTs).trans ?_
      split
      · exact ⟨rfl, rfl, rfl⟩
      · exact (persistRegistered _ _).after ⟨rfl, rfl, rfl⟩

theorem remoteMode (channelName source : String) (peerTs : UInt64) (flags : String) (args : List String) :
    Silent s (s.remoteMode channelName source peerTs flags args) := by
  have applied := applyModeChange s channelName source peerTs flags args
  rw [Server.remoteMode]
  split
  · rename_i changed
    rwa [changed] at applied
  · rename_i changed
    rw [changed] at applied
    dsimp only
    split
    · exact applied
    · exact .trans applied ⟨rfl, rfl, rfl⟩

theorem remoteKick (channelName source targetUid reason : String) :
    Silent s (s.remoteKick channelName source targetUid reason) := by
  rw [Server.remoteKick]
  split
  · exact refl s
  · dsimp only
    split
    · split
      · exact (reapChannel _ _).after ⟨rfl, rfl, rfl⟩
      · exact refl s
    · split
      · exact refl s
      · exact (reapChannel _ _).after ⟨rfl, rfl, rfl⟩

/-! ## Renames -/

theorem moveInSets (oldFolded newFolded : String) (channel : ChannelEntry) :
    Silent s (s.moveInSets oldFolded newFolded channel) := by
  rw [Server.moveInSets]
  have moved := foldl (fun later id => modifyEntry later id fun entry =>
    { entry with channels := exchange oldFolded newFolded entry.channels })
    (channel.members.keys.filter fun id => id ∈ s.byId) s
  exact moved.trans ⟨rfl, rfl, rfl⟩

theorem moveRegistration (oldFolded newFolded newName : String) :
    Silent s (s.moveRegistration oldFolded newFolded newName) := by
  rw [Server.moveRegistration]
  split
  · exact refl s
  · exact (persistRegistered _ _).after ⟨rfl, rfl, rfl⟩

variable {s} in
theorem renameChannel {renamed : Server} {oldFolded newName : String}
    (moved : s.renameChannel oldFolded newName = .ok renamed) : Silent s renamed := by
  rw [Server.renameChannel] at moved
  dsimp only at moved
  split at moved
  · cases moved
  · rename_i channel _
    split at moved
    · cases moved
      exact ⟨rfl, rfl, rfl⟩
    · split at moved
      · cases moved
      · cases moved
        have stored : Silent s { s with
            channels := (s.channels.insert (s.fold newName) { channel with name := newName }).erase oldFolded } :=
          ⟨rfl, rfl, rfl⟩
        have sets := moveInSets { s with
          channels := (s.channels.insert (s.fold newName) { channel with name := newName }).erase oldFolded }
          oldFolded (s.fold newName) { channel with name := newName }
        have rest (later : Server) : Silent later
            (((later.emit fun fx => { fx with
              history := fx.history.renameTarget oldFolded (s.fold newName) }).moveRegistration oldFolded
                (s.fold newName) newName).moveReadMarkers oldFolded (s.fold newName)) := by
          have history : Silent later (later.emit fun fx => { fx with
            history := fx.history.renameTarget oldFolded (s.fold newName) }) := ⟨rfl, rfl, rfl⟩
          exact (history.trans (moveRegistration _ oldFolded (s.fold newName) newName)).trans ⟨rfl, rfl, rfl⟩
        exact (stored.trans sets).trans (rest _)

theorem resyncMember (channel : ChannelEntry) (oldDisplay : String) (names : List (String × MemberPrefix)) (id : UInt64) :
    Silent s (s.resyncMember channel oldDisplay names id) := by
  rw [Server.resyncMember]
  refine Silent.trans ?_ (send _ id _)
  refine Silent.trans ?_ (foldl (fun later chunk => send later id _) _ _)
  split <;> exact ⟨rfl, rfl, rfl⟩

theorem broadcastRename (folded oldDisplay sourceMask reason : String) :
    Silent s (s.broadcastRename folded oldDisplay sourceMask reason) := by
  rw [Server.broadcastRename]
  split
  · exact refl s
  · refine foldl (fun later id => ?_) _ s
    split
    · exact ⟨rfl, rfl, rfl⟩
    · exact resyncMember later _ _ _ id

theorem remoteRename (source old new reason : String) : Silent s (s.remoteRename source old new reason) := by
  rw [Server.remoteRename]
  split
  · exact refl s
  · rename_i moved
    exact (renameChannel moved).trans (broadcastRename _ _ _ _ _)

/-! ## Users and operators -/

theorem updateRemoteUser (uid : String) (change : RemoteUser → RemoteUser) :
    Silent s (s.updateRemoteUser uid change) := by
  rw [Server.updateRemoteUser]
  split <;> exact ⟨rfl, rfl, rfl⟩

theorem changeRemoteUser (uid : String) (change : RemoteUser → RemoteUser) (line : RemoteUser → Line) (cap : Cap) :
    Silent s (s.changeRemoteUser uid change line cap) := by
  rw [Server.changeRemoteUser]
  split
  · exact refl s
  · refine (updateRemoteUser s uid change).trans ?_
    simp only [Server.announceToRemoteComembers]
    split <;> exact ⟨rfl, rfl, rfl⟩

theorem remoteKnock (channelName mask : String) : Silent s (s.remoteKnock channelName mask) := by
  rw [Server.remoteKnock]
  split
  · exact refl s
  · refine foldl (fun later id => ?_) _ s
    exact ⟨rfl, rfl, rfl⟩

theorem remoteRedact (source target msgid reason : String) : Silent s (s.remoteRedact source target msgid reason) := by
  simp only [Server.remoteRedact]
  split
  · split <;> exact ⟨rfl, rfl, rfl⟩
  · split
    · split <;> exact ⟨rfl, rfl, rfl⟩
    · exact ⟨rfl, rfl, rfl⟩

theorem remoteInvite (sourceUid targetUid channelName : String) :
    Silent s (s.remoteInvite sourceUid targetUid channelName) := by
  rw [Server.remoteInvite]
  dsimp only
  split <;> exact ⟨rfl, rfl, rfl⟩

theorem killMatching (mask reason : String) : Silent s (s.killMatching mask reason) := by
  rw [Server.killMatching]
  refine foldl (fun later id => ?_) _ s
  exact ⟨rfl, rfl, rfl⟩

theorem remoteGline (add : Bool) (mask setBy reason : String) : Silent s (s.remoteGline add mask setBy reason) := by
  rw [Server.remoteGline]
  split
  · exact (killMatching _ _ _).after ⟨rfl, rfl, rfl⟩
  · exact ⟨rfl, rfl, rfl⟩

end Silent

end Ferrixd
