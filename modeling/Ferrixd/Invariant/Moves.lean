import Ferrixd.Invariant.Frames

/-! # The moves of remote users

What peers make a server do to users, servers and bans comes down to a few kinds of change, whatever
frame it arrives in.  An invariant that these keep is kept by all of it. -/

namespace Ferrixd

/-- A succession of changes to what a server knows of its peers: clients are asked to leave, remote
users leave channels or take other names, invitations change. -/
inductive Moves : Tables → Tables → Prop where
  | refl (t : Tables) : Moves t t
  | trans {first second third : Tables} (left : Moves first second) (right : Moves second third) :
      Moves first third
  | killed (t : Tables) (id : UInt64) (reason : String) : Moves t (t.killed id reason)
  | purged (t : Tables) (uid : String) : Moves t (t.purged uid)
  | parted (t : Tables) (folded uid : String) : Moves t (t.parted folded uid)
  | renamed (t : Tables) (uid newNick : String) (old : RemoteUser) : Moves t (t.renamed uid newNick old)
  | invited (t : Tables) (folded : String) (pending : ChannelEntry → List String) :
      Moves t { t with
        channels := t.channels.modify folded fun channel => { channel with invited := pending channel } }
  /-- Nothing about the clients, the channels and their registrations changes. -/
  | elsewhere {t t' : Tables} (info : t'.info = t.info) (locals : t'.toLocals = t.toLocals)
      (channels : t'.channels = t.channels) (records : t'.registeredChannels = t.registeredChannels)
      (rows : t'.chanreg = t.chanreg) : Moves t t'

/-- The frames that may touch the local members or the settings of a channel. -/
def LinkMessage.altersRoom : LinkMessage → Bool
  | .sjoin _ _ _ _ _ | .stopic _ _ _ _ _ | .smode _ _ _ _ _ | .skick _ _ _ _ | .srename _ _ _ _ => true
  | _ => false

namespace Moves

theorem of_eq {t t' : Tables} (same : t' = t) : Moves t t' := by
  rw [same]
  exact .refl t

theorem departed (t : Tables) (uid : String) : Moves t (t.departed uid) :=
  (purged t uid).trans (elsewhere rfl rfl rfl rfl rfl)

theorem departedAll (t : Tables) (uids : List String) : Moves t (t.departedAll uids) := by
  refine foldl_invariant (I := Moves t) _ uids ?_ t (refl t)
  intro later uid _ moves
  exact moves.trans (departed later uid)

theorem vacate (t : Tables) (folded : String) : Moves t (t.vacate folded) := by
  rw [Tables.vacate]
  split
  · exact killed t _ _
  · split
    · exact purged t _
    · exact refl t

variable (s : Server)

/-! ## Users -/

theorem acceptRemoteUser (user : RemoteUser) : Moves s.toTables (s.acceptRemoteUser user).1.toTables := by
  by_cases wins : s.outranks (s.fold user.nick) user.uid = true
  · rw [(Server.acceptRemoteUser_wins wins).2]
    exact (vacate s.toTables _).trans (elsewhere rfl rfl rfl rfl rfl)
  · by_cases refreshes : s.refreshes (s.fold user.nick) user.uid = true
    · rw [Server.acceptRemoteUser_refresh refreshes]
      exact elsewhere rfl rfl rfl rfl rfl
    · rw [Server.acceptRemoteUser_loses (by simpa using refreshes) (by simpa using wins)]
      exact refl _

theorem remoteNickChange (uid newNick : String) : Moves s.toTables (s.remoteNickChange uid newNick).1.toTables := by
  cases found : s.remoteUserByUid uid with
  | none => simpa only [Server.remoteNickChange, found] using refl _
  | some old =>
    by_cases unchanged : old.nick = newNick
    · simpa only [Server.remoteNickChange, found, if_pos unchanged] using refl _
    by_cases sameFold : s.fold newNick = s.fold old.nick
    · rw [Server.remoteNickChange_case found unchanged sameFold, Server.applyNickChange_toTables]
      exact renamed _ _ _ _
    by_cases wins : s.outranks (s.fold newNick) uid = true
    · rw [(Server.remoteNickChange_wins found sameFold wins).2]
      exact (vacate s.toTables _).trans (renamed _ _ _ _)
    · rw [Server.remoteNickChange_loses found sameFold (by simpa using wins), Server.dropLosingChanger_toTables]
      exact departed s.toTables uid

theorem remoteQuit (uid reason : String) : Moves s.toTables (s.remoteQuit uid reason).toTables := by
  rw [Server.remoteQuit_toTables]
  exact departed s.toTables uid

theorem killByUid (uid reason : String) : Moves s.toTables (s.killByUid uid reason).toTables := by
  rw [Server.killByUid]
  cases s.localIdOfUid uid with
  | none => exact remoteQuit s uid reason
  | some id =>
    show Moves s.toTables (if id ∈ s.byId then s.requestKill id reason else s).toTables
    split
    · exact killed s.toTables id reason
    · exact refl _

theorem changeRemoteUser (uid : String) (change : RemoteUser → RemoteUser) (line : RemoteUser → Line) (cap : Cap) :
    Moves s.toTables (s.changeRemoteUser uid change line cap).toTables := by
  rw [Server.changeRemoteUser_toTables]
  exact elsewhere rfl rfl rfl rfl rfl

theorem killMatching (mask reason : String) : Moves s.toTables (s.killMatching mask reason).toTables := by
  refine foldl_invariant (I := fun later : Server => Moves s.toTables later.toTables) _ _ ?_ s (refl _)
  intro later id _ moves
  exact moves.trans (killed later.toTables id reason)

theorem remoteGline (add : Bool) (mask setBy reason : String) :
    Moves s.toTables (s.remoteGline add mask setBy reason).toTables := by
  rw [Server.remoteGline]
  split
  · have added : Moves s.toTables (s.addKline mask reason setBy).toTables := elsewhere rfl rfl rfl rfl rfl
    exact added.trans (killMatching _ _ _)
  · exact elsewhere rfl rfl rfl rfl rfl

/-! ## Servers -/

theorem splitRemoteServer (sid reason : String) : Moves s.toTables (s.splitRemoteServer sid reason).toTables := by
  have split : Moves s.toTables { s.toTables with
      toTopology := s.toTopology.without (s.uplinkSubtree sid) } := elsewhere rfl rfl rfl rfl rfl
  rw [Server.splitRemoteServer_toTables, Tables.splitOff]
  exact split.trans (departedAll _ _)

theorem dropLink (sid : String) : Moves s.toTables (s.dropLink sid).toTables := by
  have unlinked : Moves s.toTables { s.toTables with toTopology := s.toTopology.unlinked sid } :=
    elsewhere rfl rfl rfl rfl rfl
  rw [Server.dropLink_toTables, Tables.linkDropped]
  exact unlinked.trans (departedAll _ _)

theorem routeAuthorize (peerSid sid : String) : Moves s.toTables (s.routeAuthorize peerSid sid).1.toTables := by
  obtain ⟨refused, -⟩ | ⟨owned, -⟩ | ⟨claimed, -⟩ := Server.routeAuthorize_cases s peerSid sid
  · rw [refused]
    exact refl _
  · rw [owned]
    exact refl _
  · rw [claimed]
    exact elsewhere rfl rfl rfl rfl rfl

theorem acceptRemoteServer {s' : Server} {peerSid : String} {server : RemoteServer}
    (accepted : s.acceptRemoteServer peerSid server = .ok s') : Moves s.toTables s'.toTables := by
  obtain ⟨-, -, -, rfl⟩ := Server.acceptRemoteServer_ok accepted
  exact (routeAuthorize s peerSid server.sid).trans (elsewhere rfl rfl rfl rfl rfl)

/-! ## Memberships -/

theorem remotePart (channelName uid reason : String) :
    Moves s.toTables (s.remotePart channelName uid reason).toTables := by
  rw [Server.remotePart_toTables]
  split
  · exact parted _ _ _
  · exact refl _

theorem remoteInvite (sourceUid targetUid channelName : String) :
    Moves s.toTables (s.remoteInvite sourceUid targetUid channelName).toTables := by
  rw [Server.remoteInvite]
  dsimp only
  split
  · exact invited s.toTables (s.fold channelName) fun _ => _
  · exact refl _

theorem remoteInvitePending (foldedNick channelName : String) :
    Moves s.toTables (s.remoteInvitePending foldedNick channelName).toTables := by
  have pending : s.channels.modify (s.fold channelName) (fun channel =>
        if maxPendingInvites ≤ channel.invited.length then channel
        else { channel with invited := channel.invited.insert foldedNick }) =
      s.channels.modify (s.fold channelName) fun channel => { channel with
        invited := if maxPendingInvites ≤ channel.invited.length then channel.invited
          else channel.invited.insert foldedNick } := by
    refine Table.modify_congr fun channel _ => ?_
    split <;> rfl
  show Moves s.toTables { s.toTables with channels := s.channels.modify (s.fold channelName) fun channel =>
    if maxPendingInvites ≤ channel.invited.length then channel
    else { channel with invited := channel.invited.insert foldedNick } }
  rw [pending]
  exact invited s.toTables (s.fold channelName) _

/-! ## Frames -/

variable {s} {peerSid : String}

/-- When the loop stops, the link is dropped as well. -/
theorem received {message : LinkMessage} (handled : Moves s.toTables (s.handle peerSid message).1.toTables) :
    Moves s.toTables (s.receive peerSid message).toTables := by
  rw [Server.receive]
  split
  · rename_i result
    rw [result] at handled
    exact handled
  · rename_i result
    rw [result] at handled
    exact handled.trans (dropLink _ _)

theorem applyIf {message : LinkMessage} (authorized : Bool) {change : Server → Server}
    (moves : Moves s.toTables (change s).toTables) :
    Moves s.toTables (s.applyIf authorized peerSid message change).1.toTables := by
  cases authorized with
  | true => exact moves
  | false => exact refl _

theorem answerOrForward {message : LinkMessage} {result : Server × Option LinkMessage}
    (moves : Moves s.toTables result.1.toTables) :
    Moves s.toTables (Server.answerOrForward peerSid message result).1.toTables := by
  obtain ⟨after, answer⟩ := result
  cases answer with
  | none => exact moves
  | some kill =>
    rw [Server.answerOrForward, Server.sendToLink_toTables]
    exact moves

theorem of_if {condition : Prop} [Decidable condition] {first second : Server × Flow}
    (left : Moves s.toTables first.1.toTables) (right : Moves s.toTables second.1.toTables) :
    Moves s.toTables (if condition then first else second).1.toTables := by
  split
  · exact left
  · exact right

/-- Every frame but those about rooms only moves remote users. -/
theorem handle {message : LinkMessage} (other : message.altersRoom = false) :
    Moves s.toTables (s.handle peerSid message).1.toTables := by
  cases message with
  | uid sid uid hops nick user host account realname =>
    simp only [Server.handle]
    refine of_if (refl _) ?_
    split
    · exact refl _
    · rename_i authorized result
      refine answerOrForward ?_
      have routed := routeAuthorize s peerSid sid
      rw [result] at routed
      exact routed.trans (acceptRemoteUser _ _)
  | kill uid reason =>
    simp only [Server.handle]
    refine of_if (killByUid s uid reason) (of_if (killByUid s uid reason) ?_)
    split
    · exact of_eq (Server.sendTowards_toTables _ _ _)
    · exact refl _
  | nick uid nick => exact of_if (answerOrForward (remoteNickChange s uid nick)) (refl _)
  | quit uid reason => exact applyIf _ (remoteQuit s uid reason)
  | sjoin channel uid op voice ts => cases other
  | spart channel uid reason => exact applyIf _ (remotePart s channel uid reason)
  | stopic channel source setBy setAt text => cases other
  | smode channel source ts flags args => cases other
  | skick channel source target reason => cases other
  | srename source old new reason => cases other
  | saway uid reason => exact applyIf _ (changeRemoteUser s uid _ _ _)
  | saccount uid account => exact applyIf _ (changeRemoteUser s uid _ _ _)
  | ssetname uid realname => exact applyIf _ (changeRemoteUser s uid _ _ _)
  | schghost uid host => exact applyIf _ (changeRemoteUser s uid _ _ _)
  | sumode uid flags =>
    refine applyIf _ ?_
    rw [Server.remoteUmode, Server.updateRemoteUser_toTables]
    exact elsewhere rfl rfl rfl rfl rfl
  | swallops source text => exact applyIf _ (refl _)
  | sknock source channel mask => exact applyIf _ (of_eq (Server.remoteKnock_toTables s channel mask))
  | sredact source target msgid reason =>
    exact applyIf _ (of_eq (Server.remoteRedact_toTables s source target msgid reason))
  | sban add mask setBy reason => exact applyIf _ (remoteGline s add mask setBy reason)
  | userMessage source target notice msgid timeMs tags text =>
    exact of_if (of_eq (Server.deliverRemoteMessage_toTables s source target notice msgid timeMs tags text)) (refl _)
  | tagMessage source target tags =>
    exact of_if (of_eq (Server.deliverTagmsg_toTables s peerSid source target tags)) (refl _)
  | chanMessage source channel notice msgid timeMs tags text =>
    exact of_if (of_eq (Server.deliverChannelMessage_toTables s peerSid source channel notice msgid timeMs tags
      text)) (refl _)
  | sinvite source target channel =>
    simp only [Server.handle]
    refine of_if (remoteInvitePending s target channel) (of_if (refl _)
      (of_if (remoteInvite s source target channel) ?_))
    split
    · exact of_eq (Server.sendTowards_toTables _ _ _)
    · exact refl _
  | sserver name sid uplink description =>
    simp only [Server.handle]
    split
    · rename_i accepted
      have moves := acceptRemoteServer s accepted
      exact moves
    · exact of_eq (Server.sendToLink_toTables _ _ _)
  | squit sid reason => exact of_if (refl _) (of_if (splitRemoteServer s sid splitReason) (refl _))
  | ping token => exact of_eq (Server.sendToLink_toTables _ _ _)
  | error reason => exact refl _
  | pass token => exact refl _
  | server name sid description => exact refl _
  | pong token => exact refl _

end Moves

end Ferrixd
