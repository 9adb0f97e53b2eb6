import Ferrixd.Burst.Channels
import Ferrixd.Burst.Users
import Ferrixd.S2S.Delivery

/-! # What a burst restores

A peer that knows nobody ends up with the sender's view exactly if no two users of the sender
share a nick, every member is a known user, and no channel lacks the modes a new one has. -/

namespace Ferrixd

/-! ## Sending -/

namespace Server

/-- What a burst queues for the peer. -/
def burstSent (s : Server) (peerSid : String) : List LinkMessage :=
  ((s.burstToPeer peerSid).fx.frames.drop s.fx.frames.length).map (·.2)

/-- The peer's reader takes every line of the burst. -/
def BurstFits (s : Server) (peerSid : String) : Prop :=
  ∀ message ∈ s.burstSent peerSid, message.Fits

/-- The bytes of the burst. -/
def burstBytes (s : Server) (peerSid : String) : Bytes :=
  (s.burstSent peerSid).flatMap LinkMessage.toLine

/-- What a server does with the bytes that arrive on a link. -/
def readBytes (s : Server) (peerSid : String) (bytes : Bytes) : Server :=
  s.readLoop peerSid (Ferrixd.receive bytes)

theorem BurstFits.receive {s : Server} {peerSid : String} (fits : s.BurstFits peerSid) :
    Ferrixd.receive (s.burstBytes peerSid) = s.burstSent peerSid :=
  LinkMessage.receive_fitting fits

theorem burstSent_eq {s : Server} {peerSid : String} (linked : peerSid ∈ s.links) :
    s.burstSent peerSid = s.burstFrames peerSid := by
  rw [burstSent, burstToPeer_frames linked, List.drop_left, List.map_map]
  exact List.map_id _

end Server

namespace Tables

/-- The view of a channel that is announced: without the peer's own members. -/
def announcedView (t : Tables) (peerSid : String) (channel : ChannelEntry) : RoomView :=
  { t.view channel with status := lastStatus (t.announcedMembers peerSid channel) }

end Tables

/-! ## Agreement -/

/-- Two views say the same about a channel, whatever the order of its lists. -/
structure RoomView.Agrees (view other : RoomView) : Prop where
  createdAt : other.createdAt = view.createdAt
  topic : other.topic = view.topic
  modes : other.modes = view.modes
  status : ∀ uid, other.status uid = view.status uid
  bans : ∀ mask, mask ∈ other.bans ↔ mask ∈ view.bans
  exceptions : ∀ mask, mask ∈ other.exceptions ↔ mask ∈ view.exceptions
  invex : ∀ mask, mask ∈ other.invex ↔ mask ∈ view.invex

/-- The peer knows the users and channels that were announced to it, as they are, and no others. -/
structure Tables.Restores (t : Tables) (peerSid : String) (peer : Tables) : Prop where
  users : ∀ user, user ∈ peer.remoteUsers.values ↔ user ∈ t.announcedUsers peerSid
  channels : ∀ folded, folded ∈ peer.channels ↔
    ∃ channel, t.channels.lookup folded = some channel ∧ t.announcedMembers peerSid channel ≠ []
  views : ∀ folded channel view, t.channels.lookup folded = some channel →
    peer.viewAt folded = some view → (t.announcedView peerSid channel).Agrees view
  invited : ∀ folded channel view, t.channels.lookup folded = some channel →
    peer.viewAt folded = some view → ∀ nick, nick ∈ view.invited ↔ nick ∈ channel.invited

/-! ## The states of the two servers -/

/-- A reader that knows no user and no channel, just linked to the sender. -/
structure FreshLink (sender reader : Server) : Prop where
  linked : reader.info.sid ∈ sender.links
  noClients : reader.clients = ∅
  noUsers : reader.toRegistry = ⟨∅, ∅⟩
  noChannels : reader.channels = ∅
  noMemberships : reader.remoteChannels = ∅
  noRegistrations : reader.registeredChannels = ∅
  casemapping : reader.info.casemapping = sender.info.casemapping
  servers : reader.Fits sender.info.sid (sender.announcedServers reader.info.sid)
  routes : ∀ user ∈ sender.announcedUsers reader.info.sid, reader.Open sender.info.sid user.serverSid

/-- A list of masks as the server keeps it. -/
def WellKept (list : List Ban) : Prop :=
  (ChannelEntry.masks list).Nodup ∧ list.length ≤ maxListEntries

/-- The values a server announces are well formed. -/
structure Tables.WellFormed (t : Tables) (peerSid : String) : Prop where
  uids : ∀ user ∈ t.announcedUsers peerSid, startsWith user.uid user.serverSid = true
  accounts : ∀ user ∈ t.announcedUsers peerSid, user.account ≠ some "*"
  filed : ∀ folded channel, t.channels.lookup folded = some channel → folded = t.fold channel.name
  dated : ∀ channel ∈ t.channels.values, 0 < channel.createdAt
  topics : ∀ channel ∈ t.channels.values, ∀ topic, channel.topic = some topic → topic.text ≠ ""
  bans : ∀ channel ∈ t.channels.values, WellKept channel.bans
  exceptions : ∀ channel ∈ t.channels.values, WellKept channel.exceptions
  invex : ∀ channel ∈ t.channels.values, WellKept channel.invex
  invited : ∀ channel ∈ t.channels.values,
    channel.invited.Nodup ∧ channel.invited.length ≤ maxPendingInvites

/-- No two of the announced users share a nick. -/
def Tables.NicksDiffer (t : Tables) (peerSid : String) : Prop :=
  ∀ user ∈ t.announcedUsers peerSid, ∀ other ∈ t.announcedUsers peerSid,
    t.fold user.nick = t.fold other.nick → user = other

/-- A burst can carry everything: nicks are unambiguous, members known, and no channel has `n`
or `t` off. -/
structure Tables.Restorable (t : Tables) (peerSid : String) : Prop where
  nicks : t.NicksDiffer peerSid
  members : ∀ channel ∈ t.channels.values, ∀ member ∈ t.announcedMembers peerSid channel,
    ∃ user ∈ t.announcedUsers peerSid, user.uid = member.1
  modes : ∀ channel ∈ t.channels.values, t.announcedMembers peerSid channel ≠ [] →
    channel.modes.noExternal = true ∧ channel.modes.topicLock = true

/-! ## Lists -/

/-- A list without duplicates that fits is restored in its order. -/
theorem foldl_addMask_nil {masks : List String} (nodup : masks.Nodup) (fits : masks.length ≤ maxListEntries) :
    masks.foldl addMask [] = masks := by
  have extend : ∀ rest done : List String, done ++ rest = masks → rest.foldl addMask done = masks := by
    intro rest
    induction rest with
    | nil => simp
    | cons mask rest ih =>
      intro done all
      have room : done.length < maxListEntries := by
        rw [← all, List.length_append, List.length_cons] at fits
        omega
      have new : mask ∉ done := by
        rw [← all, List.nodup_append] at nodup
        exact fun member => nodup.2.2 mask member mask List.mem_cons_self rfl
      rw [List.foldl_cons, addMask, if_pos ⟨room, new⟩]
      exact ih _ (by simpa using all)
  exact extend masks [] rfl

theorem mem_foldl_addInvite {nicks : List String} (fits : nicks.length ≤ maxPendingInvites) (nick : String) :
    nick ∈ nicks.foldl addInvite [] ↔ nick ∈ nicks := by
  have extend : ∀ rest done : List String, done.length + rest.length ≤ maxPendingInvites →
      (nick ∈ rest.foldl addInvite done ↔ nick ∈ done ∨ nick ∈ rest) := by
    intro rest
    induction rest with
    | nil => simp
    | cons other rest ih =>
      intro done small
      rw [List.length_cons] at small
      have room : ¬ maxPendingInvites ≤ done.length := by omega
      have grown : (done.insert other).length ≤ done.length + 1 := by
        by_cases known : other ∈ done
        · rw [List.insert_of_mem known]
          omega
        · rw [List.insert_of_not_mem known, List.length_cons]
      rw [List.foldl_cons, addInvite, if_neg room, ih _ (by omega), List.mem_insert_iff, List.mem_cons]
      tauto
  rw [extend nicks [] (by simpa using fits)]
  simp

/-- Modes with `n` and `t` among them are restored in a new channel. -/
theorem ChannelModes.merge_new {modes : ChannelModes} (noExternal : modes.noExternal = true)
    (topicLock : modes.topicLock = true) : ({} : ChannelModes).merge modes = modes := by
  obtain ⟨n, t, moderated, inviteOnly, secret, key, limit⟩ := modes
  cases noExternal
  cases topicLock
  simp [merge]

/-! ## The reader after the burst -/

/-- What every burst leaves at a fresh reader. -/
structure BurstRead (sender reader after : Server) : Prop where
  nicks : ∀ user ∈ after.remoteUsers.values, ∀ other ∈ after.remoteUsers.values,
    sender.fold user.nick = sender.fold other.nick → user = other
  known : ∀ uid, after.remoteUidAuthorized sender.info.sid uid = true →
    ∃ user ∈ after.remoteUsers.values, user.uid = uid
  channels : ∀ folded, folded ∈ after.channels → ∃ channel, sender.channels.lookup folded = some channel
  views : ∀ folded channel, sender.channels.lookup folded = some channel →
    after.viewAt folded = after.viewAfter sender.info.sid channel
      (sender.announcedMembers reader.info.sid channel) none
  users : sender.NicksDiffer reader.info.sid →
    (∀ user, user ∈ after.remoteUsers.values ↔ user ∈ sender.announcedUsers reader.info.sid) ∧
      ∀ user ∈ sender.announcedUsers reader.info.sid,
        after.remoteUidAuthorized sender.info.sid user.uid = true

section

variable {sender reader : Server}

/-- The users of a burst, read by a server that knows none. -/
theorem FreshLink.reads_users (link : FreshLink sender reader) (formed : sender.WellFormed reader.info.sid)
    {start : Server} (read : reader.ServersRead sender.info.sid (sender.announcedServers reader.info.sid)
      start.toTables) :
    ∃ after, Server.Reads sender.info.sid start
        ((sender.announcedUsers reader.info.sid).flatMap RemoteUser.frames) after ∧
      start.UsersFiled sender.info.sid after.toTables ∧
      (sender.NicksDiffer reader.info.sid →
        start.UsersKnown sender.info.sid (sender.announcedUsers reader.info.sid) after.toTables) := by
  have routes : ∀ user ∈ sender.announcedUsers reader.info.sid, start.Open sender.info.sid user.serverSid :=
    fun user listed => read.attached.opened (link.routes user listed)
  have noUsers : start.toRegistry = ⟨∅, ∅⟩ := read.registry.trans link.noUsers
  have empty : start.toRegistry.Filed start.fold := by
    rw [noUsers]
    constructor <;> simp
  have noMemberships : start.remoteChannels = ∅ := by
    rw [congrArg Rooms.remoteChannels read.rooms]
    exact link.noMemberships
  have sameFold : start.fold = sender.fold := by
    funext name
    rw [Tables.fold, Tables.fold, read.attached.info, link.casemapping]
  obtain ⟨after, reads, filed⟩ := Server.reads_users_filed empty noMemberships routes formed.uids formed.accounts
  refine ⟨after, reads, filed, fun distinct => ?_⟩
  have noClient : ∀ user ∈ sender.announcedUsers reader.info.sid,
      start.findClient (start.fold user.nick) = none := by
    intro user _
    rw [Tables.findClient, congrArg Locals.clients read.locals, link.noClients]
    rfl
  have free : ∀ user ∈ sender.announcedUsers reader.info.sid,
      start.remoteUsers.lookup (start.fold user.nick) = none := by
    intro user _
    rw [noUsers]
    rfl
  -- both facts are about the same frames, and these are read in one way only
  obtain ⟨again, readsAgain, known⟩ := Server.reads_users_known routes formed.uids formed.accounts noClient free
    (by rw [sameFold]; exact distinct)
  rw [reads.unique readsAgain]
  exact known

/-- What a fresh reader is left with after a burst. -/
theorem FreshLink.reads_burst (link : FreshLink sender reader) (formed : sender.WellFormed reader.info.sid) :
    ∃ after, Server.Reads sender.info.sid reader (sender.burstFrames reader.info.sid) after ∧
      BurstRead sender reader after := by
  obtain ⟨served, readServers, servers⟩ := Server.reads_servers link.servers
  obtain ⟨peopled, readUsers, filed, known⟩ := link.reads_users formed servers
  have sameFold : peopled.fold = sender.fold := by
    funext name
    rw [Tables.fold, Tables.fold, filed.attached.info, servers.attached.info, link.casemapping]
  have rooms : peopled.toRooms = reader.toRooms := filed.rooms.trans servers.rooms
  have noChannels : peopled.channels = ∅ := (congrArg Rooms.channels rooms).trans link.noChannels
  have noRegistrations : peopled.registeredChannels = ∅ :=
    (congrArg Rooms.registeredChannels rooms).trans link.noRegistrations
  -- no two channels of the sender meet under one name at the reader
  have distinctNames : (sender.channels.values.map fun channel => peopled.fold channel.name).Nodup := by
    have keys : sender.channels.values.map (fun channel => peopled.fold channel.name) = sender.channels.keys := by
      rw [Table.values, List.map_map, AList.keys, List.keys]
      refine List.map_congr_left fun entry member => ?_
      rw [Function.comp_apply, sameFold]
      exact (formed.filed entry.1 entry.2 (Table.mem_entries_iff.mp member)).symm
    rw [keys]
    exact sender.channels.nodupKeys
  obtain ⟨after, readChannels, channels⟩ := Server.reads_channels peopled sender.info.sid
    (sender.announcedMembers reader.info.sid) formed.topics distinctNames
  -- the ping at the end changes no table
  obtain ⟨last, pinged, tables⟩ : ∃ last, after.handle sender.info.sid (.ping sender.info.sid) = (last, .more) ∧
      last.toTables = after.toTables := ⟨_, rfl, Server.sendToLink_toTables _ _ _⟩
  refine ⟨last, ((readServers.append readUsers).append readChannels).append (.one pinged), ?_⟩
  have sameUsers : last.remoteUsers = peopled.remoteUsers := by
    rw [tables]
    exact congrArg Registry.remoteUsers channels.registry
  have sameRegistry : last.toRegistry = peopled.toRegistry := by
    rw [tables]
    exact channels.registry
  have sameAuthority : last.remoteUidAuthorized = peopled.remoteUidAuthorized := by
    funext peerSid uid
    simp only [tables, Tables.remoteUidAuthorized, Tables.remoteUserByUid, Tables.routedVia, channels.registry,
      channels.topology]
  have filedUnder : ∀ user ∈ last.remoteUsers.values,
      peopled.remoteUsers.lookup (sender.fold user.nick) = some user := by
    intro user member
    obtain ⟨folded, found⟩ := Table.mem_values_iff.mp member
    rw [sameUsers] at found
    have place := filed.filed.filed folded user found
    rw [sameFold] at place
    rw [← place]
    exact found
  constructor
  case nicks =>
    intro user member other otherMember same
    have found := filedUnder user member
    rw [same, filedUnder other otherMember] at found
    exact (Option.some.inj found).symm
  case known =>
    intro uid authorized
    rw [sameAuthority, Tables.remoteUidAuthorized, Tables.remoteUserByUid] at authorized
    cases index : peopled.remoteByUid.lookup uid with
    | none => simp [index] at authorized
    | some folded =>
      obtain ⟨user, found, own⟩ := filed.filed.sound uid folded index
      rw [sameUsers]
      exact ⟨user, Table.mem_values_iff.mpr ⟨folded, found⟩, own⟩
  case channels =>
    intro folded present
    rw [tables] at present
    by_contra unknown
    have elsewhere : ∀ channel ∈ sender.channels.values, peopled.fold channel.name ≠ folded := by
      intro channel member same
      obtain ⟨key, found⟩ := Table.mem_values_iff.mp member
      have place := formed.filed key channel found
      rw [← sameFold, same] at place
      exact unknown ⟨channel, by rw [← place]; exact found⟩
    have absent := channels.others folded elsewhere
    rw [noChannels] at absent
    exact AList.lookup_eq_none.mp absent present
  case views =>
    intro folded channel found
    have place := formed.filed folded channel found
    have member := Table.mem_values_iff.mpr ⟨folded, found⟩
    have plain : peopled.PlainRoom (peopled.fold channel.name) := by
      left
      rw [noRegistrations]
      rfl
    have read := channels.read channel member plain
    have before : peopled.viewAt (peopled.fold channel.name) = none := by
      rw [Tables.viewAt, noChannels]
      rfl
    have sameAfter : peopled.viewAfter sender.info.sid channel = last.viewAfter sender.info.sid channel := by
      funext members view
      have admits : last.admits sender.info.sid members = peopled.admits sender.info.sid members := by
        rw [Tables.admits, Tables.admits, sameAuthority]
      rw [Tables.viewAfter, Tables.viewAfter, admits, Tables.nowUnix, Tables.nowUnix, tables, channels.clock]
    rw [before, sameFold, ← place, sameAfter] at read
    rw [← read, tables]
  case users =>
    intro distinct
    obtain known := known distinct
    have noUsers : served.remoteUsers = ∅ := by
      rw [congrArg Registry.remoteUsers servers.registry, link.noUsers]
    have servedFold : served.fold = sender.fold := by
      funext name
      rw [Tables.fold, Tables.fold, servers.attached.info, link.casemapping]
    refine ⟨fun user => ⟨fun member => ?_, fun listed => ?_⟩, fun user listed => ?_⟩
    · have found := filedUnder user member
      by_contra unlisted
      have elsewhere : ∀ other ∈ sender.announcedUsers reader.info.sid,
          served.fold other.nick ≠ sender.fold user.nick := by
        intro other otherListed same
        have stored := known.present other otherListed
        rw [same, found] at stored
        cases stored
        exact unlisted otherListed
      rw [known.others _ elsewhere, noUsers] at found
      cases found
    · rw [sameUsers]
      exact Table.mem_values_iff.mpr ⟨_, known.present user listed⟩
    · rw [sameAuthority]
      exact known.authorized listed

namespace BurstRead

variable {after : Server}

/-- A channel exists at the reader if one of its members was let in. -/
theorem viewAt (read : BurstRead sender reader after) {folded : String} {channel : ChannelEntry}
    (found : sender.channels.lookup folded = some channel) :
    after.viewAt folded =
      if after.admits sender.info.sid (sender.announcedMembers reader.info.sid channel) = [] then none
      else some (((RoomView.created after.nowUnix).dated channel.createdAt).absorbed channel
        (after.admits sender.info.sid (sender.announcedMembers reader.info.sid channel))) := by
  rw [read.views folded channel found, Tables.viewAfter]
  split
  · rename_i unoccupied
    rw [unoccupied]
    exact RoomView.foldl_step_unoccupied _ _ _
  · rename_i occupied
    exact RoomView.foldl_step_none _ _ _ occupied

/-- A burst restores what it can carry. -/
theorem restores (read : BurstRead sender reader after) (formed : sender.WellFormed reader.info.sid)
    (restorable : sender.Restorable reader.info.sid) : sender.Restores reader.info.sid after.toTables := by
  obtain ⟨users, authorized⟩ := read.users restorable.nicks
  -- every member is known by now, so none of them is turned away
  have everyone : ∀ channel ∈ sender.channels.values,
      after.admits sender.info.sid (sender.announcedMembers reader.info.sid channel) =
        sender.announcedMembers reader.info.sid channel := by
    intro channel member
    refine List.filter_eq_self.mpr fun present listed => ?_
    obtain ⟨user, known, same⟩ := restorable.members channel member present listed
    rw [← same]
    exact authorized user known
  have view : ∀ folded channel view, sender.channels.lookup folded = some channel →
      after.viewAt folded = some view →
        sender.announcedMembers reader.info.sid channel ≠ [] ∧
          view = ((RoomView.created after.nowUnix).dated channel.createdAt).absorbed channel
            (sender.announcedMembers reader.info.sid channel) := by
    intro folded channel view found seen
    rw [read.viewAt found, everyone channel (Table.mem_values_iff.mpr ⟨folded, found⟩)] at seen
    split at seen
    · cases seen
    · rename_i occupied
      exact ⟨occupied, (Option.some.inj seen).symm⟩
  constructor
  case users => exact users
  case channels =>
    intro folded
    constructor
    · intro present
      obtain ⟨channel, found⟩ := read.channels folded present
      obtain ⟨seen, at_⟩ := Option.isSome_iff_exists.mp (Tables.viewAt_isSome.mpr present)
      exact ⟨channel, found, (view folded channel seen found at_).1⟩
    · intro ⟨channel, found, occupied⟩
      rw [← Tables.viewAt_isSome, read.viewAt found, everyone channel (Table.mem_values_iff.mpr ⟨folded, found⟩),
        if_neg occupied]
      rfl
  case views =>
    intro folded channel seen found at_
    have member := Table.mem_values_iff.mpr ⟨folded, found⟩
    obtain ⟨occupied, rfl⟩ := view folded channel seen found at_
    obtain ⟨noExternal, topicLock⟩ := restorable.modes channel member occupied
    have positive := formed.dated channel member
    -- a list that keeps the bound and has no mask twice is taken in as it is
    have masks : ∀ list : List Ban, WellKept list →
        (ChannelEntry.masks list).foldl addMask [] = ChannelEntry.masks list := by
      intro list ⟨nodup, fits⟩
      exact foldl_addMask_nil nodup (by simpa [ChannelEntry.masks] using fits)
    rw [RoomView.dated, if_pos positive]
    constructor
    case createdAt => rfl
    case topic => exact Option.or_none
    case modes => exact ChannelModes.merge_new noExternal topicLock
    case status => exact fun uid => Option.or_none
    case bans =>
      intro mask
      show mask ∈ (ChannelEntry.masks channel.bans).foldl addMask [] ↔ _
      rw [masks _ (formed.bans channel member)]
      rfl
    case exceptions =>
      intro mask
      show mask ∈ (ChannelEntry.masks channel.exceptions).foldl addMask [] ↔ _
      rw [masks _ (formed.exceptions channel member)]
      rfl
    case invex =>
      intro mask
      show mask ∈ (ChannelEntry.masks channel.invex).foldl addMask [] ↔ _
      rw [masks _ (formed.invex channel member)]
      rfl
  case invited =>
    intro folded channel seen found at_ nick
    obtain ⟨-, rfl⟩ := view folded channel seen found at_
    have base : (((RoomView.created after.nowUnix).dated channel.createdAt).absorbed channel
        (sender.announcedMembers reader.info.sid channel)).invited = channel.invited.foldl addInvite [] := by
      rw [RoomView.dated]
      split <;> rfl
    rw [base]
    exact mem_foldl_addInvite (formed.invited channel (Table.mem_values_iff.mpr ⟨folded, found⟩)).2 nick

/-- Only what a burst can carry is restored. -/
theorem restorable (read : BurstRead sender reader after)
    (restores : sender.Restores reader.info.sid after.toTables) : sender.Restorable reader.info.sid := by
  have view : ∀ channel ∈ sender.channels.values, sender.announcedMembers reader.info.sid channel ≠ [] →
      (sender.announcedView reader.info.sid channel).Agrees
        (((RoomView.created after.nowUnix).dated channel.createdAt).absorbed channel
          (after.admits sender.info.sid (sender.announcedMembers reader.info.sid channel))) := by
    intro channel member occupied
    obtain ⟨folded, found⟩ := Table.mem_values_iff.mp member
    have present := (restores.channels folded).mpr ⟨channel, found, occupied⟩
    obtain ⟨seen, at_⟩ := Option.isSome_iff_exists.mp (Tables.viewAt_isSome.mpr present)
    have agrees := restores.views folded channel seen found at_
    rw [read.viewAt found] at at_
    split at at_
    · cases at_
    · cases at_
      exact agrees
  constructor
  case nicks =>
    intro user listed other otherListed same
    exact read.nicks user ((restores.users user).mpr listed) other ((restores.users other).mpr otherListed) same
  case members =>
    intro channel member present listed
    have agrees := view channel member (List.ne_nil_of_mem listed)
    have stated : (lastStatus (sender.announcedMembers reader.info.sid channel) present.1).isSome = true :=
      lastStatus_isSome.mpr (List.mem_map_of_mem listed)
    have base : ((RoomView.created after.nowUnix).dated channel.createdAt).status present.1 = none := by
      rw [RoomView.dated]
      split <;> rfl
    have sameStatus : (lastStatus (after.admits sender.info.sid
        (sender.announcedMembers reader.info.sid channel)) present.1).or
          (((RoomView.created after.nowUnix).dated channel.createdAt).status present.1) =
        lastStatus (sender.announcedMembers reader.info.sid channel) present.1 := agrees.status present.1
    rw [base, Option.or_none] at sameStatus
    rw [← sameStatus, lastStatus_isSome, List.mem_map] at stated
    obtain ⟨admitted, kept, same⟩ := stated
    -- a member that was not announced would have been turned away, and be missing
    obtain ⟨user, known, uid⟩ := read.known admitted.1 (List.mem_filter.mp kept).2
    exact ⟨user, (restores.users user).mp known, uid.trans same⟩
  case modes =>
    intro channel member occupied
    have modes := (view channel member occupied).modes
    have base : ((RoomView.created after.nowUnix).dated channel.createdAt).modes = {} := by
      rw [RoomView.dated]
      split <;> rfl
    have merged : ({} : ChannelModes).merge channel.modes = channel.modes := by
      rw [← base]
      exact modes
    constructor
    · rw [← merged]
      rfl
    · rw [← merged]
      rfl

end BurstRead

/-- A peer that knows nobody has the sender's view after it has read the bytes of the burst exactly if the burst can
carry all of it. -/
theorem burst_restores_iff (link : FreshLink sender reader) (formed : sender.WellFormed reader.info.sid)
    (fits : sender.BurstFits reader.info.sid) :
    sender.Restores reader.info.sid
        (reader.readBytes sender.info.sid (sender.burstBytes reader.info.sid)).toTables ↔
      sender.Restorable reader.info.sid := by
  obtain ⟨after, reads, read⟩ := link.reads_burst formed
  rw [Server.readBytes, fits.receive, Server.burstSent_eq link.linked, reads.readLoop_eq]
  exact ⟨read.restorable, read.restores formed⟩

end

/-! ## A channel without `n` and `t` -/

/-- The server `beta.example`, linked to `alpha.example` and otherwise new. -/
def freshBeta : Server :=
  { Server.new ⟨"beta.example", "2BB", "ExampleNet", .rfc1459, 64⟩ 50 128 with
    links := AList.singleton "1AA" ⟨"1AA", "alpha.example", "ExampleNet"⟩
    remoteRoutes := AList.singleton "1AA" "1AA" }

/-- The server `alpha.example` with one client, the operator of one channel. -/
def quietAlpha (modes : ChannelModes) : Server :=
  { Server.alpha with
    links := AList.singleton "2BB" ⟨"2BB", "beta.example", "ExampleNet"⟩
    remoteRoutes := AList.singleton "2BB" "2BB"
    entries := AList.singleton 1
      { nick := "alice", user := "~ident", host := "host.example", realname := "Alice Liddell", registered := true,
        channels := ["#quiet"] }
    clients := AList.singleton "alice" 1
    byId := [1]
    channels := AList.singleton "#quiet"
      { name := "#quiet", members := AList.singleton 1 ⟨true, false⟩, modes, createdAt := 1000 } }

section

variable (modes : ChannelModes)

theorem quietAlpha_servers : (quietAlpha modes).announcedServers freshBeta.info.sid = [] := rfl

theorem quietAlpha_users : (quietAlpha modes).announcedUsers freshBeta.info.sid =
    [⟨"1AA", "1AA1", "alice", "~ident", "host.example", none, "Alice Liddell", none, false, false, false⟩] := by
  show (quietAlpha {}).announcedUsers freshBeta.info.sid = _
  decide

theorem quietAlpha_channels : (quietAlpha modes).channels.values =
    [{ name := "#quiet", members := AList.singleton 1 ⟨true, false⟩, modes, createdAt := 1000 }] := rfl

theorem quietAlpha_link : FreshLink (quietAlpha modes) freshBeta where
  linked := AList.lookup_isSome.mp rfl
  noClients := rfl
  noUsers := rfl
  noChannels := rfl
  noMemberships := rfl
  noRegistrations := rfl
  casemapping := rfl
  servers := by
    rw [quietAlpha_servers]
    constructor <;> simp
  routes := by
    rw [quietAlpha_users]
    intro user listed
    rw [List.mem_singleton.mp listed]
    refine ⟨by decide, fun owner found => ?_⟩
    exact (Option.some.inj found).symm

theorem quietAlpha_wellFormed : (quietAlpha modes).WellFormed freshBeta.info.sid where
  uids := by
    rw [quietAlpha_users]
    decide
  accounts := by
    rw [quietAlpha_users]
    decide
  filed := by
    intro folded channel found
    have stored := Table.mem_entries_iff.mpr found
    cases List.mem_singleton.mp stored
    show "#quiet" = Server.alpha.fold "#quiet"
    decide
  dated := by simp [quietAlpha_channels]
  topics := by simp [quietAlpha_channels]
  bans := by simp [quietAlpha_channels, WellKept, ChannelEntry.masks]
  exceptions := by simp [quietAlpha_channels, WellKept, ChannelEntry.masks]
  invex := by simp [quietAlpha_channels, WellKept, ChannelEntry.masks]
  invited := by simp [quietAlpha_channels]

end

/-- The frames of Alice, of her channel and of its modes `n` and `t`, and the ping at the end. -/
def quietFrames : List LinkMessage := [
  .uid "1AA" "1AA1" 0 "alice" "~ident" "host.example" "*" "Alice Liddell",
  .sjoin "#quiet" "1AA1" true false 1000,
  .smode "#quiet" "*" 1000 "+nt" [],
  .ping "1AA"]

theorem quietFrames_fit : ∀ message ∈ quietFrames, message.Fits := by
  simp only [quietFrames, List.forall_mem_cons]
  refine ⟨⟨⟨by decide, by decide, by decide, by decide, by decide, by decide, by decide⟩, by decide +kernel⟩,
    ⟨⟨by decide, by decide⟩, by decide +kernel⟩,
    ⟨⟨by decide, by decide, by decide, .inl rfl, by simp⟩, by decide +kernel⟩,
    ⟨(by decide : Trailing _), by decide +kernel⟩, by simp⟩

theorem quietAlpha_fits : (quietAlpha {}).BurstFits freshBeta.info.sid := by
  have sent : (quietAlpha {}).burstSent freshBeta.info.sid = quietFrames := by decide +kernel
  rw [Server.BurstFits, sent]
  exact quietFrames_fit

/-- Modes that are off are not announced. -/
theorem blankAlpha_fits : (quietAlpha .blank).BurstFits freshBeta.info.sid := by
  have sent : ∀ message ∈ (quietAlpha .blank).burstSent freshBeta.info.sid, message ∈ quietFrames := by decide +kernel
  exact fun message announced => quietFrames_fit message (sent message announced)

theorem burst_restores_quiet : (quietAlpha {}).Restores freshBeta.info.sid
    (freshBeta.readBytes "1AA" ((quietAlpha {}).burstBytes freshBeta.info.sid)).toTables := by
  apply (burst_restores_iff (quietAlpha_link {}) (quietAlpha_wellFormed {}) quietAlpha_fits).mpr
  constructor
  case nicks =>
    rw [Tables.NicksDiffer, quietAlpha_users]
    simp
  case members =>
    rw [quietAlpha_channels, quietAlpha_users]
    simp only [List.mem_singleton, forall_eq, exists_eq_left]
    decide
  case modes => simp [quietAlpha_channels]

/-- A burst cannot say that a mode is off, and a new channel has `n` and `t` on. -/
theorem quietChannel_breaks : ¬ ∀ sender reader : Server, FreshLink sender reader →
    sender.WellFormed reader.info.sid → sender.BurstFits reader.info.sid →
    sender.Restores reader.info.sid
      (reader.readBytes sender.info.sid (sender.burstBytes reader.info.sid)).toTables := by
  intro restores
  have off := restores _ _ (quietAlpha_link .blank) (quietAlpha_wellFormed .blank) blankAlpha_fits
  obtain ⟨after, reads, read⟩ := (quietAlpha_link .blank).reads_burst (quietAlpha_wellFormed .blank)
  rw [Server.readBytes, blankAlpha_fits.receive, Server.burstSent_eq (quietAlpha_link .blank).linked,
    reads.readLoop_eq] at off
  have modes := (read.restorable off).modes _ (by rw [quietAlpha_channels]; exact List.mem_singleton_self _)
    (by simp [Tables.announcedMembers])
  exact absurd modes.1 (by decide)

end Ferrixd
