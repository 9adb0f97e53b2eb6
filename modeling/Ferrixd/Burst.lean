import Ferrixd.Link

/-! # The burst

What a server sends to a freshly linked peer: the servers, users and channels it knows. -/

namespace Ferrixd

/-! ## Topology -/

/-- Servers ordered parents before children; those whose uplink is never announced come last. -/
def parentsFirst : Nat → List String → List RemoteServer → List RemoteServer
  | 0, _, pending => pending
  | rounds + 1, announced, pending =>
    let (ready, rest) := pending.partition fun server => server.uplink ∈ announced
    if ready.isEmpty then rest
    else ready ++ parentsFirst rounds (announced ++ ready.map (·.sid)) rest

/-- The order leaves no server out. -/
theorem mem_parentsFirst {rounds : Nat} {announced : List String} {pending : List RemoteServer}
    {server : RemoteServer} : server ∈ parentsFirst rounds announced pending ↔ server ∈ pending := by
  induction rounds generalizing announced pending with
  | zero => rfl
  | succ rounds ih =>
    have split : server ∈ pending ↔
        server ∈ pending.filter (fun server => server.uplink ∈ announced) ∨
          server ∈ pending.filter (not ∘ fun server => decide (server.uplink ∈ announced)) := by
      by_cases ready : server.uplink ∈ announced <;> simp [ready]
    rw [parentsFirst, List.partition_eq_filter_filter]
    dsimp only
    split
    · rename_i none
      rw [split, List.isEmpty_iff.mp none]
      simp
    · rw [List.mem_append, ih, split]

namespace Tables

/-- The servers announced to a peer: the other links, then what lies behind them. -/
def announcedServers (t : Tables) (peerSid : String) : List RemoteServer :=
  let others := t.links.values.filter fun link => link.sid != peerSid
  let pending := t.remoteServers.values.filter fun server => server.sid != peerSid
  others.map (fun link => ⟨link.sid, link.name, t.info.sid, link.description⟩) ++
    parentsFirst pending.length (t.info.sid :: others.map (·.sid)) pending

/-! ## Users -/

/-- How a local client is introduced to the network. -/
def localUser (t : Tables) (id : UInt64) : RemoteUser :=
  let entry := t.entry id
  { serverSid := t.info.sid
    uid := t.localUid id
    nick := entry.nick
    user := entry.user
    host := entry.host
    account := entry.account
    realname := entry.realname
    away := entry.away
    oper := entry.oper
    invisible := entry.invisible
    bot := entry.bot }

/-- The users announced to a peer: the registered clients, and the remote users it reaches
through us. -/
def announcedUsers (t : Tables) (peerSid : String) : List RemoteUser :=
  (t.clients.values.filter fun id => (t.entry id).registered).map t.localUser ++
    t.remoteUsers.values.filter fun user => user.serverSid != peerSid

/-! ## Channels -/

/-- The members announced to a peer, by UID: the local ones, and the remote ones not its own. -/
def announcedMembers (t : Tables) (peerSid : String) (channel : ChannelEntry) :
    List (String × MemberPrefix) :=
  channel.members.entries.map (fun member => (t.localUid member.1, member.2)) ++
    (channel.remoteMembers.entries.filter fun member => member.2.serverSid != peerSid).map
      fun member => (member.1, member.2.status)

end Tables

/-! ## Frames -/

namespace RemoteServer

def frame (server : RemoteServer) : LinkMessage :=
  .sserver server.name server.sid server.uplink server.description

end RemoteServer

namespace RemoteUser

/-- The introduction of a user, with its away state and its modes. -/
def frames (user : RemoteUser) : List LinkMessage :=
  .uid user.serverSid user.uid 0 user.nick user.user user.host (user.account.getD "*") user.realname ::
    ((user.away.map fun away => LinkMessage.saway user.uid (some away)).toList ++
      ((umodeFlags user.oper user.invisible user.bot).map fun flags =>
        LinkMessage.sumode user.uid flags).toList)

end RemoteUser

namespace ChannelEntry

/-- One list mode, in changes of at most six masks. -/
def listFrames (channel : ChannelEntry) (letter : Char) (list : List Ban) : List LinkMessage :=
  (list.toChunks 6).map fun chunk =>
    .smode channel.name "*" channel.createdAt (String.ofList ('+' :: chunk.map fun _ => letter))
      (chunk.map (·.mask))

def topicFrames (channel : ChannelEntry) : List LinkMessage :=
  (channel.topic.map fun topic =>
    LinkMessage.stopic channel.name "*" topic.setBy topic.setAt topic.text).toList

/-- The modes that are set; none of the frames takes a mode away. -/
def modeFrames (channel : ChannelEntry) : List LinkMessage :=
  let (flags, args) := channel.modes.render true
  if 1 < flags.utf8ByteSize then [.smode channel.name "*" channel.createdAt flags args] else []

/-- A channel with the given members; every frame carries the creation timestamp. -/
def frames (channel : ChannelEntry) (members : List (String × MemberPrefix)) : List LinkMessage :=
  members.map (fun (uid, status) =>
      LinkMessage.sjoin channel.name uid status.op status.voice channel.createdAt) ++
    channel.topicFrames ++ channel.modeFrames ++
    channel.listFrames 'b' channel.bans ++ channel.listFrames 'e' channel.exceptions ++
    channel.listFrames 'I' channel.invex ++
    channel.invited.map fun nick => .sinvite "*" nick channel.name

end ChannelEntry

namespace Server

/-- The frames of the burst, in order. -/
def burstFrames (s : Server) (peerSid : String) : List LinkMessage :=
  (s.announcedServers peerSid).map RemoteServer.frame ++
    (s.announcedUsers peerSid).flatMap RemoteUser.frames ++
    s.channels.values.flatMap (fun channel => channel.frames (s.announcedMembers peerSid channel)) ++
    [.ping s.info.sid]

/-- Send our view of the network to a freshly linked peer. -/
def burstToPeer (s : Server) (peerSid : String) : Server :=
  (s.burstFrames peerSid).foldl (fun s message => s.sendToLink peerSid message) s

/-- Handle frames in order until the loop stops, which drops the link. -/
def readLoop (s : Server) (peerSid : String) : List LinkMessage → Server
  | [] => s
  | message :: rest =>
    match s.handle peerSid message with
    | (s, .more) => s.readLoop peerSid rest
    | (s, .stop) => s.dropLink peerSid

/-- The burst queues its frames, in order, for a linked peer. -/
theorem burstToPeer_frames {s : Server} {peerSid : String} (linked : peerSid ∈ s.links) :
    (s.burstToPeer peerSid).fx.frames =
      s.fx.frames ++ (s.burstFrames peerSid).map fun message => (peerSid, message) := by
  have queue : ∀ (messages : List LinkMessage) (later : Server), later.links = s.links →
      (messages.foldl (fun s message => s.sendToLink peerSid message) later).fx.frames =
        later.fx.frames ++ messages.map fun message => (peerSid, message) := by
    intro messages
    induction messages with
    | nil => simp
    | cons message rest ih =>
      intro later same
      have stillLinked : peerSid ∈ later.links := by
        rw [same]
        exact linked
      have sameLinks : (later.sendToLink peerSid message).links = s.links := by
        rw [sendToLink_toTables, same]
      rw [List.foldl_cons, ih _ sameLinks, sendToLink_frames, if_pos stillLinked]
      simp
  exact queue _ s rfl

end Server

end Ferrixd
