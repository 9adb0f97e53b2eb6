import Ferrixd.Command.Bracketing
import Ferrixd.Command.FanOut
import Ferrixd.Data.Multicast
import Ferrixd.Network.Links
import Ferrixd.Ts6.Attribution

/-! # A channel message on its way through the network

Each server passes a message on to the peers behind which it knows members, except to the one it
has it from.  Where the servers agree on who is where, every member is sent one copy. -/

namespace Ferrixd

open Protocol

universe u

/-! ## One server -/

/-- What a channel message says on every server. -/
structure ChannelPost where
  source : String
  status : Option Bool
  notice : Bool
  msgid : String
  time : UInt64
  tags : Option String
  text : String

namespace ChannelPost

/-- The frame that carries it, under the name that the sending server has for the channel. -/
def frame (post : ChannelPost) (display : String) : LinkMessage :=
  .chanMessage post.source (statusSign post.status display) post.notice (some post.msgid) (some post.time)
    post.tags post.text

/-- What the members on a server see of it when it comes from another one. -/
def event (post : ChannelPost) (t : Tables) (display : String) : Event where
  body := ":" ++ post.source ++ " " ++ messageVerb post.notice ++ " " ++ statusSign post.status display ++
    " :" ++ post.text
  time := some (formatServerTime post.time)
  account := (t.remoteSourceMeta (beforeChar post.source '!')).1
  msgid := some post.msgid
  bot := (t.remoteSourceMeta (beforeChar post.source '!')).2
  clientTags := post.tags

end ChannelPost

theorem isValidChannel_hash {name : String} (valid : isValidChannel name = true) :
    ∃ rest, name.toList = '#' :: rest := by
  rw [isValidChannel] at valid
  split at valid
  · exact ⟨_, ‹_›⟩
  · cases valid

/-- The sign is told from the name again. -/
theorem splitStatus_statusSign (status : Option Bool) {name : String} (valid : isValidChannel name = true) :
    splitStatus (statusSign status name) = (status, name) := by
  obtain ⟨rest, chars⟩ := isValidChannel_hash valid
  cases status with
  | none => simp [statusSign, splitStatus, chars]
  | some opOnly => cases opOnly <;> simp [statusSign, splitStatus]

theorem trimStatus_statusSign (status : Option Bool) {name : String} (valid : isValidChannel name = true) :
    trimStatus (statusSign status name) = name := by
  obtain ⟨rest, chars⟩ := isValidChannel_hash valid
  have bare : String.ofList ('#' :: rest) = name := by rw [← chars, String.ofList_toList]
  cases status with
  | none => simp [statusSign, trimStatus, chars, bare]
  | some opOnly => cases opOnly <;> simp [statusSign, trimStatus, chars, bare]

theorem nodup_eraseDups (items : List String) : items.eraseDups.Nodup := by
  induction size : items.length using Nat.strong_induction_on generalizing items with
  | h length ih =>
    cases items with
    | nil => exact List.nodup_nil
    | cons item rest =>
      rw [List.eraseDups_cons, List.nodup_cons, List.mem_eraseDups, List.mem_filter]
      refine ⟨by simp, ih _ ?_ _ rfl⟩
      have shorter := List.length_filter_le (fun other => !other == item) rest
      rw [← size, List.length_cons]
      omega

namespace Tables

theorem mem_memberPeers {t : Tables} {channel : ChannelEntry} {peer : String} :
    peer ∈ t.memberPeers channel ↔
      ∃ member ∈ channel.remoteMembers.values, t.routeFor member.serverSid = some peer := by
  rw [memberPeers, List.mem_eraseDups, List.mem_filterMap]

theorem routeFor_linked {t : Tables} {sid peer : String} (route : t.routeFor sid = some peer) : peer ∈ t.links := by
  rw [routeFor] at route
  split at route
  · cases route
    assumption
  · simpa using (Option.filter_eq_some_iff.mp route).2

end Tables

namespace Server

theorem sendEvent_mailTo (s : Server) (ids : List UInt64) (event : Event) (recipient : UInt64) :
    (s.sendEvent ids event).mailTo recipient = s.mailTo recipient ++
      (ids.filter fun other => other == recipient).map fun _ => event.renderFor (s.entry recipient).caps := by
  rw [mailTo, sendEvent, emit, List.filterMap_append]
  refine congrArg (_ ++ ·) ?_
  induction ids with
  | nil => rfl
  | cons id ids ih =>
    rw [List.map_cons, List.filterMap_cons, List.filter_cons]
    by_cases same : id = recipient
    · subst same
      simp [ih]
    · simp [ih, same]

/-- A member gets one copy if it holds the status. -/
theorem toChannelFiltered_mailTo (s : Server) (channel : ChannelEntry) (event : Event) (status : Option Bool)
    (recipient : UInt64) :
    (s.toChannelFiltered channel event none none status).mailTo recipient = s.mailTo recipient ++
      if (channel.members.lookup recipient).any fun holding => holding.holds status then
        [event.renderFor (s.entry recipient).caps] else [] := by
  rw [toChannelFiltered_eq, sendEvent_mailTo, filter_eligible]
  simp only [eligible, Option.all_none, Bool.and_true]
  cases channel.members.lookup recipient with
  | none => rfl
  | some holding => cases holds : holding.holds status <;> simp [holds]

theorem foldl_sendToLink (s : Server) {peers : List String} (linked : ∀ peer ∈ peers, peer ∈ s.links)
    (message : LinkMessage) :
    peers.foldl (fun s peer => s.sendToLink peer message) s =
      s.emit fun fx => { fx with frames := fx.frames ++ peers.map fun peer => (peer, message) } := by
  induction peers generalizing s with
  | nil => simp [emit]
  | cons peer peers ih =>
    have first : s.sendToLink peer message =
        s.emit fun fx => { fx with frames := fx.frames ++ [(peer, message)] } := by
      rw [sendToLink, if_pos (linked peer List.mem_cons_self)]
    have rest : ∀ other ∈ peers, other ∈ (s.sendToLink peer message).links := by
      intro other member
      rw [sendToLink_toTables]
      exact linked other (List.mem_cons_of_mem _ member)
    rw [List.foldl_cons, ih _ rest, first]
    simp [emit]

/-- The peers with members get a frame each, except the one it came from. -/
theorem relayToMembers_eq {s : Server} {name : String} {channel : ChannelEntry}
    (found : s.findChannel (s.fold name) = some channel) (originSid : Option String) (message : LinkMessage) :
    s.relayToMembers name originSid message = s.emit fun fx => { fx with frames := fx.frames ++
      ((s.memberPeers channel).filter fun peer => some peer ≠ originSid).map fun peer => (peer, message) } := by
  rw [relayToMembers, found]
  refine foldl_sendToLink s ?_ message
  intro peer isPeer
  obtain ⟨member, -, route⟩ := Tables.mem_memberPeers.mp (List.mem_filter.mp isPeer).1
  exact Tables.routeFor_linked route

theorem relayToMembers_sentTo {s : Server} {name : String} {channel : ChannelEntry}
    (found : s.findChannel (s.fold name) = some channel) (originSid : Option String) (message : LinkMessage)
    (peerSid : String) :
    (s.relayToMembers name originSid message).sentTo peerSid = s.sentTo peerSid ++
      if peerSid ∈ s.memberPeers channel ∧ some peerSid ≠ originSid then [message] else [] := by
  have nodup : ((s.memberPeers channel).filter fun peer => some peer ≠ originSid).Nodup :=
    List.Nodup.filter _ (nodup_eraseDups _)
  rw [relayToMembers_eq found, sentTo_append (s := s) rfl, framesTo_peers nodup]
  simp [List.mem_filter]

/-- A message from a peer is logged, sent to the members, and relayed. -/
theorem deliverChannelMessage_eq {s : Server} (post : ChannelPost) (originSid : String) {name : String}
    {channel : ChannelEntry} (valid : isValidChannel name = true) (found : s.findChannel (s.fold name) = some channel)
    (named : isValidChannel channel.name = true) :
    ∃ history, s.deliverChannelMessage originSid post.source (statusSign post.status name) post.notice
        (some post.msgid) (some post.time) post.tags post.text =
      ((s.emit fun fx => { fx with history }).toChannelFiltered channel (post.event s.toTables channel.name) none none
        post.status).relayToMembers channel.name (some originSid) (post.frame channel.name) := by
  obtain ⟨source, status, notice, msgid, time, tags, text⟩ := post
  have trimmed := trimStatus_statusSign status named
  simp only [deliverChannelMessage, splitStatus_statusSign status valid, found, claimMsgid]
  cases status with
  | none =>
    simp only [statusSign] at trimmed
    simp only [Option.isNone_none, if_true, toChannel_filtered, trimmed]
    exact ⟨_, rfl⟩
  | some opOnly =>
    refine ⟨s.fx.history, ?_⟩
    cases opOnly <;>
    · simp only [statusSign] at trimmed
      simp only [Option.isNone_some, Bool.false_eq_true, if_false, toChannelStatus_filtered, trimmed]
      rfl

theorem toChannelFiltered_quiet (s : Server) (channel : ChannelEntry) (event : Event) (except : Option UInt64)
    (required : Option Cap) (status : Option Bool) :
    (s.toChannelFiltered channel event except required status).toTables = s.toTables ∧
      (s.toChannelFiltered channel event except required status).fx.frames = s.fx.frames := by
  rw [toChannelFiltered_eq]
  exact ⟨rfl, rfl⟩

/-- Who is sent a message from a peer. -/
theorem deliverChannelMessage_mailTo {s : Server} (post : ChannelPost) (originSid : String) {name : String}
    {channel : ChannelEntry} (valid : isValidChannel name = true) (found : s.findChannel (s.fold name) = some channel)
    (named : isValidChannel channel.name = true) (filed : s.fold channel.name = s.fold name) (recipient : UInt64) :
    (s.deliverChannelMessage originSid post.source (statusSign post.status name) post.notice
        (some post.msgid) (some post.time) post.tags post.text).mailTo recipient = s.mailTo recipient ++
      if (channel.members.lookup recipient).any fun holding => holding.holds post.status then
        [(post.event s.toTables channel.name).renderFor (s.entry recipient).caps] else [] := by
  obtain ⟨history, whole⟩ := deliverChannelMessage_eq post originSid valid found named
  have quiet := toChannelFiltered_quiet (s.emit fun fx => { fx with history }) channel
    (post.event s.toTables channel.name) none none post.status
  rw [whole, relayToMembers_eq (by rw [quiet.1]; exact filed ▸ found)]
  exact toChannelFiltered_mailTo (s.emit fun fx => { fx with history }) channel _ post.status recipient

/-- Where a message from a peer goes from here. -/
theorem deliverChannelMessage_sentTo {s : Server} (post : ChannelPost) (originSid : String) {name : String}
    {channel : ChannelEntry} (valid : isValidChannel name = true) (found : s.findChannel (s.fold name) = some channel)
    (named : isValidChannel channel.name = true) (filed : s.fold channel.name = s.fold name) (peerSid : String) :
    (s.deliverChannelMessage originSid post.source (statusSign post.status name) post.notice
        (some post.msgid) (some post.time) post.tags post.text).sentTo peerSid = s.sentTo peerSid ++
      if peerSid ∈ s.memberPeers channel ∧ peerSid ≠ originSid then [post.frame channel.name] else [] := by
  obtain ⟨history, whole⟩ := deliverChannelMessage_eq post originSid valid found named
  have quiet := toChannelFiltered_quiet (s.emit fun fx => { fx with history }) channel
    (post.event s.toTables channel.name) none none post.status
  rw [whole, relayToMembers_sentTo (by rw [quiet.1]; exact filed ▸ found),
    sentTo_of_frames quiet.2, quiet.1]
  simp only [ne_eq, Option.some.injEq]
  rfl

/-- A client says something, and no plugin queues anything: the command is run, and its replies are queued. -/
def say (s : Server) (id : UInt64) (hooks : MessageHooks) (params : List String) (notice : Bool)
    (tags : Option String) : Server :=
  (s.cmdMessage id hooks.host params notice tags).2.foldl (post id) (s.cmdMessage id hooks.host params notice tags).1

/-- A message to a channel that is let through: the channel, and what the plugins make of the text. -/
structure Speaks (s : Server) (id : UInt64) (hooks : MessageHooks) (given text : String) (channel : ChannelEntry)
    (spoken : String) : Prop where
  valid : isValidChannel (statusTarget given).2 = true
  found : s.findChannel (s.fold (statusTarget given).2) = some channel
  allowed : channel.speechRejection id = none
  passes : ∃ replacement, hooks.onChannelMessage (s.entry id).nick channel.name text = .pass replacement ∧
    spoken = replacement.getD text

/-- What is passed on of a client's message. -/
def posted (s : Server) (id : UInt64) (given : String) (notice : Bool) (tags : Option String) (spoken : String) :
    ChannelPost where
  source := (s.entry id).hostmask
  status := (statusTarget given).1
  notice := notice
  msgid := s.fx.history.nextMsgid.1
  time := s.nowMillis
  tags := tags
  text := spoken

variable {s : Server} {id : UInt64} {hooks : MessageHooks} {given text spoken : String} {channel : ChannelEntry}

theorem cmdMessage_speaks (speaks : s.Speaks id hooks given text channel spoken)
    (named : isValidChannel channel.name = true) (more : List String) (notice : Bool) (tags : Option String) :
    ∃ history, s.cmdMessage id hooks.host (given :: text :: more) notice tags =
      ((s.emit fun fx => { fx with history }).relayToMembers channel.name none
          ((s.posted id given notice tags spoken).frame channel.name),
        s.toTables.toChannelFiltered channel
            (s.messageEvent id notice (statusSign (statusTarget given).1 channel.name) spoken s.fx.history.nextMsgid.1
              tags none) (some id) none (statusTarget given).1 ++
          s.echo id (s.messageEvent id notice (statusSign (statusTarget given).1 channel.name) spoken
            s.fx.history.nextMsgid.1 tags none)) := by
  obtain ⟨valid, found, allowed, replacement, passes, rfl⟩ := speaks
  have trimmed := trimStatus_statusSign (statusTarget given).1 named
  simp only [cmdMessage, cmdMessageInner, valid, if_true, messageChannel, emit]
  simp only [found, allowed, MessageHooks.host, passes, carryOut_nil, recordMessage_ite_toTables, Option.elim_some,
    List.nil_append, trimmed, posted, ChannelPost.frame]
  cases (statusTarget given).1 with
  | none => exact ⟨_, rfl⟩
  | some opOnly => exact ⟨_, rfl⟩

theorem say_toTables (s : Server) (id : UInt64) (hooks : MessageHooks) (params : List String) (notice : Bool)
    (tags : Option String) : (s.say id hooks params notice tags).toTables = s.toTables := by
  rw [say, (Bridge.post_frames id _ _).1]
  exact cmdMessageInner_toTables _ _ _ _ _ _ _

/-- A client's message goes to every peer with members. -/
theorem say_sentTo (speaks : s.Speaks id hooks given text channel spoken) (named : isValidChannel channel.name = true)
    (filed : s.fold channel.name = s.fold (statusTarget given).2) (more : List String) (notice : Bool)
    (tags : Option String) (peerSid : String) :
    (s.say id hooks (given :: text :: more) notice tags).sentTo peerSid = s.sentTo peerSid ++
      if peerSid ∈ s.memberPeers channel then [(s.posted id given notice tags spoken).frame channel.name] else [] := by
  obtain ⟨history, said⟩ := cmdMessage_speaks speaks named more notice tags
  rw [say, sentTo_of_frames (Bridge.post_frames id _ _).2, said]
  have found : (s.emit fun fx => { fx with history }).findChannel (s.fold channel.name) = some channel :=
    filed ▸ speaks.found
  refine (relayToMembers_sentTo found none _ peerSid).trans ?_
  simp only [ne_eq, reduceCtorEq, not_false_eq_true, and_true]
  rfl

/-- The other members of the channel here get one copy each if they hold the status. -/
theorem say_mailTo (speaks : s.Speaks id hooks given text channel spoken) (named : isValidChannel channel.name = true)
    (filed : s.fold channel.name = s.fold (statusTarget given).2) (more : List String) (notice : Bool)
    (tags : Option String) {recipient : UInt64} (other : recipient ≠ id) :
    (s.say id hooks (given :: text :: more) notice tags).mailTo recipient = s.mailTo recipient ++
      if (channel.members.lookup recipient).any fun holding => holding.holds (statusTarget given).1 then
        [(s.messageEvent id notice (statusSign (statusTarget given).1 channel.name) spoken s.fx.history.nextMsgid.1
          tags none).renderFor (s.entry recipient).caps] else [] := by
  obtain ⟨history, said⟩ := cmdMessage_speaks speaks named more notice tags
  have found : (s.emit fun fx => { fx with history }).findChannel (s.fold channel.name) = some channel :=
    filed ▸ speaks.found
  have relayed := relayToMembers_eq found none ((s.posted id given notice tags spoken).frame channel.name)
  have unmailed : ∀ dest bytes, .mailed dest bytes ∉ (s.cmdMessage id hooks.host (given :: text :: more) notice tags).2 := by
    intro dest bytes member
    rw [said] at member
    rcases List.mem_append.mp member with copy | echoed
    · obtain ⟨holder, -, same⟩ := List.mem_map.mp copy
      cases same
    · rw [Tables.echo] at echoed
      split at echoed <;> simp at echoed
  rw [say, mailTo_post _ other unmailed, said, relayed, received_append, received_filtered, received_echo]
  simp only [other, decide_false, Bool.false_and, Bool.toNat_false, List.replicate_zero, List.append_nil, List.map_replicate,
    Option.all_none, Bool.and_true]
  refine congrArg (s.mailTo recipient ++ ·) ?_
  have notSender : (some recipient != some id) = true := by simpa using other
  simp only [notSender, Bool.true_and]
  cases channel.members.lookup recipient with
  | none => rfl
  | some holding => cases holds : holding.holds (statusTarget given).1 <;> simp [holds]

/-- The copies of a channel message for one client of a server. -/
def copiesOf (s : Server) (key : String) (post : ChannelPost) (recipient : UInt64) : List Bytes :=
  match s.findChannel key with
  | none => []
  | some channel =>
    if (channel.members.lookup recipient).any fun holding => holding.holds post.status then
      [(post.event s.toTables channel.name).renderFor (s.entry recipient).caps] else []

end Server

/-! ## The network -/

namespace Network

variable {V : Type} {n : Network V} {graph : SimpleGraph V} {key : String}

/-- One of a server's own clients is in a channel. -/
def Houses (n : Network V) (key : String) (v : V) : Prop :=
  ∃ channel id, (n.server v).findChannel key = some channel ∧ id ∈ channel.members

/-- The name that a server has for a channel. -/
def display (n : Network V) (key : String) (v : V) : String :=
  ((n.server v).findChannel key).elim "" fun channel => channel.name

/-- The servers agree on which of them have members of a channel. -/
structure RoomAgrees (n : Network V) (graph : SimpleGraph V) (key : String) : Prop where
  named : ∀ v channel, (n.server v).findChannel key = some channel → isValidChannel channel.name = true
  filed : ∀ v channel, (n.server v).findChannel key = some channel → ∀ w, (n.server w).fold channel.name = key
  homes : ∀ v channel, (n.server v).findChannel key = some channel → ∀ member ∈ channel.remoteMembers.values,
    ∃ far, member.serverSid = n.sid far ∧ n.Houses key far
  listed : ∀ v far, graph.Reachable v far → far ≠ v → n.Houses key far →
    ∃ channel, (n.server v).findChannel key = some channel ∧
      ∃ member ∈ channel.remoteMembers.values, member.serverSid = n.sid far

/-- Every other server knows the user behind a mask as one of this server's. -/
structure SourceKnown (n : Network V) (graph : SimpleGraph V) (origin : V) (source : String) : Prop where
  mask : containsChar source '!' = true
  known : ∀ v, graph.Reachable v origin → v ≠ origin →
    ∃ user, (n.server v).remoteUsers.lookup ((n.server v).fold (beforeChar source '!')) = some user ∧
      user.serverSid = n.sid origin

/-- The frame that carries a message fits the line, under the name of the channel on each server. -/
def PostFits (n : Network V) (key : String) (post : ChannelPost) : Prop :=
  ∀ v channel, (n.server v).findChannel key = some channel → (post.frame channel.name).Fits

namespace RoomAgrees

variable (room : n.RoomAgrees graph key)
include room

/-- A server that members are reached from knows the channel. -/
theorem found_of_wanted {here next : V} (wanted : Wanted graph (n.Houses key) here next) :
    ∃ channel, (n.server here).findChannel key = some channel := by
  obtain ⟨far, houses, behind⟩ := wanted
  obtain ⟨channel, found, -⟩ := room.listed here far behind.reachable behind.ne houses
  exact ⟨channel, found⟩

/-- And so does one behind which there are members, or that has some. -/
theorem found_behind (acyclic : graph.IsAcyclic) {here next : V} (wanted : Wanted graph (n.Houses key) here next) :
    ∃ channel, (n.server next).findChannel key = some channel := by
  obtain ⟨far, houses, behind⟩ := wanted
  obtain rfl | ⟨later, -, onward⟩ := behind.step acyclic
  · obtain ⟨channel, -, found, -⟩ := houses
    exact ⟨channel, found⟩
  · exact room.found_of_wanted ⟨far, houses, onward⟩

/-- The peers with members are the neighbours behind which there are some. -/
theorem mem_memberPeers (acyclic : graph.IsAcyclic) (routed : n.Routed graph) {here next : V}
    {channel : ChannelEntry} (found : (n.server here).findChannel key = some channel) :
    n.sid next ∈ (n.server here).memberPeers channel ↔ Wanted graph (n.Houses key) here next := by
  rw [Tables.mem_memberPeers]
  constructor
  · rintro ⟨member, isMember, route⟩
    obtain ⟨far, home, houses⟩ := room.homes here channel found member isMember
    rw [home] at route
    obtain ⟨w, behind, same⟩ := (routed.routeFor_iff acyclic).mp route
    rw [routed.sids _ _ same] at behind
    exact ⟨far, houses, behind⟩
  · rintro ⟨far, houses, behind⟩
    obtain ⟨other, found', member, isMember, home⟩ := room.listed here far behind.reachable behind.ne houses
    rw [found, Option.some.injEq] at found'
    subst found'
    refine ⟨member, isMember, ?_⟩
    rw [home]
    exact (routed.routeFor_iff acyclic).mpr ⟨next, behind, rfl⟩

end RoomAgrees

/-- A peer on the way from the source may relay its messages. -/
theorem SourceKnown.authorized {origin here next : V} {source : String} (known : n.SourceKnown graph origin source)
    (routed : n.Routed graph) (outward : Behind graph next here origin) :
    (n.server next).remoteSourceAuthorized (n.sid here) source = true := by
  have notServer : (n.server next).serverSourceSid source = none := by
    rw [Tables.serverSourceSid, if_pos known.mask]
  obtain ⟨user, found, home⟩ := known.known next outward.reachable outward.ne.symm
  rw [Tables.remoteSourceAuthorized, notServer]
  simp only [Option.isSome_none, Bool.false_eq_true, if_false, found, home]
  exact routed.routedVia_iff.mpr outward

/-- Where the copies of a message are, when they have arrived along some links. -/
structure Carrying (first n : Network V) (graph : SimpleGraph V) (key : String) (post : ChannelPost) (origin : V)
    (arrived : List (V × V)) : Prop where
  spread : Spread graph (first.Houses key) origin arrived
  tables : ∀ v, (n.server v).toTables = (first.server v).toTables
  flushed : n.Flushed
  pending : ∀ here next, Copied graph (first.Houses key) origin arrived here next → (here, next) ∉ arrived →
    n.wire here next = [post.frame (first.display key here)]
  idle : ∀ here next, (Copied graph (first.Houses key) origin arrived here next → (here, next) ∈ arrived) →
    n.wire here next = []
  reached : ∀ v before, (before, v) ∈ arrived → ∀ recipient, (n.server v).mailTo recipient =
    (first.server v).mailTo recipient ++ (first.server v).copiesOf key post recipient
  unreached : ∀ v, (∀ before, (before, v) ∉ arrived) → ∀ recipient,
    (n.server v).mailTo recipient = (first.server v).mailTo recipient

section Deliver

variable [DecidableEq V] {first n' : Network V} {post : ChannelPost} {origin : V} {arrived : List (V × V)}
  (acyclic : graph.IsAcyclic) (routed : first.Routed graph) (room : first.RoomAgrees graph key)
  (known : first.SourceKnown graph origin post.source) (fits : first.PostFits key post)

/-- What a server makes of a copy. -/
theorem receive_post (s : Server) (peerSid name : String)
    (authorized : s.remoteSourceAuthorized peerSid post.source = true) :
    s.receive peerSid (post.frame name) = s.deliverChannelMessage peerSid post.source (statusSign post.status name)
      post.notice (some post.msgid) (some post.time) post.tags post.text := by
  simp only [Server.receive, Server.handle, ChannelPost.frame, authorized, if_true]

include acyclic routed room known fits in
/-- A copy arrives: the members here are sent it, and it is passed on. -/
theorem Carrying.deliver (carrying : Carrying first n graph key post origin arrived) {here next : V}
    (delivered : n.deliver here next = some n') :
    Carrying first n' graph key post origin (arrived ++ [(here, next)]) := by
  obtain ⟨message, rest, head, arrives⟩ := deliver_some delivered
  -- there is nothing on a link but a copy that has not arrived
  have waiting : Copied graph (first.Houses key) origin arrived here next ∧ (here, next) ∉ arrived := by
    by_contra none
    have empty := carrying.idle here next fun copied => by_contra fun missing => none ⟨copied, missing⟩
    rw [head] at empty
    cases empty
  obtain ⟨copied, missing⟩ := waiting
  have onWire := carrying.pending here next copied missing
  rw [head, List.cons.injEq] at onWire
  obtain ⟨rfl, rfl⟩ := onWire
  have outward := carrying.spread.copied_outward acyclic copied
  have apart : here ≠ next := outward.adj.ne'
  obtain ⟨channel, found⟩ := room.found_behind acyclic copied.1
  obtain ⟨sender, senderFound⟩ := room.found_of_wanted copied.1
  have shown : first.display key here = sender.name := by rw [display, senderFound]; rfl
  have delivers := arrives (by rw [shown]; exact fits here sender senderFound)
  have shownNext : first.display key next = channel.name := by rw [display, found]; rfl
  have tables := carrying.tables next
  have sids (v : V) : n.sid v = first.sid v := congrArg (fun t : Tables => t.info.sid) (carrying.tables v)
  -- what the receiver does
  have received : (n.server next).receive (n.sid here) (post.frame (first.display key here)) =
      (n.server next).deliverChannelMessage (n.sid here) post.source (statusSign post.status sender.name)
        post.notice (some post.msgid) (some post.time) post.tags post.text := by
    rw [shown]
    refine receive_post _ _ _ ?_
    rw [tables, sids]
    exact known.authorized routed outward
  have valid := room.named here sender senderFound
  have named := room.named next channel found
  have filed : (n.server next).fold sender.name = key := by
    rw [tables]
    exact room.filed here sender senderFound next
  have kept : (n.server next).fold channel.name = (n.server next).fold sender.name := by
    rw [filed, tables]
    exact room.filed next channel found next
  have found' : (n.server next).findChannel ((n.server next).fold sender.name) = some channel := by
    rw [filed, tables, found]
  have mail := Server.deliverChannelMessage_mailTo post (n.sid here) valid found' named kept
  have frames := Server.deliverChannelMessage_sentTo post (n.sid here) valid found' named kept
  rw [← received] at mail frames
  have sameTables : ((n.server next).receive (n.sid here) (post.frame (first.display key here))).toTables =
      (first.server next).toTables := by
    rw [received, Server.deliverChannelMessage_toTables, tables]
  -- where it is passed on
  have passedOn (far : V) : n'.wire next far =
      if n.sid far ∈ (n.server next).memberPeers channel ∧ n.sid far ≠ n.sid here then
        [post.frame (first.display key next)] else [] := by
    have silent := carrying.idle next far fun earlier =>
      absurd earlier (carrying.spread.silent acyclic copied missing far)
    have empty : (n.server next).sentTo (n.sid far) = [] := by rw [Server.sentTo, carrying.flushed next]; rfl
    rw [delivers.sent far (fun both => apart both.1.symm), silent, frames, empty, shownNext]
    rfl
  have wanted (far : V) : (n.sid far ∈ (n.server next).memberPeers channel ∧ n.sid far ≠ n.sid here) ↔
      far ≠ here ∧ Wanted graph (first.Houses key) next far := by
    rw [sids, sids, tables, room.mem_memberPeers acyclic routed found, and_comm, and_congr_left_iff]
    intro _
    exact not_congr ⟨routed.sids far here, fun same => by rw [same]⟩
  constructor
  case spread => exact carrying.spread.arrive acyclic copied missing
  case tables =>
    intro v
    by_cases same : v = next
    · subst same
      rw [delivers.server, Server.flushed_toTables, sameTables]
    · rw [server, delivers.others v same]
      exact carrying.tables v
  case flushed =>
    intro v
    by_cases same : v = next
    · subst same
      rw [delivers.server, Server.flushed_frames]
    · rw [server, delivers.others v same]
      exact carrying.flushed v
  case pending =>
    intro sender receiver copied' missing'
    rw [List.mem_append, List.mem_singleton, not_or] at missing'
    by_cases onward : sender = next
    · subst onward
      have fresh := (copied_arrive_iff.mp copied').resolve_left
        (carrying.spread.silent acyclic copied missing receiver)
      rw [passedOn, if_pos ((wanted receiver).mpr fresh.2)]
    · have earlier := (copied_arrive_iff.mp copied').resolve_right fun now => onward now.1
      rw [delivers.untouched sender receiver onward fun both => missing'.2 (by rw [both.1, both.2])]
      exact carrying.pending sender receiver earlier missing'.1
  case idle =>
    intro sender receiver done
    by_cases onward : sender = next
    · subst onward
      rw [passedOn, if_neg]
      intro both
      have arrivedNow := done (copied_arrive_iff.mpr (.inr ⟨rfl, (wanted receiver).mp both⟩))
      rw [List.mem_append, List.mem_singleton] at arrivedNow
      obtain before | now := arrivedNow
      · exact carrying.spread.silent acyclic copied missing receiver (carrying.spread.copied _ _ before)
      · exact apart (Prod.mk.inj now).1.symm
    · by_cases along : sender = here ∧ receiver = next
      · rw [along.1, along.2]
        exact delivers.taken apart
      · rw [delivers.untouched sender receiver onward along]
        refine carrying.idle sender receiver fun earlier => ?_
        have arrivedNow := done (earlier.more _)
        rw [List.mem_append, List.mem_singleton] at arrivedNow
        exact arrivedNow.resolve_right fun now => along (Prod.mk.inj now)
  case reached =>
    intro v before isArrived recipient
    by_cases same : v = next
    · subst same
      have quiet := carrying.unreached v (carrying.spread.unheard acyclic copied missing) recipient
      rw [delivers.server]
      refine (mail recipient).trans ?_
      rw [quiet, Server.copiesOf, found, tables]
    · rw [List.mem_append, List.mem_singleton] at isArrived
      have earlier := isArrived.resolve_right fun now => same (Prod.mk.inj now).2
      rw [server, delivers.others v same]
      exact carrying.reached v before earlier recipient
  case unreached =>
    intro v unheard recipient
    have same : v ≠ next := by
      rintro rfl
      exact unheard here (by simp)
    rw [server, delivers.others v same]
    exact carrying.unreached v (fun before isArrived => unheard before (List.mem_append_left _ isArrived)) recipient

/-- Between any two servers there is never more than one copy. -/
theorem Carrying.traffic (carrying : Carrying first n graph key post origin arrived) (here next : V) :
    arrived.count (here, next) + (n.wire here next).length ≤ 1 := by
  have once := List.nodup_iff_count_le_one.mp carrying.spread.once (here, next)
  by_cases isArrived : (here, next) ∈ arrived
  · rw [carrying.idle here next fun _ => isArrived]
    simpa using once
  · rw [List.count_eq_zero_of_not_mem isArrived, Nat.zero_add]
    by_cases copied : Copied graph (first.Houses key) origin arrived here next
    · rw [carrying.pending here next copied isArrived, List.length_singleton]
    · rw [carrying.idle here next fun copied' => absurd copied' copied]
      simp

include acyclic in
/-- When nothing is on its way, every other server has sent its members their copies. -/
theorem Carrying.delivered (carrying : Carrying first n graph key post origin arrived) (quiet : n.Quiet) {v : V}
    (reachable : graph.Reachable origin v) (apart : v ≠ origin) (recipient : UInt64) :
    (n.server v).mailTo recipient =
      (first.server v).mailTo recipient ++ (first.server v).copiesOf key post recipient := by
  have settled : ∀ here next, Copied graph (first.Houses key) origin arrived here next → (here, next) ∈ arrived := by
    intro here next copied
    by_contra missing
    have waiting := carrying.pending here next copied missing
    rw [quiet] at waiting
    cases waiting
  by_cases heard : ∃ before, (before, v) ∈ arrived
  · obtain ⟨before, isArrived⟩ := heard
    exact carrying.reached v before isArrived recipient
  · have houseless : ¬ first.Houses key v := fun houses =>
      heard (Copied.complete acyclic settled houses reachable apart)
    have none : (first.server v).copiesOf key post recipient = [] := by
      rw [Server.copiesOf]
      split
      · rfl
      · rename_i channel found
        rw [if_neg]
        intro holds
        obtain ⟨holding, isMember, -⟩ := Option.any_eq_true _ _ |>.mp holds
        exact houseless ⟨channel, recipient, found, AList.lookup_isSome.mp (by rw [isMember]; rfl)⟩
    rw [none, List.append_nil]
    exact carrying.unreached v (fun before isArrived => heard ⟨before, isArrived⟩) recipient

end Deliver

/-! ## A message from a client -/

/-- What the servers agree on is read from their tables. -/
theorem RoomAgrees.of_tables {n n' : Network V} (room : n.RoomAgrees graph key)
    (same : ∀ v, (n'.server v).toTables = (n.server v).toTables) : n'.RoomAgrees graph key := by
  have sid (v : V) : n'.sid v = n.sid v := congrArg (fun t : Tables => t.info.sid) (same v)
  have houses (v : V) : n'.Houses key v ↔ n.Houses key v := by rw [Houses, Houses, same]
  constructor
  · intro v channel found
    rw [same] at found
    exact room.named v channel found
  · intro v channel found w
    rw [same] at found ⊢
    exact room.filed v channel found w
  · intro v channel found member isMember
    rw [same] at found
    obtain ⟨far, home, housed⟩ := room.homes v channel found member isMember
    exact ⟨far, home.trans (sid far).symm, (houses far).mpr housed⟩
  · intro v far reachable apart housed
    rw [same, sid]
    exact room.listed v far reachable apart ((houses far).mp housed)

theorem SourceKnown.of_tables {n n' : Network V} {origin : V} {source : String}
    (known : n.SourceKnown graph origin source) (same : ∀ v, (n'.server v).toTables = (n.server v).toTables) :
    n'.SourceKnown graph origin source := by
  refine ⟨known.mask, fun v reachable apart => ?_⟩
  have sid : n'.sid origin = n.sid origin := congrArg (fun t : Tables => t.info.sid) (same origin)
  rw [same, sid]
  exact known.known v reachable apart

theorem PostFits.of_tables {n n' : Network V} {post : ChannelPost} (fits : n.PostFits key post)
    (same : ∀ v, (n'.server v).toTables = (n.server v).toTables) : n'.PostFits key post := by
  intro v channel found
  rw [same] at found
  exact fits v channel found

variable [DecidableEq V]

/-- A client of one server says something. -/
def saying (n : Network V) (origin : V) (id : UInt64) (hooks : MessageHooks) (params : List String) (notice : Bool)
    (tags : Option String) : Network V :=
  n.act origin ⟨(n.server origin).say id hooks params notice tags, (n.node origin).connected⟩

theorem saying_tables (n : Network V) (origin : V) (id : UInt64) (hooks : MessageHooks) (params : List String)
    (notice : Bool) (tags : Option String) (v : V) :
    ((n.saying origin id hooks params notice tags).server v).toTables = (n.server v).toTables := by
  by_cases same : v = origin
  · subst same
    rw [saying, act_server_self, Server.flushed_toTables, Server.say_toTables]
  · rw [saying, server, act_node_other n same]

/-- The first copies are on the links of the sender's server. -/
theorem Carrying.start (acyclic : graph.IsAcyclic) (routed : n.Routed graph) (flushed : n.Flushed) (quiet : n.Quiet)
    {origin : V} {id : UInt64} {hooks : MessageHooks} {given text spoken : String} {channel : ChannelEntry}
    (speaks : (n.server origin).Speaks id hooks given text channel spoken)
    (room : n.RoomAgrees graph ((n.server origin).fold (statusTarget given).2)) (more : List String) (notice : Bool)
    (tags : Option String) :
    let first := n.saying origin id hooks (given :: text :: more) notice tags
    Carrying first first graph ((n.server origin).fold (statusTarget given).2)
      ((n.server origin).posted id given notice tags spoken) origin [] := by
  intro first
  have tables := n.saying_tables origin id hooks (given :: text :: more) notice tags
  have sids (v : V) : first.sid v = n.sid v := congrArg (fun t : Tables => t.info.sid) (tables v)
  have room' := room.of_tables tables
  have routed' : first.Routed graph := routed.of_same sids fun v => by rw [tables]
  have found : (first.server origin).findChannel ((n.server origin).fold (statusTarget given).2) = some channel := by
    rw [tables]
    exact speaks.found
  have named := room.named origin channel speaks.found
  have filed := room.filed origin channel speaks.found origin
  have shown : first.display ((n.server origin).fold (statusTarget given).2) origin = channel.name := by
    rw [display, found]
    rfl
  have wires (here next : V) : first.wire here next =
      if here = origin ∧ n.sid next ∈ (n.server origin).memberPeers channel then
        [((n.server origin).posted id given notice tags spoken).frame channel.name] else [] := by
    by_cases own : here = origin
    · subst own
      have empty : (n.server here).sentTo (n.sid next) = [] := by rw [Server.sentTo, flushed here]; rfl
      refine (act_wire_self _ _ _ _).trans ?_
      rw [quiet, List.nil_append, Server.say_sentTo speaks named filed more notice tags, empty]
      simp
    · refine (act_wire_other _ own _ _).trans ?_
      rw [quiet, if_neg fun both => own both.1]
  have peers (next : V) : n.sid next ∈ (n.server origin).memberPeers channel ↔
      Wanted graph (first.Houses ((n.server origin).fold (statusTarget given).2)) origin next := by
    rw [← room'.mem_memberPeers acyclic routed' found, tables, sids]
  constructor
  case spread => exact .start
  case tables => exact fun v => rfl
  case flushed => exact flushed.act origin _
  case pending =>
    intro here next copied _
    obtain ⟨wanted, rfl | ⟨before, none, -⟩⟩ := copied
    · rw [wires, if_pos ⟨rfl, (peers next).mpr wanted⟩, shown]
    · cases none
  case idle =>
    intro here next done
    rw [wires, if_neg]
    rintro ⟨rfl, isPeer⟩
    cases done ⟨(peers next).mp isPeer, .inl rfl⟩
  case reached => exact fun v before none => absurd none List.not_mem_nil
  case unreached => exact fun v _ recipient => rfl

/-- A message to a channel that the servers agree on reaches every member on every server once, with the same
identifier, time and text, and no link carries more than one copy of it in either direction. -/
theorem channelMessage_once (acyclic : graph.IsAcyclic) (routed : n.Routed graph) (flushed : n.Flushed)
    (quiet : n.Quiet) {origin : V} {id : UInt64} {hooks : MessageHooks} {given text spoken : String}
    {channel : ChannelEntry} (speaks : (n.server origin).Speaks id hooks given text channel spoken)
    (room : n.RoomAgrees graph ((n.server origin).fold (statusTarget given).2))
    (known : n.SourceKnown graph origin ((n.server origin).entry id).hostmask) (more : List String) (notice : Bool)
    (tags : Option String)
    (fits : n.PostFits ((n.server origin).fold (statusTarget given).2)
      ((n.server origin).posted id given notice tags spoken)) {arrived : List (V × V)} {n' : Network V}
    (run : (n.saying origin id hooks (given :: text :: more) notice tags).deliveries.Traced arrived n') :
    (∀ here next, arrived.count (here, next) + (n'.wire here next).length ≤ 1) ∧
      (∀ recipient, recipient ≠ id → (n'.server origin).mailTo recipient = (n.server origin).mailTo recipient ++
        if (channel.members.lookup recipient).any fun holding => holding.holds (statusTarget given).1 then
          [((n.server origin).messageEvent id notice (statusSign (statusTarget given).1 channel.name) spoken
            (n.server origin).fx.history.nextMsgid.1 tags none).renderFor ((n.server origin).entry recipient).caps]
        else []) ∧
      (n'.Quiet → ∀ v, graph.Reachable origin v → v ≠ origin → ∀ recipient, (n'.server v).mailTo recipient =
        (n.server v).mailTo recipient ++ (n.server v).copiesOf ((n.server origin).fold (statusTarget given).2)
          ((n.server origin).posted id given notice tags spoken) recipient) := by
  have tables := n.saying_tables origin id hooks (given :: text :: more) notice tags
  have sids (v : V) := congrArg (fun t : Tables => t.info.sid) (tables v)
  have routed' : (n.saying origin id hooks (given :: text :: more) notice tags).Routed graph :=
    routed.of_same sids fun v => by rw [tables]
  have carrying := Machine.Traced.invariant
    (I := fun arrived n' => Carrying (n.saying origin id hooks (given :: text :: more) notice tags) n' graph
      ((n.server origin).fold (statusTarget given).2) ((n.server origin).posted id given notice tags spoken) origin
      arrived)
    (by rintro _ rfl; exact .start acyclic routed flushed quiet speaks room more notice tags)
    (fun _ _ link _ carrying delivered =>
      carrying.deliver acyclic routed' (room.of_tables tables) (known.of_tables tables) (fits.of_tables tables)
        delivered) run
  refine ⟨carrying.traffic, ?_, ?_⟩
  · intro recipient other
    have unheard : ∀ before, (before, origin) ∉ arrived := fun before isArrived =>
      carrying.spread.not_copied_origin acyclic (carrying.spread.copied before origin isArrived)
    refine (carrying.unreached origin unheard recipient).trans ?_
    rw [← Server.say_mailTo speaks (room.named origin channel speaks.found)
      (room.filed origin channel speaks.found origin) more notice tags other]
    simp only [saying, act_server_self]
    rfl
  · intro settled v reachable apart recipient
    refine (carrying.delivered acyclic settled reachable apart recipient).trans ?_
    have untouched : (n.saying origin id hooks (given :: text :: more) notice tags).server v = n.server v := by
      rw [saying, server, act_node_other n apart]
    rw [untouched]

/-! ### Two servers -/

/-- Alice is on `#den`, and so is Bob, on the other server. -/
def denRoom : ChannelEntry where
  name := "#Den"
  members := AList.singleton 1 ⟨true, false⟩
  remoteMembers := AList.singleton "2BB1" ⟨"bob", "ident", "b.example", "2BB", {}⟩
  createdAt := 1000

def denAlpha : Server :=
  { linkedAlpha with
    entries := AList.singleton 1 { nick := "alice", user := "ident", host := "a.example", registered := true }
    clients := AList.singleton "alice" 1
    byId := [1]
    channels := AList.singleton "#den" denRoom }

def denBeta : Server :=
  { linkedBeta with
    entries := AList.singleton 1 { nick := "bob", user := "ident", host := "b.example", registered := true }
    clients := AList.singleton "bob" 1
    byId := [1]
    remoteUsers := AList.singleton "alice"
      ⟨"1AA", "1AA1", "alice", "ident", "a.example", none, "", none, false, false, false⟩
    remoteByUid := AList.singleton "1AA1" "alice"
    channels := AList.singleton "#den" {
      name := "#den", members := AList.singleton 1 {}, createdAt := 1000
      remoteMembers := AList.singleton "1AA1" ⟨"alice", "ident", "a.example", "1AA", ⟨true, false⟩⟩ } }

def denNetwork : Network Bool :=
  pair ⟨denAlpha, [1]⟩ ⟨denBeta, [1]⟩

theorem denNetwork_agrees : denNetwork.RoomAgrees ⊤ "#den" := by
  have houses (v : Bool) : denNetwork.Houses "#den" v := by
    cases v
    · exact ⟨_, 1, rfl, AList.lookup_isSome.mp rfl⟩
    · exact ⟨_, 1, rfl, AList.lookup_isSome.mp rfl⟩
  constructor
  · intro v channel found
    cases v <;> (obtain ⟨-, rfl⟩ := lookup_single found; decide)
  · intro v channel found w
    cases v <;> (obtain ⟨-, rfl⟩ := lookup_single found; cases w <;> decide)
  · intro v channel found member isMember
    refine ⟨!v, ?_, houses _⟩
    cases v <;> (obtain ⟨-, rfl⟩ := lookup_single found; cases List.mem_singleton.mp isMember; rfl)
  · intro v far _ apart _
    cases v <;> cases far <;> first
      | exact absurd rfl apart
      | exact ⟨_, rfl, _, List.mem_singleton.mpr rfl, rfl⟩

theorem denNetwork_known : denNetwork.SourceKnown ⊤ true ((denNetwork.server true).entry 1).hostmask := by
  refine ⟨by decide, fun v _ apart => ?_⟩
  cases v with
  | false => exact ⟨⟨"1AA", "1AA1", "alice", "ident", "a.example", none, "", none, false, false, false⟩, by decide, rfl⟩
  | true => exact absurd rfl apart

/-- What Alice says, and the arrival of the copy on the other server. -/
def denSaid : Network Bool :=
  ((denNetwork.saying true 1 .none ["#den", "hi"] false none).deliver true false).getD denNetwork

theorem channelMessage_once_den : (denSaid.server false).mailTo 1 = (denNetwork.server false).mailTo 1 ++
    (denNetwork.server false).copiesOf "#den" ((denNetwork.server true).posted 1 "#den" false none "hi") 1 := by
  have routed : denNetwork.Routed ⊤ := linked_routed rfl rfl rfl rfl
  have folds : (denNetwork.server true).fold "#den" = "#den" := by decide
  have speaks : (denNetwork.server true).Speaks 1 .none "#den" "hi" denRoom "hi" := by
    refine ⟨by decide, ?_, by decide, none, rfl, rfl⟩
    rw [show (statusTarget "#den").2 = "#den" by decide, folds]
    rfl
  have quiet : denNetwork.Quiet := fun _ _ => rfl
  have flushed : denNetwork.Flushed := fun v => by cases v <;> rfl
  have waits : ((denNetwork.saying true 1 .none ["#den", "hi"] false none).deliver true false).isSome = true := by
    decide +kernel
  have arrives : (denNetwork.saying true 1 .none ["#den", "hi"] false none).deliver true false = some denSaid := by
    rw [denSaid]
    obtain ⟨said, delivered⟩ := Option.isSome_iff_exists.mp waits
    rw [delivered]
    rfl
  have settled : denSaid.Quiet := by
    intro here next
    cases here <;> cases next <;> decide +kernel
  have run : (denNetwork.saying true 1 .none ["#den", "hi"] false none).deliveries.Traced ([] ++ [(true, false)]) denSaid :=
    .step (.start rfl) arrives
  have fits : denNetwork.PostFits "#den" ((denNetwork.server true).posted 1 "#den" false none "hi") := by
    intro v channel found
    cases v <;> (
      obtain ⟨-, rfl⟩ := lookup_single found
      refine ⟨⟨by decide +kernel, by decide +kernel, ?_, ?_, by decide⟩, by decide +kernel⟩
      · rintro value ⟨⟩
        decide +kernel
      · rintro value ⟨⟩)
  have once := channelMessage_once pair_acyclic routed flushed quiet speaks denNetwork_agrees denNetwork_known [] false
    none fits run
  exact once.2.2 settled false (SimpleGraph.Adj.reachable (by simp)) (by decide) 1

end Network

end Ferrixd
