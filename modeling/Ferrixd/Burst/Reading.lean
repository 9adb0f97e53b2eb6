import Ferrixd.Burst

/-! # Reading a burst

A run of frames that does not stop the read loop leads to a state; such runs are put together
from those for one frame.  The first of them are the introductions of servers. -/

namespace Ferrixd

namespace Server

/-- Reading the frames leads from one state to another without stopping the loop. -/
def Reads (peerSid : String) (s : Server) (messages : List LinkMessage) (s' : Server) : Prop :=
  ∀ rest, s.readLoop peerSid (messages ++ rest) = s'.readLoop peerSid rest

namespace Reads

variable {peerSid : String} {s s' s'' : Server}

theorem nil : Reads peerSid s [] s := fun _ => rfl

theorem one {message : LinkMessage} (handled : s.handle peerSid message = (s', .more)) :
    Reads peerSid s [message] s' := by
  intro rest
  rw [List.singleton_append, readLoop, handled]

theorem append {first second : List LinkMessage} (left : Reads peerSid s first s')
    (right : Reads peerSid s' second s'') : Reads peerSid s (first ++ second) s'' := by
  intro rest
  rw [List.append_assoc, left, right]

/-- What the loop leaves is what the frames lead to. -/
theorem readLoop_eq {messages : List LinkMessage} (reads : Reads peerSid s messages s') :
    s.readLoop peerSid messages = s' := by
  have all := reads []
  rw [List.append_nil] at all
  exact all

theorem unique {messages : List LinkMessage} (reads : Reads peerSid s messages s')
    (again : Reads peerSid s messages s'') : s' = s'' :=
  reads.readLoop_eq.symm.trans again.readLoop_eq

/-- What every block keeps, for the items whose blocks were read, holds after all of them. -/
theorem forEach {α : Type} {I : List α → Server → Prop} (frames : α → List LinkMessage)
    (items : List α)
    (block : ∀ done item rest s, done ++ item :: rest = items → I done s →
      ∃ s', Reads peerSid s (frames item) s' ∧ I (done ++ [item]) s')
    (initial : I [] s) : ∃ s', Reads peerSid s (items.flatMap frames) s' ∧ I items s' := by
  have fromHere : ∀ rest done s, done ++ rest = items → I done s →
      ∃ s', Reads peerSid s (rest.flatMap frames) s' ∧ I items s' := by
    intro rest
    induction rest with
    | nil =>
      intro done s all holds
      rw [List.append_nil] at all
      exact ⟨s, .nil, all ▸ holds⟩
    | cons item rest ih =>
      intro done s all holds
      obtain ⟨next, read, kept⟩ := block done item rest s all holds
      obtain ⟨last, readRest, keptRest⟩ := ih (done ++ [item]) next (by simpa using all) kept
      exact ⟨last, read.append readRest, keptRest⟩
  exact fromHere items [] s rfl initial

end Reads

theorem handle_applyIf {s : Server} {peerSid : String} (message : LinkMessage) (authorized : Bool)
    (change : Server → Server)
    (handled : s.handle peerSid message = s.applyIf authorized peerSid message change) :
    ∃ s', s.handle peerSid message = (s', .more) ∧
      s'.toTables = if authorized then (change s).toTables else s.toTables := by
  rw [handled, applyIf]
  cases authorized
  · exact ⟨s, rfl, rfl⟩
  · exact ⟨_, rfl, rfl⟩

end Server

/-! ## Routes of the reader -/

/-- The peer may speak for a server: it is not ours, and nobody else announced it. -/
def Tables.Open (t : Tables) (peerSid sid : String) : Prop :=
  sid ≠ t.info.sid ∧ ∀ owner, t.remoteRoutes.lookup sid = some owner → owner = peerSid

/-- What a reader keeps of the link tree: its links, and no new route but through the peer. -/
structure Tables.Attached (before : Tables) (peerSid : String) (t : Tables) : Prop where
  info : t.info = before.info
  links : t.links = before.links
  routes : ∀ sid owner, t.remoteRoutes.lookup sid = some owner →
    owner = peerSid ∨ before.remoteRoutes.lookup sid = some owner
  kept : ∀ sid, before.remoteRoutes.lookup sid = some peerSid → t.remoteRoutes.lookup sid = some peerSid

namespace Tables.Attached

variable {before t : Tables} {peerSid : String}

theorem refl (t : Tables) (peerSid : String) : t.Attached peerSid t :=
  ⟨rfl, rfl, fun _ _ found => .inr found, fun _ found => found⟩

theorem trans {later : Tables} (first : before.Attached peerSid t) (second : t.Attached peerSid later) :
    before.Attached peerSid later := by
  refine ⟨second.info.trans first.info, second.links.trans first.links, fun sid owner found => ?_,
    fun sid found => second.kept sid (first.kept sid found)⟩
  cases second.routes sid owner found with
  | inl through => exact .inl through
  | inr older => exact first.routes sid owner older

theorem of_same {later : Tables} (attached : before.Attached peerSid t)
    (links : later.links = t.links) (routes : later.remoteRoutes = t.remoteRoutes)
    (info : later.info = t.info) : before.Attached peerSid later := by
  refine ⟨info.trans attached.info, links.trans attached.links, ?_, ?_⟩
  · rw [routes]
    exact attached.routes
  · rw [routes]
    exact attached.kept

theorem opened (attached : before.Attached peerSid t) {sid : String} (isOpen : before.Open peerSid sid) :
    t.Open peerSid sid := by
  refine ⟨by rw [attached.info]; exact isOpen.1, fun owner found => ?_⟩
  cases attached.routes sid owner found with
  | inl through => exact through
  | inr older => exact isOpen.2 owner older

end Tables.Attached

namespace Server

/-- The route to an open server is claimed for the peer, if it has none. -/
theorem routeAuthorize_open {s : Server} {peerSid sid : String} (isOpen : s.Open peerSid sid) :
    ∃ routes, s.routeAuthorize peerSid sid = ({ s with remoteRoutes := routes }, true) ∧
      routes.lookup sid = some peerSid ∧
      s.Attached peerSid { s.toTables with remoteRoutes := routes } := by
  obtain ⟨-, own | ⟨owner, found, other⟩⟩ | ⟨owned, -, found⟩ | ⟨claimed, -, free⟩ :=
    routeAuthorize_cases s peerSid sid
  · exact absurd own isOpen.1
  · exact absurd (isOpen.2 owner found) other
  · exact ⟨s.remoteRoutes, owned, found, .refl _ _⟩
  · refine ⟨s.remoteRoutes.insert sid peerSid, claimed, AList.lookup_insert _, rfl, rfl, ?_, ?_⟩
    · intro other owner found
      dsimp only at found
      rw [Table.lookup_insert_if] at found
      split at found
      · exact .inl (Option.some.inj found).symm
      · exact .inr found
    · intro other found
      dsimp only
      rw [Table.lookup_insert_if]
      split
      · rfl
      · exact found

end Server

/-! ## The servers of a burst -/

/-- The servers that are announced fit into the reader's network. -/
structure Tables.Fits (t : Tables) (peerSid : String) (announced : List RemoteServer) : Prop where
  isOpen : ∀ server ∈ announced, t.Open peerSid server.sid
  foreign : ∀ server ∈ announced, eqIgnoreAsciiCase server.name t.info.name = false
  linkNames : ∀ server ∈ announced, ∀ link ∈ t.links.values,
    eqIgnoreAsciiCase link.name server.name = true → link.sid = server.sid
  serverNames : ∀ server ∈ announced, ∀ other ∈ t.remoteServers.values,
    eqIgnoreAsciiCase other.name server.name = true → other.sid = server.sid
  names : ∀ server ∈ announced, ∀ other ∈ announced,
    eqIgnoreAsciiCase other.name server.name = true → other.sid = server.sid

/-- The reader after introductions of servers. -/
structure Tables.ServersRead (before : Tables) (peerSid : String) (announced : List RemoteServer)
    (t : Tables) : Prop where
  attached : before.Attached peerSid t
  servers : ∀ server ∈ t.remoteServers.values, server ∈ announced ∨ server ∈ before.remoteServers.values
  registry : t.toRegistry = before.toRegistry
  rooms : t.toRooms = before.toRooms
  locals : t.toLocals = before.toLocals
  clock : t.nowMillis = before.nowMillis

namespace Server

/-- A server that fits is accepted. -/
theorem handle_sserver {before : Tables} {s : Server} {peerSid : String} {announced : List RemoteServer}
    (fits : before.Fits peerSid announced) (read : before.ServersRead peerSid announced s.toTables)
    {server : RemoteServer} (listed : server ∈ announced) :
    ∃ s', s.handle peerSid server.frame = (s', .more) ∧ before.ServersRead peerSid announced s'.toTables := by
  have isOpen := read.attached.opened (fits.isOpen server listed)
  have foreign : s.isOwnIdentity server.sid server.name = false := by
    rw [Tables.isOwnIdentity, Bool.or_eq_false_iff]
    exact ⟨by simpa using isOpen.1, by rw [read.attached.info]; exact fits.foreign server listed⟩
  -- whoever has the name already has this SID too
  have noClash : s.serverNameClash server.name server.sid = none := by
    have owner : ∀ sid, s.serverNameOwner server.name = some sid → sid = server.sid := by
      intro sid owns
      rw [Tables.serverNameOwner] at owns
      cases linked : s.links.findVal? fun link => eqIgnoreAsciiCase link.name server.name with
      | some link =>
        rw [linked] at owns
        cases owns
        obtain ⟨sameName, key, found⟩ := Table.findVal?_some linked
        rw [read.attached.links] at found
        exact fits.linkNames server listed link (Table.mem_values_iff.mpr ⟨key, found⟩) sameName
      | none =>
        rw [linked] at owns
        obtain ⟨other, known, rfl⟩ := Option.map_eq_some_iff.mp owns
        obtain ⟨sameName, key, found⟩ := Table.findVal?_some known
        cases read.servers other (Table.mem_values_iff.mpr ⟨key, found⟩) with
        | inl new => exact fits.names server listed other new sameName
        | inr old => exact fits.serverNames server listed other old sameName
    rw [Tables.serverNameClash]
    cases found : s.serverNameOwner server.name with
    | none => rfl
    | some sid => simp [Option.filter, owner sid found]
  obtain ⟨routes, claimed, -, attached⟩ := routeAuthorize_open isOpen
  have accepted : s.acceptRemoteServer peerSid ⟨server.sid, server.name, server.uplink, server.description⟩ =
      .ok { s with
        remoteRoutes := routes
        remoteServers := s.remoteServers.insert server.sid server } := by
    rw [acceptRemoteServer]
    simp only [foreign, Bool.false_eq_true, if_false, noClash, claimed]
  refine ⟨_, by rw [RemoteServer.frame, handle, accepted], ?_⟩
  refine ⟨(read.attached.trans attached).of_same rfl rfl rfl, fun other member => ?_, read.registry, read.rooms,
    read.locals, read.clock⟩
  obtain ⟨key, found⟩ := Table.mem_values_iff.mp member
  have inserted : (s.remoteServers.insert server.sid server).lookup key = some other := found
  rw [Table.lookup_insert_if] at inserted
  split at inserted
  · cases inserted
    exact .inl listed
  · exact read.servers other (Table.mem_values_iff.mpr ⟨key, inserted⟩)

/-- The introductions of servers that fit are all accepted. -/
theorem reads_servers {s : Server} {peerSid : String} {announced : List RemoteServer}
    (fits : s.Fits peerSid announced) :
    ∃ s', Reads peerSid s (announced.map RemoteServer.frame) s' ∧
      s.ServersRead peerSid announced s'.toTables := by
  rw [List.map_eq_flatMap]
  refine Reads.forEach (I := fun _ later => s.ServersRead peerSid announced later.toTables)
    (fun server => [server.frame]) announced ?_ ?_
  · intro done server rest later all read
    have listed : server ∈ announced := by simp [← all]
    obtain ⟨s', handled, after⟩ := handle_sserver fits read listed
    exact ⟨s', .one handled, after⟩
  · exact ⟨.refl _ _, fun _ known => .inr known, rfl, rfl, rfl, rfl⟩

end Server

end Ferrixd
