import Ferrixd.Command.Join

/-! # JOIN in steps

An attempt to join holds a guard from the moment it has its channel until it is over, and other
commands may run in between. -/

namespace Ferrixd

/-- A join in flight. -/
structure Flight where
  id : UInt64
  name : String
  /-- The key that the guard reaps and the client records. -/
  folded : String
  /-- The key under which the channel it holds is filed now. -/
  filed : String
  created : Bool
  /-- Whether the client was turned away or let in, so that only the guard is left. -/
  settled : Bool := false
  deriving DecidableEq

namespace Server

/-- `begin_join`, with the guard it returns. -/
def beginFlight (s : Server) (id : UInt64) (name : String) : Server × Flight :=
  let folded := s.fold name
  let (s, created) := s.beginJoin folded name
  (s, { id, name, folded, filed := folded, created })

/-- `enterChannel` for a channel that may be filed under another key than the one recorded. -/
def enterFiled (s : Server) (id : UInt64) (folded filed : String) (channel : ChannelEntry) (created : Bool) :
    Server :=
  let entry := s.entry id
  let status := s.joinStatus id folded created
  let s := s.modifyChannel filed fun channel => channel.addLocal id status
  let s := s.modifyEntry id fun entry => { entry with channels := entry.channels.insert folded }
  let event : Event := {
    body := s.userLine id |>.command "JOIN" |>.param channel.name |>.body
    time := some (formatServerTime s.nowMillis)
    account := entry.account
    suffix := some (.extendedJoin, " " ++ entry.account.getD "*" ++ " :" ++ entry.realname) }
  let channel := channel.addLocal id status
  let s := (s.toChannel channel event (some id)).toClient id event
  let s := s.recordChannelEvent (s.fold channel.name) channel.name entry.hostmask .join ""
  let s := s.sendTopicOnJoin id channel
  let s := if entry.caps.has .noImplicitNames then s else s.sendNames id channel
  s.propagateSjoin id channel.name status

/-- The checks of a join in flight, the plugins' veto `block`, and the entry of the client. -/
def settleFlight (s : Server) (flight : Flight) (key block : Option String) : Server :=
  match s.findChannel flight.filed with
  | none => s
  | some channel =>
    let entry := s.entry flight.id
    let foldedNick := s.fold entry.nick
    -- whoever creates the channel passes no checks
    match if flight.created then none else channel.joinRejection entry foldedNick key with
    | some (code, text) => s.numeric flight.id code [channel.name] (some text)
    | none =>
      let s := if flight.created then s
        else s.modifyChannel flight.filed fun channel =>
          { channel with invited := channel.invited.filter fun nick => nick != foldedNick }
      match block with
      | some reason => s.fail flight.id "JOIN" "JOIN_BLOCKED" [flight.name] reason
      | none => s.enterFiled flight.id flight.folded flight.filed channel flight.created

/-- The guard is dropped: the count of its channel goes down and its key is reaped. -/
def endFlight (s : Server) (flight : Flight) : Server :=
  (s.modifyChannel flight.filed fun channel => { channel with joining := channel.joining - 1 }).reapChannel
    flight.folded

theorem enterFiled_toTables (s : Server) (id : UInt64) (folded filed : String) (channel : ChannelEntry)
    (created : Bool) :
    (s.enterFiled id folded filed channel created).toTables =
      { s.toTables with
        channels := s.channels.modify filed fun channel => channel.addLocal id (s.joinStatus id folded created)
        entries := s.entries.insert id { s.entry id with channels := (s.entry id).channels.insert folded } } := by
  simp only [enterFiled, propagateSjoin_toTables]
  split
  · simp only [sendTopicOnJoin_toTables]
    rfl
  · simp only [sendNames_toTables, sendTopicOnJoin_toTables]
    rfl

/-- A join that nothing interrupts. -/
theorem joinOne_flight {s : Server} {id : UInt64} {name : String} (reaches : s.reachesChannel id name = true)
    (key : Option String) :
    s.joinOne id name key =
      ((s.beginFlight id name).1.settleFlight (s.beginFlight id name).2 key none).endFlight
        (s.beginFlight id name).2 := by
  rw [← joinOneWith_none]
  cases found : s.findChannel (s.fold name) with
  | some channel =>
    rw [joinOneWith_existing reaches found, beginFlight, beginJoin_existing found]
    -- the count of joins does not matter to the checks
    have rejection : ({ channel with joining := channel.joining + 1 } : ChannelEntry).joinRejection
        ((s.modifyChannel (s.fold name) fun channel => { channel with joining := channel.joining + 1 }).entry id)
        ((s.modifyChannel (s.fold name) fun channel => { channel with joining := channel.joining + 1 }).fold
          ((s.modifyChannel (s.fold name) fun channel =>
            { channel with joining := channel.joining + 1 }).entry id).nick) key =
        channel.joinRejection (s.entry id) (s.fold (s.entry id).nick) key := rfl
    simp only [settleFlight, findChannel_begun found, Bool.false_eq_true, if_false, rejection]
    cases channel.joinRejection (s.entry id) (s.fold (s.entry id).nick) key with
    | some refusal => rfl
    | none => rfl
  | none =>
    rw [joinOneWith_new reaches found, beginFlight, beginJoin_new found]
    simp only [settleFlight, findChannel_created s (s.fold name) name, if_true]
    rfl

end Server

end Ferrixd
