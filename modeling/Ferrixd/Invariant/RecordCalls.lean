import Ferrixd.Invariant.Records

/-! # Runs of a server with registered channels

As long as no channel is created or renamed under a name that its record does not have, and no frame
takes the modes of a registered channel without setting any, every record is current. -/

namespace Ferrixd

namespace Server

/-- The next join finds or creates a channel with the topic and modes of this one. -/
def Recreates (s : Server) (folded : String) (channel : ChannelEntry) : Prop :=
  ∀ display, ∃ again, (s.beginJoin folded display).1.findChannel folded = some again ∧
    again.topic = channel.topic ∧ again.modes = channel.modes

/-- The record of a live channel is the one that its state gives.  When its members are gone, or the
server is started again with the rows of the store, it is created as it was. -/
structure RecordCurrent (s : Server) (folded : String) (record : RegisteredChannel) (channel : ChannelEntry) :
    Prop where
  current : record = buildRegistration folded record.founder channel
  reaped : ∀ later : Server, KeepsRecords s.toTables later.toTables → later.Recreates folded channel
  restarted : ∀ rows, s.chanreg = some rows → ∀ fresh : Server, fresh.channels = ∅ → fresh.registeredChannels = ∅ →
    (fresh.attachChanreg rows).Recreates folded channel

/-- The records of all registered channels that are live are current. -/
def RecordsCurrent (s : Server) : Prop :=
  ∀ folded record channel, s.registeredChannels.lookup folded = some record → s.findChannel folded = some channel →
    s.RecordCurrent folded record channel

theorem recreates {s : Server} {folded founder : String} {channel : ChannelEntry}
    (registered : s.registeredChannels.lookup folded = some (buildRegistration folded founder channel))
    (live : ∀ other, s.findChannel folded = some other → other.topic = channel.topic ∧ other.modes = channel.modes) :
    s.Recreates folded channel := by
  intro display
  cases found : s.findChannel folded with
  | some other =>
    obtain ⟨topic, modes⟩ := live other found
    refine ⟨{ other with joining := other.joining + 1 }, ?_, topic, modes⟩
    rw [beginJoin_existing found]
    show (s.channels.modify folded fun channel => { channel with joining := channel.joining + 1 }).lookup folded = _
    rw [Table.lookup_modify, if_pos rfl, show s.channels.lookup folded = some other from found, Option.map_some]
  | none =>
    obtain ⟨-, topic, modes⟩ := freshChannel_settings registered display
    rw [beginJoin_new found]
    exact ⟨_, AList.lookup_insert _, topic, modes⟩

/-- Rows are filed under the names in them. -/
theorem rows_filed {s : Server} (inv : s.toTables.Recorded) {rows : Table String RegisteredChannel}
    (attached : s.chanreg = some rows) (folded : String) (record : RegisteredChannel)
    (stored : rows.lookup folded = some record) : record.folded = folded := by
  rw [(inv folded).stored rows attached] at stored
  obtain ⟨channel, built⟩ := (inv folded).built record stored
  rw [built]
  rfl

theorem recordsCurrent {s : Server} (inv : s.toTables.Recorded) : s.RecordsCurrent := by
  intro folded record channel registered found
  have current := (inv folded).current record registered channel found
  have stored : s.registeredChannels.lookup folded = some (buildRegistration folded record.founder channel) := by
    rw [← current]
    exact registered
  constructor
  case current => exact current
  case reaped =>
    intro later kept
    -- reaping leaves the records, from which the next join creates the channel
    have registeredLater : later.registeredChannels.lookup folded =
        some (buildRegistration folded record.founder channel) := by
      rw [kept.records]
      exact stored
    refine recreates registeredLater fun other live => ?_
    obtain ⟨before, original, same⟩ := kept.settings folded other live
    cases found.symm.trans original
    exact ⟨same.topic, same.modes⟩
  case restarted =>
    intro rows attached fresh noChannels unregistered
    have loaded : (fresh.attachChanreg rows).registeredChannels.lookup folded =
        some (buildRegistration folded record.founder channel) := by
      rw [attachChanreg_lookup (rows_filed inv attached) unregistered, (inv folded).stored rows attached]
      exact stored
    refine recreates loaded fun other live => ?_
    replace live : fresh.channels.lookup folded = some other := live
    rw [noChannels] at live
    cases live

end Server

/-! ## Steps -/

/-- What happens to a server: commands of clients, frames of peers, actions of plugins, the end of
the process and a new start, and changes elsewhere in between. -/
inductive RecordCall where
  | beginJoin (id : UInt64) (name : String)
  | settleJoin (flight : Flight) (key block : Option String)
  | endJoin (flight : Flight)
  | channelMode (id : UInt64) (target : String) (args : List String)
  | cmdTopic (id : UInt64) (name : String) (newTopic block : Option String)
  | registerChannelCmd (id : UInt64) (name : String)
  | cmdRename (id : UInt64) (old newName reason : String)
  | partOne (id : UInt64) (name : String) (reason : Option String)
  | kickOne (id : UInt64) (chan targetNick : String) (reason : Option String)
  | connect (host : String)
  | cmdNick (id : UInt64) (nick : String)
  | completeRegistration (id : UInt64) (cloak : String)
  | closeConnection (id : UInt64) (reason : String)
  | reapChannel (folded : String)
  | pluginMode (channel flags : String) (args : List String)
  | pluginTopic (channel text : String)
  | pluginKick (channel nick reason : String)
  | receive (peerSid : String) (message : LinkMessage)
  | dropLink (sid : String)
  | restart
  | elsewhere

/-- A frame after which the records are current if they were before. -/
def Tables.TakesAsRecorded (t : Tables) (peerSid : String) : LinkMessage → Prop
  | .sjoin channelName uid _ _ ts => t.remoteUidAuthorized peerSid uid = true →
      t.JoinsAsRecorded channelName ∧ t.KeepsModes channelName ts
  | .smode channelName source ts flags args => t.linkSourceAuthorized peerSid source = true →
      t.ModesAsRecorded channelName ts flags args
  | .srename source old newName _ => t.linkSourceAuthorized peerSid source = true →
      t.RenamesAsRecorded (t.fold old) newName
  | _ => True

namespace RecordCall

/-- A new process has no channels and reads the rows of the store that the old one wrote. -/
def Performs (s s' : Server) : RecordCall → Prop
  | beginJoin id name => s' = (s.beginFlight id name).1
  | settleJoin flight key block => s' = s.settleFlight flight key block
  | endJoin flight => s' = s.endFlight flight
  | channelMode id target args => s' = s.channelMode id target args
  | cmdTopic id name newTopic block => s' = s.cmdTopic id name newTopic block
  | registerChannelCmd id name => s' = s.registerChannelCmd id name
  | cmdRename id old newName reason => s' = s.cmdRename id old newName reason
  | partOne id name reason => s' = s.partOne id name reason
  | kickOne id chan targetNick reason => s' = s.kickOne id chan targetNick reason
  | connect host => s' = s.connect host
  | cmdNick id nick => s' = s.cmdNick id nick
  | completeRegistration id cloak => s' = s.completeRegistration id cloak
  | closeConnection id reason => s' = s.closeConnection id reason
  | reapChannel folded => s' = s.reapChannel folded
  | pluginMode channel flags args => s' = s.pluginMode channel flags args
  | pluginTopic channel text => s' = s.pluginTopic channel text
  | pluginKick channel nick reason => s' = s.pluginKick channel nick reason
  | receive peerSid message => s' = s.receive peerSid message
  | dropLink sid => s' = s.dropLink sid
  | restart => ∃ rows, s.chanreg = some rows ∧ ∃ fresh : Server, fresh.channels = ∅ ∧
      fresh.registeredChannels = ∅ ∧ fresh.chanreg = none ∧ s' = fresh.attachChanreg rows
  | elsewhere => KeepsRecords s.toTables s'.toTables

/-- A server starts without channels and with an empty store, if any. -/
def machine : Machine Server RecordCall where
  start s := s.channels = ∅ ∧ s.registeredChannels = ∅ ∧ ∀ rows, s.chanreg = some rows → rows = ∅
  step s call s' := call.Performs s s'

/-- No channel is created or renamed under a name that its record does not have, and no frame takes
the modes of a registered channel without setting any. -/
def AsRecorded (s : Server) : RecordCall → Prop
  | beginJoin _ name => s.JoinsAsRecorded name
  | cmdRename id old newName _ => isValidChannel newName = true → s.IsOperator id (s.fold old) →
      s.RenamesAsRecorded (s.fold old) newName
  | receive peerSid message => s.TakesAsRecorded peerSid message
  | _ => True

/-! ## What a step preserves -/

variable {s : Server}

theorem receive_recorded (inv : s.toTables.Recorded) {peerSid : String} {message : LinkMessage}
    (asRecorded : s.TakesAsRecorded peerSid message) : (s.receive peerSid message).toTables.Recorded := by
  have applied : ∀ (authorized : Bool) (change : Server → Server),
      s.handle peerSid message = s.applyIf authorized peerSid message change →
      (authorized = true → (change s).toTables.Recorded) → (s.receive peerSid message).toTables.Recorded := by
    intro authorized change handled kept
    -- a frame that is not authorized leaves everything
    rw [Server.receive_applyIf handled]
    cases authorized with
    | true => exact kept rfl
    | false => exact inv
  cases other : message.altersRoom with
  | false => exact inv.keeps (.of_moves (.received (.handle other)))
  | true =>
    cases message with
    | sjoin channel uid op voice ts =>
      refine applied _ (fun s => s.remoteJoin channel uid ⟨op, voice⟩ ts) rfl fun authorized => ?_
      obtain ⟨joins, keeps⟩ := asRecorded authorized
      exact Server.remoteJoin_recorded inv joins keeps uid ⟨op, voice⟩
    | stopic channel source setBy setAt text =>
      have changed := Server.remoteTopic_recorded inv channel source setBy setAt text
      exact applied _ (fun s => s.remoteTopic channel source setBy setAt text) rfl fun _ => changed
    | smode channel source ts flags args =>
      refine applied _ (fun s => s.remoteMode channel source ts flags args) rfl fun authorized => ?_
      rw [Server.remoteMode_toTables]
      exact Server.applyModeChange_recorded inv (asRecorded authorized)
    | skick channel source target reason =>
      have kept := inv.keeps (.remoteKick s channel source target reason)
      exact applied _ (fun s => s.remoteKick channel source target reason) rfl fun _ => kept
    | srename source old new reason =>
      refine applied _ (fun s => s.remoteRename source old new reason) rfl fun authorized => ?_
      obtain same | ⟨renamed, result, same⟩ := s.remoteRename_toTables source old new reason
      · exact inv.of_eq same
      · exact (Server.renameChannel_recorded inv (asRecorded authorized) result).of_eq same
    | _ => cases other

theorem pluginMode_recorded (inv : s.toTables.Recorded) (channel flags : String) (args : List String) :
    (s.pluginMode channel flags args).toTables.Recorded := by
  obtain same | ⟨entry, wire, -, applied⟩ := s.pluginMode_cases channel flags args
  · exact inv.of_eq same
  · rw [applied]
    -- a change without a timestamp meets no conflict
    refine Server.applyModeChange_recorded inv (.inl fun live _ _ loses => ?_)
    simp [ChannelEntry.tsLosesTo] at loses

theorem restart_recorded (inv : s.toTables.Recorded) {rows : Table String RegisteredChannel}
    (attached : s.chanreg = some rows) {fresh : Server} (noChannels : fresh.channels = ∅)
    (unregistered : fresh.registeredChannels = ∅) (unattached : fresh.chanreg = none) :
    (fresh.attachChanreg rows).toTables.Recorded := by
  have filed := Server.rows_filed inv attached
  -- no channel is live yet, so only the rows matter
  have noneLive : ∀ folded, (fresh.attachChanreg rows).findChannel folded = none := by
    intro folded
    show fresh.channels.lookup folded = none
    rw [noChannels]
    rfl
  intro folded
  constructor
  case named =>
    intro channel found
    rw [noneLive] at found
    cases found
  case current =>
    intro record _ channel found
    rw [noneLive] at found
    cases found
  case built =>
    intro record registered
    rw [Server.attachChanreg_lookup filed unregistered, (inv folded).stored rows attached] at registered
    exact (inv folded).built record registered
  case stored =>
    intro now present
    replace present : fresh.chanreg.or (some rows) = some now := present
    rw [unattached] at present
    cases present
    exact (Server.attachChanreg_lookup filed unregistered folded).symm

theorem perform_recorded {s' : Server} {call : RecordCall} (inv : s.toTables.Recorded) (safe : call.AsRecorded s)
    (performed : call.Performs s s') : s'.toTables.Recorded := by
  cases call with
  | beginJoin id name =>
    cases performed
    exact Server.beginFlight_recorded inv safe id
  | settleJoin flight key block =>
    cases performed
    exact inv.keeps (.settleFlight s flight key block)
  | endJoin flight =>
    cases performed
    exact inv.keeps (.endFlight s flight)
  | channelMode id target args =>
    cases performed
    exact Server.channelMode_recorded inv id target args
  | cmdTopic id name newTopic block =>
    cases performed
    obtain same | ⟨topic, changed⟩ := s.cmdTopic_cases id name newTopic block
    · exact inv.of_eq same
    · rw [changed]
      exact inv.modified_persisted fun channel found => (inv _).named channel found
  | registerChannelCmd id name =>
    cases performed
    obtain same | ⟨channel, founder, found, -, changed⟩ := s.registerChannelCmd_cases id name
    · exact inv.of_eq same
    · rw [changed]
      exact inv.write found ((inv _).named channel found) (fun _ _ => rfl) founder
  | cmdRename id old newName reason =>
    cases performed
    obtain same | ⟨valid, operator, renamed, result, same⟩ := s.cmdRename_cases id old newName reason
    · exact inv.of_eq same
    · exact (Server.renameChannel_recorded inv (safe valid operator) result).of_eq same
  | partOne id name reason =>
    cases performed
    exact inv.keeps (.partOne s id name reason)
  | kickOne id chan targetNick reason =>
    cases performed
    exact inv.keeps (.kickOne s id chan targetNick reason)
  | connect host =>
    cases performed
    exact inv.keeps (.connect s host)
  | cmdNick id nick =>
    cases performed
    exact inv.keeps (.cmdNick s id nick)
  | completeRegistration id cloak =>
    cases performed
    exact inv.keeps (.completeRegistration s id cloak)
  | closeConnection id reason =>
    cases performed
    exact inv.keeps (.closeConnection s id reason)
  | reapChannel folded =>
    cases performed
    exact inv.keeps (.reapChannel s folded)
  | pluginMode channel flags args =>
    cases performed
    exact pluginMode_recorded inv channel flags args
  | pluginTopic channel text =>
    cases performed
    obtain same | ⟨entry, -, changed⟩ := s.pluginTopic_cases channel text
    · exact inv.of_eq same
    · rw [changed]
      exact Server.remoteTopic_recorded inv _ _ _ _ _
  | pluginKick channel nick reason =>
    cases performed
    exact inv.keeps (.pluginKick s channel nick reason)
  | receive peerSid message =>
    cases performed
    exact receive_recorded inv safe
  | dropLink sid =>
    cases performed
    exact inv.keeps (.of_moves (.dropLink s sid))
  | restart =>
    obtain ⟨rows, attached, fresh, noChannels, unregistered, unattached, rfl⟩ := performed
    exact restart_recorded inv attached noChannels unregistered unattached
  | elsewhere => exact inv.keeps performed

/-- In every run that creates and renames registered channels under their recorded names, and in which
no frame takes the modes of one without setting any, the records of all live channels are current. -/
theorem run_recordsCurrent (run : machine.GuardedRun (fun s call => call.AsRecorded s) s) : s.RecordsCurrent := by
  refine Server.recordsCurrent (run.invariant (I := fun s => s.toTables.Recorded) ?_ ?_)
  · rintro start ⟨noChannels, unregistered, emptyStore⟩ folded
    refine .vacant ?_ (fun channel found => ?_) fun rows attached => ?_
    · rw [unregistered]
      rfl
    · rw [Tables.findChannel, noChannels] at found
      cases found
    · rw [emptyStore rows attached]
      rfl
  · exact fun s call s' inv safe performed => perform_recorded inv safe performed

/-- A server with an empty store, linked to `beta.example`: alice is logged in, and bob is on beta. -/
def denHome : Server :=
  { Server.alpha with
    links := (∅ : Table String LinkHandle).insert "2BB" ⟨"2BB", "beta.example", "B"⟩
    remoteRoutes := (∅ : Table String String).insert "2BB" "2BB"
    remoteUsers := (∅ : Table String RemoteUser).insert "bob" (betaUser "2BBaaa" "bob")
    remoteByUid := (∅ : Table String String).insert "2BBaaa" "bob"
    entries := (∅ : Table UInt64 ClientEntry).insert 1
      { nick := "alice", user := "ident", host := "a.example", registered := true, account := some "alice" }
    clients := (∅ : Table String UInt64).insert "alice" 1
    byId := [1]
    chanreg := some ∅
    nowMillis := 100000 }

def denFlight : Flight := (denHome.beginFlight 1 "#den").2

/-- Alice has founded and registered `#den`. -/
def denFounded : Server :=
  (((denHome.beginFlight 1 "#den").1.settleFlight denFlight none none).endFlight denFlight).registerChannelCmd 1 "#den"

theorem denFounded_run : machine.GuardedRun (fun s call => call.AsRecorded s) denFounded := by
  have begun : machine.GuardedRun (fun s call => call.AsRecorded s) (denHome.beginFlight 1 "#den").1 := by
    refine .step (e := beginJoin 1 "#den") (.start ⟨rfl, rfl, ?_⟩) ?_ rfl
    · rintro rows ⟨⟩
      rfl
    · rintro - record ⟨⟩
  have settled : machine.GuardedRun (fun s call => call.AsRecorded s)
      ((denHome.beginFlight 1 "#den").1.settleFlight denFlight none none) :=
    .step (e := settleJoin denFlight none none) begun trivial rfl
  have ended : machine.GuardedRun (fun s call => call.AsRecorded s)
      (((denHome.beginFlight 1 "#den").1.settleFlight denFlight none none).endFlight denFlight) :=
    .step (e := endJoin denFlight) settled trivial rfl
  exact .step (e := registerChannelCmd 1 "#den") ended trivial rfl

theorem run_recordsCurrent_den : (denFounded.cmdTopic 1 "#den" (some "Welcome") none).RecordsCurrent :=
  run_recordsCurrent (.step (e := cmdTopic 1 "#den" (some "Welcome") none) denFounded_run trivial rfl)

/-- Bob joins from a server where the channel is older, and the modes are lost but not recorded. -/
theorem netjoin_unrecorded : ¬ ∀ s, machine.Reachable s → s.RecordsCurrent := by
  intro current
  have joined : machine.Reachable (denFounded.receive "2BB" (.sjoin "#den" "2BBaaa" true false 50)) :=
    .step (e := receive "2BB" (.sjoin "#den" "2BBaaa" true false 50)) denFounded_run.reachable trivial rfl
  obtain ⟨record, registered⟩ := Option.isSome_iff_exists.mp (show
    ((denFounded.receive "2BB" (.sjoin "#den" "2BBaaa" true false 50)).registeredChannels.lookup "#den").isSome = true
    by decide)
  obtain ⟨channel, found⟩ := Option.isSome_iff_exists.mp (show
    ((denFounded.receive "2BB" (.sjoin "#den" "2BBaaa" true false 50)).findChannel "#den").isSome = true by decide)
  have same := (current _ joined "#den" record channel registered found).current
  have flags : ((denFounded.receive "2BB" (.sjoin "#den" "2BBaaa" true false 50)).registeredChannels.lookup
      "#den").map (·.modeFlags) = ((denFounded.receive "2BB" (.sjoin "#den" "2BBaaa" true false 50)).findChannel
      "#den").map fun channel => (buildRegistration "#den" "" channel).modeFlags := by
    rw [registered, found]
    exact congrArg (fun record => some record.modeFlags) same
  exact absurd flags (by decide)

end RecordCall

end Ferrixd
