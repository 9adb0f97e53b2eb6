import Ferrixd.State.Channels

/-! # Channel mode changes

A mode change is resolved into steps, and the steps applied to the channel one after the
other, keeping what actually applied for the announcement. -/

namespace Ferrixd

/-- The most entries a `+b`, `+e` or `+I` list holds. -/
def maxListEntries : Nat := 100

inductive PrefixTarget where
  | localClient (id : UInt64)
  | remoteUser (uid : String)
  deriving DecidableEq

inductive ModeStep where
  | bool (letter : Char) (adding : Bool)
  /-- The resolved member, its nick, and the UID the argument arrived as. -/
  | status (letter : Char) (adding : Bool) (target : PrefixTarget) (nick uid : String)
  | key (adding : Bool) (key : Option String)
  | limit (adding : Bool) (limit : Option UInt64)
  | list (letter : Char) (adding : Bool) (mask : String)
  deriving DecidableEq

/-! ## Resolving the flags -/

namespace Tables

/-- Resolve an `o` or `v` argument to a local client or a remote user. -/
def statusStep (t : Tables) (letter : Char) (adding : Bool) (uid : String) : Option ModeStep :=
  match t.localIdOfUid uid with
  | some id =>
    (t.indexed id).map fun id => .status letter adding (.localClient id) (t.entry id).nick uid
  | none =>
    (t.remoteUserByUid uid).map fun user => .status letter adding (.remoteUser uid) user.nick uid

end Tables

/-- Resolve flags and arguments into steps, given how a status argument is resolved; an
argument that is missing drops its flag. -/
def modeSteps (resolve : Char → Bool → String → Option ModeStep) :
    List Char → Bool → List String → List ModeStep
  | [], _, _ => []
  | c :: flags, adding, args =>
    if c = '+' then modeSteps resolve flags true args
    else if c = '-' then modeSteps resolve flags false args
    else if c = 'o' ∨ c = 'v' then
      match args with
      | [] => modeSteps resolve flags adding []
      | uid :: args => (resolve c adding uid).toList ++ modeSteps resolve flags adding args
    else if c = 'k' then
      if adding then
        match args with
        | [] => modeSteps resolve flags adding []
        | key :: args => .key adding (some key) :: modeSteps resolve flags adding args
      -- a key is taken off without an argument
      else .key adding none :: modeSteps resolve flags adding args
    else if c = 'l' then
      if adding then
        match args with
        | [] => modeSteps resolve flags adding []
        -- what is no number is consumed all the same
        | value :: args =>
          ((parseU64 value).map fun limit => .limit adding (some limit)).toList ++
            modeSteps resolve flags adding args
      else .limit adding none :: modeSteps resolve flags adding args
    else if c = 'b' ∨ c = 'e' ∨ c = 'I' then
      match args with
      | [] => modeSteps resolve flags adding []
      | mask :: args => .list c adding mask :: modeSteps resolve flags adding args
    else if boolModes.any fun mode => mode.letter = c then
      .bool c adding :: modeSteps resolve flags adding args
    else modeSteps resolve flags adding args

/-! ## Applying the steps -/

/-- What actually applied: the flags, the arguments shown, and those for the wire. -/
structure ModeEcho where
  accum : ModeAccum := {}
  applied : List String := []
  wire : List String := []

def ModeEcho.push (echo : ModeEcho) (adding : Bool) (letter : Char) (applied wire : List String) : ModeEcho :=
  ⟨echo.accum.push adding letter, echo.applied ++ applied, echo.wire ++ wire⟩

/-- One add to or remove from a list mode, and whether it changed the list. -/
def applyListMode (list : List Ban) (adding : Bool) (mask setBy : String) (setAt : UInt64) :
    List Ban × Bool :=
  if adding then
    if list.length < maxListEntries ∧ ¬ list.any fun ban => ban.mask = mask then
      (list ++ [⟨mask, setBy, setAt⟩], true)
    else (list, false)
  else
    let kept := list.filter fun ban => ban.mask != mask
    (kept, kept.length != list.length)

/-- Set or clear one status flag. -/
def MemberPrefix.change (status : MemberPrefix) (letter : Char) (adding : Bool) : MemberPrefix :=
  if letter = 'o' then { status with op := adding } else { status with voice := adding }

/-- Set or clear one status flag of a remote member. -/
def RemoteMember.change (member : RemoteMember) (letter : Char) (adding : Bool) : RemoteMember :=
  { member with status := member.status.change letter adding }

namespace ModeStep

/-- Apply one step to a channel. -/
def apply (setter : String) (now : UInt64) (state : ChannelEntry × ModeEcho) (step : ModeStep) :
    ChannelEntry × ModeEcho :=
  let (channel, echo) := state
  match step with
  | bool letter adding =>
    match boolModes.find? fun mode => mode.letter = letter with
    | some mode =>
      ({ channel with modes := mode.set channel.modes adding }, echo.push adding letter [] [])
    | none => (channel, echo)
  | status letter adding (.localClient id) nick uid =>
    if id ∈ channel.members then
      ({ channel with members := channel.members.modify id fun status => status.change letter adding },
        echo.push adding letter [nick] [uid])
    else (channel, echo)
  | status letter adding (.remoteUser target) nick uid =>
    if target ∈ channel.remoteMembers then
      ({ channel with
          remoteMembers := channel.remoteMembers.modify target fun member => member.change letter adding },
        echo.push adding letter [nick] [uid])
    else (channel, echo)
  | key adding value =>
    -- a removal shows a star and has no argument on the wire
    ({ channel with modes := { channel.modes with key := value } },
      echo.push adding 'k' [value.getD "*"] value.toList)
  | limit adding value =>
    let shown := (value.map printU64).toList
    ({ channel with modes := { channel.modes with limit := value } }, echo.push adding 'l' shown shown)
  | list letter adding mask =>
    let current :=
      if letter = 'b' then channel.bans else if letter = 'e' then channel.exceptions else channel.invex
    let (changed, applied) := applyListMode current adding mask setter now
    let channel :=
      if letter = 'b' then { channel with bans := changed }
      else if letter = 'e' then { channel with exceptions := changed }
      else { channel with invex := changed }
    (channel, if applied then echo.push adding letter [mask] [mask] else echo)

/-- Apply steps one after the other. -/
def applyAll (steps : List ModeStep) (setter : String) (now : UInt64) (channel : ChannelEntry) :
    ChannelEntry × ModeEcho :=
  steps.foldl (apply setter now) (channel, {})

end ModeStep

namespace Server

/-- Apply a mode change unless it comes from a younger view of the channel; what applied. -/
def applyModeChange (s : Server) (channelName source : String) (peerTs : UInt64) (flags : String)
    (args : List String) : Server × Option (String × List String × List String) :=
  let folded := s.fold channelName
  match s.findChannel folded with
  | none => (s, none)
  | some channel =>
    if channel.tsWinsOver peerTs then (s, none)
    else
      let s := s.reconcileChannelTs folded peerTs
      let steps := modeSteps s.statusStep flags.toList true args
      let (changed, echo) := ModeStep.applyAll steps (s.remoteSourceNick source) s.nowUnix
        (channel.reconciled peerTs)
      let s := s.modifyChannel folded fun _ => changed
      -- nothing applied, though the timestamp may have come down
      if echo.accum.flags = "" then (s, none)
      else
        let line := Line.server (s.remoteSourceMask source) |>.command "MODE" |>.param changed.name
          |>.param echo.accum.flags
        let s := s.broadcast changed (echo.applied.foldl Line.param line).build none
        (s.persistRegistered folded, some (echo.accum.flags, echo.applied, echo.wire))

/-- Apply a mode change relayed over a link; a burst restates state and is not logged. -/
def remoteMode (s : Server) (channelName source : String) (peerTs : UInt64) (flags : String)
    (args : List String) : Server :=
  match s.applyModeChange channelName source peerTs flags args with
  | (s, none) => s
  | (s, some (appliedFlags, appliedArgs, _)) =>
    if source = "*" then s
    else
      let folded := s.fold channelName
      let display := ((s.findChannel folded).map (·.name)).getD channelName
      let text := if appliedArgs.isEmpty then appliedFlags
        else appliedFlags ++ " " ++ " ".intercalate appliedArgs
      s.recordChannelEvent folded display (s.remoteSourceMask source) .mode text

end Server

/-! ## What these do to the tables -/

namespace ModeStep

/-- What mode steps leave alone: everything but modes, lists and statuses. -/
structure SameRoom (before after : ChannelEntry) : Prop where
  name : after.name = before.name
  topic : after.topic = before.topic
  invited : after.invited = before.invited
  createdAt : after.createdAt = before.createdAt
  joining : after.joining = before.joining
  members : after.members.keys = before.members.keys
  remoteMembers : ∀ uid, (after.remoteMembers.lookup uid).map (fun member => { member with status := {} }) =
    (before.remoteMembers.lookup uid).map fun member => { member with status := {} }

theorem SameRoom.refl (channel : ChannelEntry) : SameRoom channel channel :=
  ⟨rfl, rfl, rfl, rfl, rfl, rfl, fun _ => rfl⟩

theorem SameRoom.trans {first second third : ChannelEntry} (left : SameRoom first second)
    (right : SameRoom second third) : SameRoom first third :=
  ⟨right.name.trans left.name, right.topic.trans left.topic, right.invited.trans left.invited,
    right.createdAt.trans left.createdAt, right.joining.trans left.joining,
    right.members.trans left.members,
    fun uid => (right.remoteMembers uid).trans (left.remoteMembers uid)⟩

theorem apply_sameRoom (setter : String) (now : UInt64) (channel : ChannelEntry) (echo : ModeEcho)
    (step : ModeStep) : SameRoom channel (apply setter now (channel, echo) step).1 := by
  cases step with
  | bool letter adding =>
    simp only [apply]
    split
    · exact ⟨rfl, rfl, rfl, rfl, rfl, rfl, fun _ => rfl⟩
    · exact .refl channel
  | status letter adding target nick uid =>
    cases target with
    | localClient id =>
      simp only [apply]
      split
      · exact ⟨rfl, rfl, rfl, rfl, rfl, Table.keys_modify _ _ _, fun _ => rfl⟩
      · exact .refl channel
    | remoteUser target =>
      simp only [apply]
      split
      · refine ⟨rfl, rfl, rfl, rfl, rfl, rfl, fun other => ?_⟩
        dsimp only
        rw [Table.lookup_modify]
        split
        · rw [Option.map_map]
          rfl
        · rfl
      · exact .refl channel
  | key adding key => exact ⟨rfl, rfl, rfl, rfl, rfl, rfl, fun _ => rfl⟩
  | limit adding limit => exact ⟨rfl, rfl, rfl, rfl, rfl, rfl, fun _ => rfl⟩
  | list letter adding mask =>
    simp only [apply]
    by_cases ban : letter = 'b'
    · simp only [if_pos ban]
      exact ⟨rfl, rfl, rfl, rfl, rfl, rfl, fun _ => rfl⟩
    · by_cases exception : letter = 'e'
      · simp only [if_neg ban, if_pos exception]
        exact ⟨rfl, rfl, rfl, rfl, rfl, rfl, fun _ => rfl⟩
      · simp only [if_neg ban, if_neg exception]
        exact ⟨rfl, rfl, rfl, rfl, rfl, rfl, fun _ => rfl⟩

theorem applyAll_sameRoom (steps : List ModeStep) (setter : String) (now : UInt64)
    (channel : ChannelEntry) : SameRoom channel (applyAll steps setter now channel).1 := by
  refine foldl_invariant (I := fun state : ChannelEntry × ModeEcho => SameRoom channel state.1)
    (apply setter now) steps ?_ (channel, {}) (.refl channel)
  intro state step _ same
  exact same.trans (apply_sameRoom setter now state.1 state.2 step)

end ModeStep

namespace Server

/-- The echo of a mode change is empty or its tables are persisted; the channel is changed. -/
theorem applyModeChange_toTables {s : Server} {channelName : String} {channel : ChannelEntry}
    (found : s.findChannel (s.fold channelName) = some channel) (source : String) (peerTs : UInt64)
    (flags : String) (args : List String) :
    (s.applyModeChange channelName source peerTs flags args).1.toTables =
      if channel.tsWinsOver peerTs then s.toTables
      else
        let applied := ModeStep.applyAll (modeSteps s.statusStep flags.toList true args) (s.remoteSourceNick source)
          s.nowUnix (channel.reconciled peerTs)
        let changed := { s.toTables with channels := s.channels.modify (s.fold channelName) fun _ => applied.1 }
        if applied.2.accum.flags = "" then changed else changed.persisted (s.fold channelName) := by
  simp only [applyModeChange, found]
  by_cases wins : channel.tsWinsOver peerTs = true
  · simp only [if_pos wins]
  · simp only [if_neg wins]
    -- resolving the arguments does not read the channels, which the timestamp may change
    have sameSteps : (s.reconcileChannelTs (s.fold channelName) peerTs).statusStep = s.statusStep := by
      rw [reconcileChannelTs_toTables]
      rfl
    have sameNick : (s.reconcileChannelTs (s.fold channelName) peerTs).remoteSourceNick source =
        s.remoteSourceNick source := by
      rw [reconcileChannelTs_toTables]
      rfl
    have sameNow : (s.reconcileChannelTs (s.fold channelName) peerTs).nowUnix = s.nowUnix := by
      rw [reconcileChannelTs_toTables]
      rfl
    rw [sameSteps, sameNick, sameNow]
    split
    · simp only [modifyChannel_toTables, reconcileChannelTs_toTables, Table.modify_modify]
    · simp only [persistRegistered_toTables, broadcast_toTables, modifyChannel_toTables,
        reconcileChannelTs_toTables, Table.modify_modify]

theorem applyModeChange_unknown {s : Server} {channelName : String}
    (absent : s.findChannel (s.fold channelName) = none) (source : String) (peerTs : UInt64)
    (flags : String) (args : List String) :
    s.applyModeChange channelName source peerTs flags args = (s, none) := by
  simp only [applyModeChange, absent]

@[simp] theorem remoteMode_toTables (s : Server) (channelName source : String) (peerTs : UInt64)
    (flags : String) (args : List String) :
    (s.remoteMode channelName source peerTs flags args).toTables =
      (s.applyModeChange channelName source peerTs flags args).1.toTables := by
  rw [remoteMode]
  split
  · rename_i result
    rw [result]
  · rename_i result
    rw [result]
    split <;> rfl

end Server

end Ferrixd
