import Ferrixd.State.Modes
import Ferrixd.State.Session

/-! # MODE

The mode command of a channel member: it names members by nick, makes at most six changes, and
passes on what applied with UIDs in place of the nicks. -/

namespace Ferrixd

def rplChannelModeIs : Nat := 324
def rplCreationTime : Nat := 329
def rplInvexList : Nat := 346
def rplEndOfInvexList : Nat := 347
def rplExceptList : Nat := 348
def rplEndOfExceptList : Nat := 349
def rplBanList : Nat := 367
def rplEndOfBanList : Nat := 368
def errUnknownMode : Nat := 472

/-- The changes one command makes at most. -/
def maxModeChanges : Nat := 6

/-- Normalise a list mask to `nick!user@host`; an extended mask stays as it is. -/
def normalizeBanMask (mask : String) : String :=
  if startsWith mask "~" then mask
  else if mask.toList.contains '!' then
    if mask.toList.contains '@' then mask else mask ++ "@*"
  else if mask.toList.contains '@' then "*!" ++ mask
  else mask ++ "!*@*"

/-- A mode command being worked through: the channel, the parameters left, the sign, what has
applied and the errors to report. -/
structure ModeRun where
  channel : ChannelEntry
  rest : List String
  adding : Bool := true
  echo : ModeEcho := {}
  replies : List (Nat × List String × String) := []

namespace ModeRun

def reply (run : ModeRun) (code : Nat) (params : List String) (text : String) : ModeRun :=
  { run with replies := run.replies ++ [(code, params, text)] }

/-- `o` and `v`: the next parameter is the nick of a member, here or on a linked server. -/
def status (t : Tables) (display : String) (run : ModeRun) (letter : Char) : ModeRun :=
  match run.rest with
  | [] => run
  | nick :: rest =>
    let run := { run with rest }
    let folded := t.fold nick
    match t.findClient folded with
    | some target =>
      -- whoever holds the nick here is meant, before anybody on a linked server
      if target ∈ run.channel.members then
        { run with
          channel := { run.channel with
            members := run.channel.members.modify target fun status => status.change letter run.adding }
          echo := run.echo.push run.adding letter [(t.entry target).nick] [t.localUid target] }
      else run.reply errUserNotInChannel [nick, display] "They aren't on that channel"
    | none =>
      match t.findRemoteUser folded with
      | some remote =>
        if remote.uid ∈ run.channel.remoteMembers then
          { run with
            channel := { run.channel with
              remoteMembers := run.channel.remoteMembers.modify remote.uid fun member =>
                member.change letter run.adding }
            echo := run.echo.push run.adding letter [remote.nick] [remote.uid] }
        else run.reply errUserNotInChannel [nick, display] "They aren't on that channel"
      | none => run.reply errNoSuchNick [nick] "No such nick/channel"

/-- `k`: only setting a key takes a parameter. -/
def key (run : ModeRun) : ModeRun :=
  if run.adding then
    match run.rest with
    | [] => run
    | key :: rest =>
      { run with
        rest
        channel := { run.channel with modes := { run.channel.modes with key := some key } }
        echo := run.echo.push true 'k' [key] [key] }
  -- taken off, the key is neither asked for nor named
  else
    { run with
      channel := { run.channel with modes := { run.channel.modes with key := none } }
      echo := run.echo.push false 'k' ["*"] [] }

/-- `l`: a limit that does not parse is skipped. -/
def limit (run : ModeRun) : ModeRun :=
  if run.adding then
    match run.rest with
    | [] => run
    | raw :: rest =>
      let run := { run with rest }
      match parseU64 raw with
      | some limit =>
        { run with
          channel := { run.channel with modes := { run.channel.modes with limit := some limit } }
          echo := run.echo.push true 'l' [printU64 limit] [printU64 limit] }
      -- what is no number is consumed all the same
      | none => run
  else
    { run with
      channel := { run.channel with modes := { run.channel.modes with limit := none } }
      echo := run.echo.push false 'l' [] [] }

/-- `b`, `e` and `I`: only a change of the list is passed on. -/
def list (setBy : String) (setAt : UInt64) (run : ModeRun) (letter : Char) : ModeRun :=
  match run.rest with
  | [] => run
  | raw :: rest =>
    let run := { run with rest }
    -- stored, echoed and told to the peers as normalised
    let mask := normalizeBanMask raw
    let current :=
      if letter = 'b' then run.channel.bans
      else if letter = 'e' then run.channel.exceptions
      else run.channel.invex
    let (changed, applied) := applyListMode current run.adding mask setBy setAt
    let channel :=
      if letter = 'b' then { run.channel with bans := changed }
      else if letter = 'e' then { run.channel with exceptions := changed }
      else { run.channel with invex := changed }
    { run with
      channel
      echo := if applied then run.echo.push run.adding letter [mask] [mask] else run.echo }

/-- The boolean modes; any other letter is unknown. -/
def flag (run : ModeRun) (letter : Char) : ModeRun :=
  match boolModes.find? fun mode => mode.letter = letter with
  | some mode =>
    { run with
      channel := { run.channel with modes := mode.set run.channel.modes run.adding }
      echo := run.echo.push run.adding letter [] [] }
  | none => run.reply errUnknownMode [String.singleton letter] "is unknown mode char to me"

/-- One character of the mode string. -/
def letter (t : Tables) (id : UInt64) (display : String) (run : ModeRun) (c : Char) : ModeRun :=
  if c = '+' then { run with adding := true }
  else if c = '-' then { run with adding := false }
  else if c = 'o' ∨ c = 'v' then run.status t display c
  else if c = 'k' then run.key
  else if c = 'l' then run.limit
  else if c = 'b' ∨ c = 'e' ∨ c = 'I' then run.list (t.entry id).nick t.nowUnix c
  else run.flag c

/-- The whole mode string, up to the limit on changes. -/
def letters (t : Tables) (id : UInt64) (display : String) : List Char → ModeRun → ModeRun
  | [], run => run
  | c :: flags, run =>
    if maxModeChanges ≤ run.echo.accum.applied then run
    else letters t id display flags (run.letter t id display c)

end ModeRun

namespace Server

def propagateMode (s : Server) (id : UInt64) (channelDisplay flags : String) (args : List String) : Server :=
  s.propagateToLinks (.smode channelDisplay (s.localUid id) (s.channelTs channelDisplay) flags args)

/-- Send the replies collected. -/
def reportAll (s : Server) (id : UInt64) (replies : List (Nat × List String × String)) : Server :=
  replies.foldl (fun s reply => s.numeric id reply.1 reply.2.1 (some reply.2.2)) s

/-- Announce and log what applied. -/
def echoModes (s : Server) (id : UInt64) (display : String) (channel : ChannelEntry) (echo : ModeEcho) : Server :=
  let flags := echo.accum.flags
  let line := s.userLine id |>.command "MODE" |>.param display |>.param flags
  let event := s.event id (echo.applied.foldl Line.param line).body
  let s := (s.toChannel channel event (some id)).toClient id event
  let text := if echo.applied.isEmpty then flags else flags ++ " " ++ " ".intercalate echo.applied
  s.recordChannelEvent (s.fold display) display (s.entry id).hostmask .mode text

/-- Work through a mode command of the client, then announce, log, store and pass on what applied. -/
def applyChannelModes (s : Server) (id : UInt64) (folded : String) (channel : ChannelEntry) (modestr : String)
    (args : List String) : Server :=
  let display := channel.name
  let run := ModeRun.letters s.toTables id display modestr.toList { channel, rest := args }
  let s := (s.modifyChannel folded fun _ => run.channel).reportAll id run.replies
  if run.echo.accum.flags = "" then s
  else
    let s := (s.echoModes id display run.channel run.echo).persistRegistered (s.fold display)
    s.propagateMode id display run.echo.accum.flags run.echo.wire

/-- Report a list and its end. -/
def sendListMode (s : Server) (id : UInt64) (channel : ChannelEntry) (which : Char) : Server :=
  let (list, item, last, text) :=
    if which = 'b' then (channel.bans, rplBanList, rplEndOfBanList, "End of channel ban list")
    else if which = 'e' then
      (channel.exceptions, rplExceptList, rplEndOfExceptList, "End of channel exception list")
    else (channel.invex, rplInvexList, rplEndOfInvexList, "End of channel invite exception list")
  let s := list.foldl
    (fun s ban => s.numeric id item [channel.name, ban.mask, ban.setBy, printU64 ban.setAt] none) s
  s.numeric id last [channel.name] (some text)

/-- The lists that a mode string without parameters asks for, if it asks for nothing else. -/
def listQuery (modestr : String) : List Char :=
  let isList (c : Char) : Bool := c = 'b' || c = 'e' || c = 'I'
  let letters := (modestr.toList.dropWhile fun c => c = '+').filter isList
  if modestr.toList.all (fun c => isList c || c = '+') then letters else []

/-- `MODE` on a channel: a query, or a change by one of its operators. -/
def channelMode (s : Server) (id : UInt64) (target : String) (args : List String) : Server :=
  let folded := s.fold target
  match s.findChannel folded with
  | none => s.numeric id errNoSuchChannel [target] (some "No such channel")
  | some channel =>
    match args with
    | [] =>
      let (flags, shown) := channel.modes.render false
      let line := Line.server s.info.name |>.code rplChannelModeIs |>.param (s.entry id).nick
        |>.param channel.name |>.param flags
      let s := s.send id (shown.foldl Line.param line).build
      s.numeric id rplCreationTime [channel.name, printU64 channel.createdAt] none
    | modestr :: params =>
      -- the lists are shown to whoever asks
      if params.isEmpty && !(listQuery modestr).isEmpty then
        (listQuery modestr).foldl (fun s which => s.sendListMode id channel which) s
      else match channel.members.lookup id with
        | none => s.numeric id errNotOnChannel [channel.name] (some "You're not on that channel")
        | some status =>
          if !status.op then
            s.numeric id errChanOPrivsNeeded [channel.name] (some "You're not channel operator")
          else s.applyChannelModes id folded channel modestr params

/-! ## What these do to the tables -/

/-- Replies change no table and send nothing to a peer. -/
theorem replies_quiet (replies : List (Nat × List String × String)) (id : UInt64) (s : Server) :
    (s.reportAll id replies).toTables = s.toTables ∧ (s.reportAll id replies).fx.frames = s.fx.frames := by
  induction replies generalizing s with
  | nil => exact ⟨rfl, rfl⟩
  | cons reply rest ih =>
    obtain ⟨tables, frames⟩ := ih (s.numeric id reply.1 reply.2.1 (some reply.2.2))
    rw [numeric_toTables] at tables
    rw [numeric_frames] at frames
    exact ⟨tables, frames⟩

@[simp] theorem reportAll_toTables (s : Server) (id : UInt64) (replies : List (Nat × List String × String)) :
    (s.reportAll id replies).toTables = s.toTables :=
  (replies_quiet replies id s).1

@[simp] theorem echoModes_toTables (s : Server) (id : UInt64) (display : String) (channel : ChannelEntry)
    (echo : ModeEcho) : (s.echoModes id display channel echo).toTables = s.toTables := rfl

@[simp] theorem echoModes_frames (s : Server) (id : UInt64) (display : String) (channel : ChannelEntry)
    (echo : ModeEcho) : (s.echoModes id display channel echo).fx.frames = s.fx.frames := rfl

/-- A mode command changes one channel, and what applied is stored. -/
theorem applyChannelModes_toTables (s : Server) (id : UInt64) (folded : String) (channel : ChannelEntry)
    (modestr : String) (args : List String) :
    (s.applyChannelModes id folded channel modestr args).toTables =
      let run := ModeRun.letters s.toTables id channel.name modestr.toList { channel, rest := args }
      let changed := { s.toTables with channels := s.channels.modify folded fun _ => run.channel }
      if run.echo.accum.flags = "" then changed else changed.persisted (s.fold channel.name) := by
  simp only [applyChannelModes]
  split
  · rw [reportAll_toTables, modifyChannel_toTables]
  · simp only [propagateMode, propagateToLinks_toTables, persistRegistered_toTables, echoModes_toTables,
      reportAll_toTables, modifyChannel_toTables]
    rfl

/-- What applied is passed on to every peer. -/
theorem applyChannelModes_frames {s : Server} {channel : ChannelEntry}
    (found : s.findChannel (s.fold channel.name) = some channel) (id : UInt64) (modestr : String)
    (args : List String) :
    let run := ModeRun.letters s.toTables id channel.name modestr.toList { channel, rest := args }
    (s.applyChannelModes id (s.fold channel.name) channel modestr args).fx.frames =
      s.fx.frames ++ if run.echo.accum.flags = "" then [] else s.links.keys.map fun peer =>
        (peer, .smode channel.name (s.localUid id) run.channel.createdAt run.echo.accum.flags run.echo.wire) := by
  simp only [applyChannelModes]
  generalize ModeRun.letters s.toTables id channel.name modestr.toList { channel, rest := args } = run
  have quiet := (replies_quiet run.replies id (s.modifyChannel (s.fold channel.name) fun _ => run.channel)).2
  split
  · rw [quiet, List.append_nil]
    rfl
  · generalize stored : Server.persistRegistered _ _ = later
    have tables : later.toTables = Tables.persisted { s.toTables with
        channels := s.channels.modify (s.fold channel.name) fun _ => run.channel } (s.fold channel.name) := by
      rw [← stored, persistRegistered_toTables, echoModes_toTables, reportAll_toTables, modifyChannel_toTables]
      rfl
    have frames : later.fx.frames = s.fx.frames := by
      rw [← stored, persistRegistered_fx, echoModes_frames, quiet]
      rfl
    obtain ⟨records, rows, frame⟩ := Tables.persisted_frame { s.toTables with
      channels := s.channels.modify (s.fold channel.name) fun _ => run.channel } (s.fold channel.name)
    rw [frame] at tables
    -- the timestamp is read back from the stored channel
    have ts : later.channelTs channel.name = run.channel.createdAt := by
      have here : later.findChannel (later.fold channel.name) = some run.channel := by
        rw [Tables.fold, Tables.findChannel, tables]
        show (s.channels.modify (s.fold channel.name) fun _ => run.channel).lookup (s.fold channel.name) = _
        rw [Table.lookup_modify, if_pos rfl, show s.channels.lookup (s.fold channel.name) = some channel from found,
          Option.map_some]
      rw [channelTs, here]
      rfl
    rw [propagateMode, propagateToLinks_frames, frames, ts, Tables.localUid, tables]
    rfl

end Server

end Ferrixd
