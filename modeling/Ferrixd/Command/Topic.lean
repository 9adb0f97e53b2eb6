import Ferrixd.Command.Mode

/-! # TOPIC, and what plugins do to channels

Besides the members of a channel, plugins may change its topic, its modes and who is in it.  They act
as the server. -/

namespace Ferrixd

def rplNoTopic : Nat := 331

/-- The length of a topic, in characters. -/
def maxTopicLen : Nat := 390

/-- The topic that a text sets; an empty one clears it. -/
def topicOf (text setBy : String) (setAt : UInt64) : Option Topic :=
  if text = "" then none else some ⟨text, setBy, setAt⟩

namespace Server

/-! ## Topics -/

def propagateTopic (s : Server) (id : UInt64) (channelDisplay setBy : String) (setAt : UInt64) (text : String) :
    Server :=
  s.propagateToLinks (.stopic channelDisplay (s.localUid id) setBy setAt text)

/-- Announce and log a topic of the client's. -/
def echoTopic (s : Server) (id : UInt64) (folded : String) (channel : ChannelEntry) (text : String) : Server :=
  let event := s.event id (s.userLine id |>.command "TOPIC" |>.param channel.name |>.trailing text |>.body)
  let s := (s.toChannel channel event (some id)).toClient id event
  s.recordChannelEvent folded channel.name (s.entry id).hostmask .topic text

/-- `TOPIC`: a query, or a change by a member, by an operator if the topic is locked; `block` is the
plugins' veto. -/
def cmdTopic (s : Server) (id : UInt64) (name : String) (newTopic block : Option String) : Server :=
  let folded := s.fold name
  match s.findChannel folded with
  | none => s.numeric id errNoSuchChannel [name] (some "No such channel")
  | some channel =>
    match newTopic with
    | none =>
      -- no new topic is given: a query, which takes no membership
      match channel.topic with
      | some topic =>
        let s := s.numeric id rplTopic [channel.name] (some topic.text)
        s.numeric id rplTopicWhoTime [channel.name, topic.setBy, printU64 topic.setAt] none
      | none => s.numeric id rplNoTopic [channel.name] (some "No topic is set")
    | some newTopic =>
      let newTopic := truncateChars newTopic maxTopicLen
      match channel.members.lookup id with
      | none => s.numeric id errNotOnChannel [channel.name] (some "You're not on that channel")
      | some status =>
        if channel.modes.topicLock && !status.op then
          s.numeric id errChanOPrivsNeeded [channel.name] (some "You're not channel operator")
        else match block with
          | some reason => s.fail id "TOPIC" "TOPIC_BLOCKED" [channel.name] reason
          | none =>
            let nick := (s.entry id).nick
            let s := s.modifyChannel folded fun channel =>
              { channel with topic := topicOf newTopic nick s.nowUnix }
            let s := (s.echoTopic id folded channel newTopic).persistRegistered folded
            s.propagateTopic id channel.name nick s.nowUnix newTopic

/-! ## Plugins -/

/-- Remove a user from a channel for a plugin, and tell the peers. -/
def pluginKick (s : Server) (channel nick reason : String) : Server :=
  match s.findChannel (s.fold channel) with
  | none => s
  | some entry =>
    match s.uidOfNick nick with
    | none => s
    | some uid =>
      (s.remoteKick entry.name "*" uid reason).propagateToLinks (.skick entry.name s.info.name uid reason)

/-- The arguments of a plugin's mode change for the wire; there are none if a parameter is missing or
a nick unknown. -/
def pluginWire (t : Tables) : List Char → Bool → List String → Option (List String)
  | [], _, _ => some []
  | c :: flags, adding, rest =>
    if c = '+' then pluginWire t flags true rest
    else if c = '-' then pluginWire t flags false rest
    else if c = 'o' ∨ c = 'v' then
      match rest with
      | [] => none
      | nick :: rest => (t.uidOfNick nick).bind fun uid => (pluginWire t flags adding rest).map (uid :: ·)
    else if c = 'k' ∨ c = 'l' then
      if adding then
        match rest with
        | [] => none
        | arg :: rest => (pluginWire t flags adding rest).map (arg :: ·)
      else pluginWire t flags adding rest
    else if c = 'b' ∨ c = 'e' ∨ c = 'I' then
      match rest with
      | [] => none
      | arg :: rest => (pluginWire t flags adding rest).map (normalizeBanMask arg :: ·)
    else pluginWire t flags adding rest

/-- Apply a mode change for a plugin, and tell the peers what applied. -/
def pluginMode (s : Server) (channel flags : String) (args : List String) : Server :=
  match s.findChannel (s.fold channel) with
  | none => s
  | some entry =>
    match pluginWire s.toTables flags.toList true args with
    | none => s
    | some wire =>
      -- the timestamp zero stands for none, and nothing is refused for it
      match s.applyModeChange entry.name "*" 0 flags wire with
      | (s, none) => s
      | (s, some (appliedFlags, appliedArgs, appliedWire)) =>
        let text := if appliedArgs.isEmpty then appliedFlags
          else appliedFlags ++ " " ++ " ".intercalate appliedArgs
        let s := s.recordChannelEvent (s.fold entry.name) entry.name s.info.name .mode text
        s.propagateToLinks (.smode entry.name s.info.name (s.channelTs entry.name) appliedFlags appliedWire)

/-- Set or clear a topic for a plugin, and tell the peers. -/
def pluginTopic (s : Server) (channel text : String) : Server :=
  match s.findChannel (s.fold channel) with
  | none => s
  | some entry =>
    let s := s.remoteTopic entry.name "*" s.info.name s.nowUnix text
    let s := s.recordChannelEvent (s.fold entry.name) entry.name s.info.name .topic text
    s.propagateToLinks (.stopic entry.name s.info.name s.info.name s.nowUnix text)

/-! ## What these do to the tables -/

/-- A topic is set on a live channel and stored, or nothing happens. -/
theorem cmdTopic_cases (s : Server) (id : UInt64) (name : String) (newTopic block : Option String) :
    (s.cmdTopic id name newTopic block).toTables = s.toTables ∨
      ∃ topic, (s.cmdTopic id name newTopic block).toTables =
        { s.toTables with
          channels := s.channels.modify (s.fold name) fun channel => { channel with topic } }.persisted
          (s.fold name) := by
  rw [cmdTopic]
  cases s.findChannel (s.fold name) with
  | none => exact .inl rfl
  | some channel =>
    cases newTopic with
    | none =>
      dsimp only
      cases channel.topic <;> exact .inl rfl
    | some newTopic =>
      dsimp only
      cases channel.members.lookup id with
      | none => exact .inl rfl
      | some status =>
        dsimp only
        split
        · exact .inl rfl
        · cases block with
          | some reason => exact .inl (fail_toTables _ _ _ _ _ _)
          | none =>
            refine .inr ⟨topicOf (truncateChars newTopic maxTopicLen) (s.entry id).nick s.nowUnix, ?_⟩
            simp only [propagateTopic, propagateToLinks_toTables, persistRegistered_toTables]
            rfl

theorem pluginKick_cases (s : Server) (channel nick reason : String) :
    (s.pluginKick channel nick reason).toTables = s.toTables ∨
      ∃ display uid, (s.pluginKick channel nick reason).toTables = (s.remoteKick display "*" uid reason).toTables := by
  rw [pluginKick]
  cases s.findChannel (s.fold channel) with
  | none => exact .inl rfl
  | some entry =>
    dsimp only
    cases s.uidOfNick nick with
    | none => exact .inl rfl
    | some uid => exact .inr ⟨entry.name, uid, propagateToLinks_toTables _ _⟩

/-- A plugin's mode change is applied without a timestamp. -/
theorem pluginMode_toTables {s : Server} {channel flags : String} {args wire : List String} {entry : ChannelEntry}
    (found : s.findChannel (s.fold channel) = some entry)
    (wired : pluginWire s.toTables flags.toList true args = some wire) :
    (s.pluginMode channel flags args).toTables = (s.applyModeChange entry.name "*" 0 flags wire).1.toTables := by
  simp only [pluginMode, found, wired]
  split
  · rename_i result
    rw [result]
  · rename_i result
    rw [result, propagateToLinks_toTables, recordChannelEvent_toTables]

theorem pluginMode_cases (s : Server) (channel flags : String) (args : List String) :
    (s.pluginMode channel flags args).toTables = s.toTables ∨
      ∃ entry wire, s.findChannel (s.fold channel) = some entry ∧
        (s.pluginMode channel flags args).toTables = (s.applyModeChange entry.name "*" 0 flags wire).1.toTables := by
  cases found : s.findChannel (s.fold channel) with
  | none => exact .inl (by simp only [pluginMode, found])
  | some entry =>
    cases wired : pluginWire s.toTables flags.toList true args with
    | none => exact .inl (by simp only [pluginMode, found, wired])
    | some wire => exact .inr ⟨entry, wire, rfl, pluginMode_toTables found wired⟩

theorem pluginTopic_cases (s : Server) (channel text : String) :
    (s.pluginTopic channel text).toTables = s.toTables ∨
      ∃ entry, s.findChannel (s.fold channel) = some entry ∧
        (s.pluginTopic channel text).toTables =
          (s.remoteTopic entry.name "*" s.info.name s.nowUnix text).toTables := by
  rw [pluginTopic]
  cases found : s.findChannel (s.fold channel) with
  | none => exact .inl rfl
  | some entry => exact .inr ⟨entry, rfl, by rw [propagateToLinks_toTables, recordChannelEvent_toTables]⟩

end Server

end Ferrixd
