import Ferrixd.Plugin.Host
import Ferrixd.State.Identity
import Ferrixd.State.Messages

/-! # What plugins queued

The actions that a hook call has queued are carried out when it has returned.  They come from the server itself,
and no plugin is asked about them. -/

namespace Ferrixd

open Protocol

namespace Server

/-- A message of the server's own, as its recipients see it. -/
def spokenEvent (s : Server) (notice : Bool) (shown text msgid : String) : Event where
  body := Line.server s.info.name |>.command (messageVerb notice) |>.param shown |>.trailing text |>.body
  time := some (formatServerTime s.nowMillis)
  msgid := some msgid

/-- A message for a plugin, to a channel or to a user here or elsewhere. -/
def pluginSay (s : Server) (target text : String) (notice : Bool) : Server :=
  let folded := s.fold target
  let stored (msgid shown : String) : StoredMessage :=
    ⟨msgid, s.nowMillis, s.info.name, none, messageKind notice, shown, text⟩
  if isValidChannel target then
    match s.findChannel folded with
    | none => s
    | some channel =>
      let (s, msgid) := s.claimMsgid none
      let s := s.toChannel channel (s.spokenEvent notice channel.name text msgid) none
      let s := s.emit fun fx => { fx with history := fx.history.record folded (stored msgid channel.name) }
      s.relayToMembers (trimStatus channel.name) none
        (.chanMessage s.info.name channel.name notice (some msgid) (some s.nowMillis) none text)
  else match s.findClient folded with
    | some client =>
      let (s, msgid) := s.claimMsgid none
      let nick := (s.entry client).nick
      let s := s.toClient client (s.spokenEvent notice nick text msgid)
      s.emit fun fx =>
        { fx with history := fx.history.record (pairKey (s.fold s.info.name) folded) (stored msgid nick) }
    | none =>
      match s.findRemoteUser folded with
      | some user =>
        let (s, msgid) := s.claimMsgid none
        s.sendTowards user.serverSid
          (.userMessage s.info.name user.nick notice (some msgid) (some s.nowMillis) none text)
      | none => s

/-- A ban for a plugin, of this server only; whoever it matches is asked to go. -/
def pluginKline (s : Server) (mask reason setBy : String) : Server :=
  let mask := normalizeBanMask mask
  (s.addKline mask reason setBy).killMatching mask ("K-Lined: " ++ reason)

/-- Carry out one action. -/
def applyPluginAction (s : Server) : Plugin.Action → Server
  | .notice target text => s.pluginSay target text true
  | .message target text => s.pluginSay target text false
  | .kick channel nick reason => s.pluginKick channel nick reason
  | .mode channel flags args => s.pluginMode channel flags args
  | .topic channel text => s.pluginTopic channel text
  | .kline mask reason setBy => s.pluginKline mask reason setBy

/-- Carry out what plugins queued, in its order. -/
def applyPluginActions (s : Server) (actions : List Plugin.Action) : Server :=
  actions.foldl applyPluginAction s

/-! ## What these do to the tables -/

theorem pluginSay_toTables (s : Server) (target text : String) (notice : Bool) :
    (s.pluginSay target text notice).toTables = s.toTables := by
  rw [pluginSay]
  dsimp only
  split
  · split
    · rfl
    · exact relayToMembers_toTables _ _ _ _
  · split
    · rfl
    · split
      · exact sendTowards_toTables _ _ _
      · rfl

variable {s other : Server}

theorem killMatching_congr (same : s.toTables = other.toTables) (mask reason : String) :
    (s.killMatching mask reason).toTables = (other.killMatching mask reason).toTables := by
  have folded : ∀ (ids : List UInt64) (s other : Server), s.toTables = other.toTables →
      (ids.foldl (fun s id => s.requestKill id reason) s).toTables =
        (ids.foldl (fun s id => s.requestKill id reason) other).toTables := by
    intro ids
    induction ids with
    | nil => exact fun _ _ same => same
    | cons id ids ih =>
      intro s other same
      refine ih _ _ ?_
      rw [requestKill_toTables, requestKill_toTables, same]
  rw [killMatching, killMatching, same]
  exact folded _ s other same

theorem remoteKick_congr (same : s.toTables = other.toTables) (channelName source targetUid reason : String) :
    (s.remoteKick channelName source targetUid reason).toTables =
      (other.remoteKick channelName source targetUid reason).toTables := by
  obtain ⟨tables, fx⟩ := s
  obtain ⟨_, later⟩ := other
  cases same
  rw [remoteKick, remoteKick]
  dsimp only
  split
  · rfl
  · split
    · split
      · rw [reapChannel_toTables, reapChannel_toTables]
        rfl
      · rfl
    · split
      · rfl
      · rw [reapChannel_toTables, reapChannel_toTables]
        rfl

theorem pluginKick_congr (same : s.toTables = other.toTables) (channel nick reason : String) :
    (s.pluginKick channel nick reason).toTables = (other.pluginKick channel nick reason).toTables := by
  rw [pluginKick, pluginKick, same]
  cases other.findChannel (other.fold channel) with
  | none => exact same
  | some entry =>
    dsimp only
    cases other.uidOfNick nick with
    | none => exact same
    | some uid =>
      dsimp only
      rw [propagateToLinks_toTables, propagateToLinks_toTables]
      exact remoteKick_congr same _ _ _ _

theorem applyModeChange_congr (same : s.toTables = other.toTables) (channelName source : String) (peerTs : UInt64)
    (flags : String) (args : List String) :
    (s.applyModeChange channelName source peerTs flags args).1.toTables =
      (other.applyModeChange channelName source peerTs flags args).1.toTables := by
  cases found : other.findChannel (other.fold channelName) with
  | none =>
    have absent : s.findChannel (s.fold channelName) = none := by rw [same, found]
    rw [applyModeChange_unknown absent, applyModeChange_unknown found]
    exact same
  | some channel =>
    have present : s.findChannel (s.fold channelName) = some channel := by rw [same, found]
    rw [applyModeChange_toTables present, applyModeChange_toTables found, same]

theorem pluginMode_congr (same : s.toTables = other.toTables) (channel flags : String) (args : List String) :
    (s.pluginMode channel flags args).toTables = (other.pluginMode channel flags args).toTables := by
  cases found : other.findChannel (other.fold channel) with
  | none => simp only [pluginMode, found, same]
  | some entry =>
    have present : s.findChannel (s.fold channel) = some entry := by rw [same, found]
    cases wired : pluginWire other.toTables flags.toList true args with
    | none => simp only [pluginMode, found, wired, same]
    | some wire =>
      have equally : pluginWire s.toTables flags.toList true args = some wire := by rw [same, wired]
      rw [pluginMode_toTables present equally, pluginMode_toTables found wired]
      exact applyModeChange_congr same _ _ _ _ _

theorem pluginTopic_congr (same : s.toTables = other.toTables) (channel text : String) :
    (s.pluginTopic channel text).toTables = (other.pluginTopic channel text).toTables := by
  rw [pluginTopic, pluginTopic, same]
  cases other.findChannel (other.fold channel) with
  | none => exact same
  | some entry =>
    dsimp only
    rw [propagateToLinks_toTables, propagateToLinks_toTables, recordChannelEvent_toTables,
      recordChannelEvent_toTables, remoteTopic_toTables, remoteTopic_toTables, same]

theorem pluginKline_congr (same : s.toTables = other.toTables) (mask reason setBy : String) :
    (s.pluginKline mask reason setBy).toTables = (other.pluginKline mask reason setBy).toTables := by
  refine killMatching_congr ?_ _ _
  rw [addKline, addKline, same]

/-- An action does to the tables what it says, whatever is queued or logged. -/
theorem applyPluginAction_congr (same : s.toTables = other.toTables) (action : Plugin.Action) :
    (s.applyPluginAction action).toTables = (other.applyPluginAction action).toTables := by
  cases action with
  | notice target text => exact (pluginSay_toTables s _ _ _).trans (same.trans (pluginSay_toTables other _ _ _).symm)
  | message target text => exact (pluginSay_toTables s _ _ _).trans (same.trans (pluginSay_toTables other _ _ _).symm)
  | kick channel nick reason => exact pluginKick_congr same channel nick reason
  | mode channel flags args => exact pluginMode_congr same channel flags args
  | topic channel text => exact pluginTopic_congr same channel text
  | kline mask reason setBy => exact pluginKline_congr same mask reason setBy

theorem applyPluginActions_congr (same : s.toTables = other.toTables) (actions : List Plugin.Action) :
    (s.applyPluginActions actions).toTables = (other.applyPluginActions actions).toTables := by
  induction actions generalizing s other with
  | nil => exact same
  | cons action actions ih => exact ih (applyPluginAction_congr same action)

end Server

end Ferrixd
