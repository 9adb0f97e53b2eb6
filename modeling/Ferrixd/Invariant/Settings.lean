import Ferrixd.Command.Flight
import Ferrixd.Command.Topic
import Ferrixd.Invariant.Commands

/-! # The settings of a channel

The name, the topic and the modes of a channel are what a registration keeps of it.  Most of what
happens to a channel leaves them alone, and the registrations with them. -/

namespace Ferrixd

/-- A channel with the name, topic and modes that it had. -/
structure ChannelEntry.SameSettings (before after : ChannelEntry) : Prop where
  name : after.name = before.name
  topic : after.topic = before.topic
  modes : after.modes = before.modes

namespace ChannelEntry.SameSettings

theorem refl (channel : ChannelEntry) : SameSettings channel channel :=
  ⟨rfl, rfl, rfl⟩

theorem trans {first second third : ChannelEntry} (left : SameSettings first second)
    (right : SameSettings second third) : SameSettings first third :=
  ⟨right.name.trans left.name, right.topic.trans left.topic, right.modes.trans left.modes⟩

end ChannelEntry.SameSettings

/-- Channel tables in which every channel was there before, with the same settings. -/
def KeepsSettings (channels channels' : Table String ChannelEntry) : Prop :=
  ∀ folded after, channels'.lookup folded = some after →
    ∃ before, channels.lookup folded = some before ∧ before.SameSettings after

namespace KeepsSettings

theorem refl (channels : Table String ChannelEntry) : KeepsSettings channels channels :=
  fun _ channel found => ⟨channel, found, .refl channel⟩

theorem trans {first second third : Table String ChannelEntry} (left : KeepsSettings first second)
    (right : KeepsSettings second third) : KeepsSettings first third := by
  intro folded after found
  obtain ⟨between, stored, later⟩ := right folded after found
  obtain ⟨before, original, earlier⟩ := left folded between stored
  exact ⟨before, original, earlier.trans later⟩

/-- Changing anything but the settings. -/
theorem modify {channels : Table String ChannelEntry} {key : String} {change : ChannelEntry → ChannelEntry}
    (same : ∀ channel, channels.lookup key = some channel → channel.SameSettings (change channel)) :
    KeepsSettings channels (channels.modify key change) := by
  intro folded after found
  rw [Table.lookup_modify] at found
  split at found
  · rename_i here
    subst here
    obtain ⟨before, stored, rfl⟩ := Option.map_eq_some_iff.mp found
    exact ⟨before, stored, same before stored⟩
  · exact ⟨after, found, .refl after⟩

theorem reap (channels : Table String ChannelEntry) (key : String) :
    KeepsSettings channels (Ferrixd.reap channels key) := by
  intro folded after found
  rw [lookup_reap] at found
  split at found
  · rename_i here
    subst here
    exact ⟨after, (Option.filter_eq_some_iff.mp found).1, .refl after⟩
  · exact ⟨after, found, .refl after⟩

/-- A change of anything but the settings, with the channel reaped if it is empty then. -/
theorem reaped {channels : Table String ChannelEntry} {key : String} {change : ChannelEntry → ChannelEntry}
    (same : ∀ channel : ChannelEntry, channel.SameSettings (change channel)) :
    KeepsSettings channels (Ferrixd.reap (channels.modify key change) key) :=
  (modify fun channel _ => same channel).trans (reap _ key)

theorem leaveAll (uid : String) (names : List String) (channels : Table String ChannelEntry) :
    KeepsSettings channels (names.foldl (leave uid) channels) := by
  refine foldl_invariant (I := KeepsSettings channels) (leave uid) names ?_ channels (refl channels)
  intro later name _ kept
  refine kept.trans ?_
  rw [leave]
  split
  · exact refl _
  · split
    · exact reaped fun _ => ⟨rfl, rfl, rfl⟩
    · exact refl _

theorem leaveAllLocal (id : UInt64) (names : List String) (channels : Table String ChannelEntry) :
    KeepsSettings channels (names.foldl (fun channels name =>
      Ferrixd.reap (channels.modify name fun channel => channel.dropLocal id) name) channels) := by
  refine foldl_invariant (I := KeepsSettings channels) _ names ?_ channels (refl channels)
  intro later name _ kept
  exact kept.trans (reaped fun _ => ⟨rfl, rfl, rfl⟩)

theorem renameAll (uid newNick : String) (names : List String) (channels : Table String ChannelEntry) :
    KeepsSettings channels (names.foldl (fun channels name =>
      channels.modify name fun channel => channel.renameRemote uid newNick) channels) := by
  refine foldl_invariant (I := KeepsSettings channels) _ names ?_ channels (refl channels)
  intro later name _ kept
  exact kept.trans (modify fun _ _ => ⟨rfl, rfl, rfl⟩)

end KeepsSettings

/-- Tables with the same registrations, and channels with the settings that they had. -/
structure KeepsRecords (t t' : Tables) : Prop where
  info : t'.info = t.info
  records : t'.registeredChannels = t.registeredChannels
  rows : t'.chanreg = t.chanreg
  settings : KeepsSettings t.channels t'.channels

namespace KeepsRecords

theorem of_eq {t t' : Tables} (same : t' = t) : KeepsRecords t t' := by
  rw [same]
  exact ⟨rfl, rfl, rfl, .refl _⟩

theorem trans {first second third : Tables} (left : KeepsRecords first second) (right : KeepsRecords second third) :
    KeepsRecords first third :=
  ⟨right.info.trans left.info, right.records.trans left.records, right.rows.trans left.rows,
    left.settings.trans right.settings⟩

/-- Moves of remote users. -/
theorem of_moves {t t' : Tables} (moves : Moves t t') : KeepsRecords t t' := by
  induction moves with
  | refl t => exact of_eq rfl
  | trans _ _ left right => exact left.trans right
  | killed t id reason => exact ⟨rfl, rfl, rfl, .refl _⟩
  | purged t uid => exact ⟨rfl, rfl, rfl, .leaveAll uid _ _⟩
  | parted t folded uid => exact ⟨rfl, rfl, rfl, .reaped fun _ => ⟨rfl, rfl, rfl⟩⟩
  | renamed t uid newNick old => exact ⟨rfl, rfl, rfl, .renameAll uid newNick _ _⟩
  | invited t folded pending => exact ⟨rfl, rfl, rfl, .modify fun _ _ => ⟨rfl, rfl, rfl⟩⟩
  | elsewhere info _ channels records rows =>
    refine ⟨info, records, rows, ?_⟩
    rw [channels]
    exact .refl _

theorem parted (t : Tables) (folded uid : String) : KeepsRecords t (t.parted folded uid) :=
  of_moves (.parted t folded uid)

theorem partedLocal (t : Tables) (folded : String) (id : UInt64) : KeepsRecords t (t.partedLocal folded id) :=
  ⟨rfl, rfl, rfl, .reaped fun _ => ⟨rfl, rfl, rfl⟩⟩

/-! ## Commands -/

variable (s : Server)

theorem connect (host : String) : KeepsRecords s.toTables (s.connect host).toTables :=
  ⟨rfl, rfl, rfl, .refl _⟩

theorem cmdNick (id : UInt64) (nick : String) : KeepsRecords s.toTables (s.cmdNick id nick).toTables := by
  obtain ⟨rooms, info⟩ := Server.cmdNick_rooms s id nick
  refine ⟨info, congrArg Rooms.registeredChannels rooms, congrArg Rooms.chanreg rooms, ?_⟩
  rw [rooms]
  exact .refl _

theorem partOne (id : UInt64) (name : String) (reason : Option String) :
    KeepsRecords s.toTables (s.partOne id name reason).toTables := by
  obtain same | left := s.partOne_cases id name reason
  · exact of_eq same
  · rw [left]
    exact partedLocal _ _ _

theorem kickOne (id : UInt64) (chan targetNick : String) (reason : Option String) :
    KeepsRecords s.toTables (s.kickOne id chan targetNick reason).toTables := by
  obtain same | ⟨other, -, kicked⟩ | ⟨user, -, kicked⟩ := s.kickOne_cases id chan targetNick reason
  · exact of_eq same
  · rw [kicked]
    exact partedLocal _ _ _
  · rw [kicked]
    exact parted _ _ _

theorem disconnect (id : UInt64) (reason : String) :
    KeepsRecords s.toTables (s.disconnect id reason).toTables := by
  have gone := s.disconnect_toTables id reason
  rw [gone]
  refine ⟨rfl, rfl, rfl, ?_⟩
  dsimp only
  split
  · exact .leaveAllLocal id _ _
  · exact .refl _

theorem closeConnection (id : UInt64) (reason : String) :
    KeepsRecords s.toTables (s.closeConnection id reason).toTables := by
  rw [Server.closeConnection]
  split
  · have withdrawn : KeepsRecords s.toTables (s.withdrawLocal id reason).toTables :=
      of_eq (Server.withdrawLocal_toTables _ _ _)
    exact withdrawn.trans (disconnect _ id reason)
  · exact disconnect s id reason

theorem completeRegistration (id : UInt64) (cloak : String) :
    KeepsRecords s.toTables (s.completeRegistration id cloak).toTables := by
  rw [Server.completeRegistration]
  split
  · exact closeConnection s id _
  · rw [Server.monitorOnline_toTables, Server.introduceLocal_toTables]
    exact ⟨rfl, rfl, rfl, .refl _⟩

theorem reapChannel (folded : String) : KeepsRecords s.toTables (s.reapChannel folded).toTables := by
  rw [Server.reapChannel_toTables]
  exact ⟨rfl, rfl, rfl, .reap _ folded⟩

/-! ## Joins -/

theorem enterFiled (id : UInt64) (folded filed : String) (channel : ChannelEntry) (created : Bool) :
    KeepsRecords s.toTables (s.enterFiled id folded filed channel created).toTables := by
  rw [Server.enterFiled_toTables]
  exact ⟨rfl, rfl, rfl, .modify fun _ _ => ⟨rfl, rfl, rfl⟩⟩

theorem settleFlight (flight : Flight) (key block : Option String) :
    KeepsRecords s.toTables (s.settleFlight flight key block).toTables := by
  rw [Server.settleFlight]
  split
  · exact of_eq rfl
  · dsimp only
    split
    · exact of_eq rfl
    · generalize s.fold (s.entry flight.id).nick = foldedNick
      have uninvited : KeepsRecords s.toTables (if flight.created then s else s.modifyChannel flight.filed
          fun channel => { channel with invited := channel.invited.filter fun nick => nick != foldedNick }).toTables := by
        split
        · exact of_eq rfl
        · exact ⟨rfl, rfl, rfl, .modify fun _ _ => ⟨rfl, rfl, rfl⟩⟩
      cases block with
      | some reason =>
        refine uninvited.trans (of_eq ?_)
        exact Server.fail_toTables _ _ _ _ _ _
      | none => exact uninvited.trans (enterFiled _ _ _ _ _ _)

theorem endFlight (flight : Flight) : KeepsRecords s.toTables (s.endFlight flight).toTables := by
  have counted : KeepsRecords s.toTables (s.modifyChannel flight.filed fun channel =>
      { channel with joining := channel.joining - 1 }).toTables :=
    ⟨rfl, rfl, rfl, .modify fun _ _ => ⟨rfl, rfl, rfl⟩⟩
  exact counted.trans (reapChannel _ _)

/-! ## Kicks by peers and plugins -/

theorem remoteKick (channelName source targetUid reason : String) :
    KeepsRecords s.toTables (s.remoteKick channelName source targetUid reason).toTables := by
  obtain same | ⟨id, -, kicked⟩ | ⟨-, -, kicked⟩ := s.remoteKick_toTables channelName source targetUid reason
  · exact of_eq same
  · rw [kicked]
    exact partedLocal _ _ _
  · rw [kicked]
    exact parted _ _ _

theorem pluginKick (channel nick reason : String) :
    KeepsRecords s.toTables (s.pluginKick channel nick reason).toTables := by
  obtain same | ⟨display, uid, kicked⟩ := s.pluginKick_cases channel nick reason
  · exact of_eq same
  · rw [kicked]
    exact remoteKick s _ _ _ _

end KeepsRecords

end Ferrixd
