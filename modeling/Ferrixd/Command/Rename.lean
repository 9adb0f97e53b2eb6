import Mathlib
import Ferrixd.State.Channels

/-! # RENAME

What a channel rename does to the state that outlives the channel: registrations, history and
read markers. -/

namespace Ferrixd

/-! ## Read markers -/

/-- The key of an owner's read marker. -/
def markerKey (owner foldedTarget : String) : String :=
  owner ++ "\x00" ++ foldedTarget

def Tables.readMarkerGet (s : Tables) (owner foldedTarget : String) : Option UInt64 :=
  s.readMarkers.lookup (markerKey owner foldedTarget)

/-- A name as a line can carry it. -/
def NulFree (name : String) : Prop :=
  '\x00' ∉ name.toList

instance (name : String) : Decidable (NulFree name) :=
  inferInstanceAs (Decidable (¬ _))

theorem markerKey_inj {owner other target otherTarget : String} (clean : NulFree target)
    (otherClean : NulFree otherTarget) (same : markerKey owner target = markerKey other otherTarget) :
    owner = other ∧ target = otherTarget :=
  append_separator_inj clean otherClean same

theorem stripTail?_markerKey {key oldFolded owner : String} :
    stripTail? key ("\x00" ++ oldFolded) = some owner ↔ key = markerKey owner oldFolded := by
  rw [stripTail?_some, markerKey, String.append_assoc]

/-- The markers after those of some owners were moved. -/
def movedMarkers (oldFolded newFolded : String) (moved : List (String × UInt64)) (markers : Table String UInt64) :
    Table String UInt64 :=
  moved.foldl (fun markers marker =>
    (markers.erase (markerKey marker.1 oldFolded)).insert (markerKey marker.1 newFolded) marker.2) markers

section

variable {oldFolded newFolded : String} (oldClean : NulFree oldFolded) (newClean : NulFree newFolded)

include oldClean newClean

theorem lookup_movedMarkers_other (moved : List (String × UInt64)) (markers : Table String UInt64)
    (owner : String) {other : String} (clean : NulFree other) (notOld : other ≠ oldFolded)
    (notNew : other ≠ newFolded) :
    (movedMarkers oldFolded newFolded moved markers).lookup (markerKey owner other) =
      markers.lookup (markerKey owner other) := by
  induction moved generalizing markers with
  | nil => rfl
  | cons marker rest ih =>
    rw [movedMarkers, List.foldl_cons]
    refine (ih _).trans ?_
    exact Table.lookup_moved_other (fun same => notNew (markerKey_inj clean newClean same).2)
      (fun same => notOld (markerKey_inj clean oldClean same).2) _ _

variable (apart : oldFolded ≠ newFolded)

include apart

theorem lookup_movedMarkers_new (moved : List (String × UInt64)) (markers : Table String UInt64) (owner : String)
    (others : owner ∉ moved.map Prod.fst) :
    (movedMarkers oldFolded newFolded moved markers).lookup (markerKey owner newFolded) =
      markers.lookup (markerKey owner newFolded) := by
  induction moved generalizing markers with
  | nil => rfl
  | cons marker rest ih =>
    rw [List.map_cons, List.mem_cons, not_or] at others
    rw [movedMarkers, List.foldl_cons]
    refine (ih _ others.2).trans ?_
    exact Table.lookup_moved_other (fun same => others.1 (markerKey_inj newClean newClean same).1)
      (fun same => apart (markerKey_inj newClean oldClean same).2.symm) _ _

theorem lookup_movedMarkers_moved {moved : List (String × UInt64)} (nodup : (moved.map Prod.fst).Nodup)
    (markers : Table String UInt64) {owner : String} {value : UInt64} (member : (owner, value) ∈ moved) :
    (movedMarkers oldFolded newFolded moved markers).lookup (markerKey owner newFolded) = some value := by
  induction moved generalizing markers with
  | nil => cases member
  | cons marker rest ih =>
    rw [List.map_cons, List.nodup_cons] at nodup
    rw [movedMarkers, List.foldl_cons]
    rcases List.mem_cons.mp member with rfl | member
    · refine (lookup_movedMarkers_new oldClean newClean apart rest _ owner nodup.1).trans ?_
      exact AList.lookup_insert _
    · exact ih nodup.2 _ member

end

/-- The owners that have a marker for a target, and where it is. -/
def markersOf (foldedTarget : String) (markers : Table String UInt64) : List (String × UInt64) :=
  markers.entries.filterMap fun marker =>
    (stripTail? marker.1 ("\x00" ++ foldedTarget)).map fun owner => (owner, marker.2)

theorem mem_markersOf {foldedTarget owner : String} {value : UInt64} {markers : Table String UInt64} :
    (owner, value) ∈ markersOf foldedTarget markers ↔ markers.lookup (markerKey owner foldedTarget) = some value := by
  rw [markersOf, List.mem_filterMap]
  constructor
  · rintro ⟨⟨key, stored⟩, found, moved⟩
    obtain ⟨stripped, owned, same⟩ := Option.map_eq_some_iff.mp moved
    cases same
    have named : key = markerKey owner foldedTarget := stripTail?_markerKey.mp owned
    exact named ▸ Table.mem_entries_iff.mp found
  · intro found
    refine ⟨⟨markerKey owner foldedTarget, value⟩, Table.mem_entries_iff.mpr found, ?_⟩
    rw [stripTail?_markerKey.mpr rfl, Option.map_some]

theorem markersOf_nodup (foldedTarget : String) (markers : Table String UInt64) :
    ((markersOf foldedTarget markers).map Prod.fst).Nodup := by
  have keys : (markersOf foldedTarget markers).map Prod.fst =
      markers.keys.filterMap fun key => stripTail? key ("\x00" ++ foldedTarget) := by
    rw [markersOf, AList.keys, List.keys, List.map_filterMap, List.filterMap_map]
    refine List.filterMap_congr fun marker _ => ?_
    rw [Option.map_map]
    exact Option.map_id'
  rw [keys]
  refine List.Nodup.filterMap ?_ markers.keys_nodup
  intro left right owner leftOwned rightOwned
  rw [stripTail?_markerKey.mp leftOwned, stripTail?_markerKey.mp rightOwned]

theorem moveReadMarkers_markers (s : Server) (oldFolded newFolded : String) :
    (s.moveReadMarkers oldFolded newFolded).readMarkers =
      movedMarkers oldFolded newFolded (markersOf oldFolded s.readMarkers) s.readMarkers := by
  have triples : (s.readMarkers.entries.filterMap fun marker =>
      (stripTail? marker.1 ("\x00" ++ oldFolded)).map fun owner => (marker.1, owner, marker.2)) =
        (markersOf oldFolded s.readMarkers).map fun marker =>
          (markerKey marker.1 oldFolded, marker.1, marker.2) := by
    rw [markersOf, List.map_filterMap]
    refine List.filterMap_congr fun marker _ => ?_
    cases owned : stripTail? marker.1 ("\x00" ++ oldFolded) with
    | none => rfl
    | some owner =>
      rw [Option.map_some, Option.map_some, Option.map_some, stripTail?_markerKey.mp owned]
  rw [Server.moveReadMarkers, triples, List.foldl_map]
  rfl

/-! ## What is moved -/

/-- A record under another name. -/
def RegisteredChannel.renamed (record : RegisteredChannel) (folded name : String) : RegisteredChannel :=
  { record with folded, name }

namespace Server

theorem moveInSets_durable (s : Server) (oldFolded newFolded : String) (channel : ChannelEntry) :
    let after := s.moveInSets oldFolded newFolded channel
    after.registeredChannels = s.registeredChannels ∧ after.chanreg = s.chanreg ∧
      after.readMarkers = s.readMarkers ∧ after.fx = s.fx :=
  foldl_invariant (I := fun later : Server => later.registeredChannels = s.registeredChannels ∧
      later.chanreg = s.chanreg ∧ later.readMarkers = s.readMarkers ∧ later.fx = s.fx)
    (fun s id => s.modifyEntry id fun entry =>
      { entry with channels := exchange oldFolded newFolded entry.channels })
    (channel.members.keys.filter fun id => id ∈ s.byId) (fun _ _ _ same => same) s ⟨rfl, rfl, rfl, rfl⟩

/-- The registrations and rows after a move: the record is built anew from the live channel. -/
theorem moveRegistration_durable {s : Server} {newFolded : String} {channel : ChannelEntry}
    (live : s.findChannel newFolded = some channel) (oldFolded newName : String) :
    (s.moveRegistration oldFolded newFolded newName).registeredChannels =
      (match s.registeredChannels.lookup oldFolded with
      | none => s.registeredChannels
      | some record =>
        (s.registeredChannels.erase oldFolded).insert newFolded
          (buildRegistration newFolded record.founder channel)) ∧
      (s.moveRegistration oldFolded newFolded newName).chanreg =
        (match s.registeredChannels.lookup oldFolded with
        | none => s.chanreg
        | some record =>
          s.chanreg.map fun rows =>
            (rows.erase oldFolded).insert newFolded (buildRegistration newFolded record.founder channel)) ∧
      (s.moveRegistration oldFolded newFolded newName).readMarkers = s.readMarkers ∧
      (s.moveRegistration oldFolded newFolded newName).fx = s.fx := by
  rw [moveRegistration]
  cases registered : s.registeredChannels.lookup oldFolded with
  | none => exact ⟨rfl, rfl, rfl, rfl⟩
  | some record =>
    -- the record moves first and is then built again from the channel under its new name
    have stored : ((s.registeredChannels.erase oldFolded).insert newFolded
        (record.renamed newFolded newName)).lookup newFolded = some (record.renamed newFolded newName) :=
      AList.lookup_insert _
    have found : s.channels.lookup newFolded = some channel := live
    simp only [RegisteredChannel.renamed] at stored
    simp only [persistRegistered_toTables, persistRegistered_fx, Tables.persisted, Tables.findChannel, stored, found,
      AList.insert_insert, Option.map_map]
    exact ⟨trivial, rfl, trivial, trivial⟩

/-- A successful rename to another name, and where it leaves the state that outlives channels. -/
theorem renameChannel_durable {s after : Server} {oldFolded newName : String} {channel : ChannelEntry}
    (found : s.findChannel oldFolded = some channel) (apart : s.fold newName ≠ oldFolded)
    (renamed : s.renameChannel oldFolded newName = .ok after) :
    let newFolded := s.fold newName
    let record := fun founder => buildRegistration newFolded founder { channel with name := newName }
    newFolded ∉ s.channels ∧
      after.registeredChannels =
        (match s.registeredChannels.lookup oldFolded with
        | none => s.registeredChannels
        | some old => (s.registeredChannels.erase oldFolded).insert newFolded (record old.founder)) ∧
      after.chanreg =
        (match s.registeredChannels.lookup oldFolded with
        | none => s.chanreg
        | some old => s.chanreg.map fun rows => (rows.erase oldFolded).insert newFolded (record old.founder)) ∧
      after.readMarkers = movedMarkers oldFolded newFolded (markersOf oldFolded s.readMarkers) s.readMarkers ∧
      after.fx.history = s.fx.history.renameTarget oldFolded newFolded := by
  simp only [renameChannel, found, if_neg apart] at renamed
  split at renamed
  · cases renamed
  · rename_i free
    cases renamed
    refine ⟨free, ?_⟩
    obtain ⟨registered, rows, markers, fx⟩ := moveInSets_durable
      { s with channels := (s.channels.insert (s.fold newName) { channel with name := newName }).erase oldFolded }
      oldFolded (s.fold newName) { channel with name := newName }
    have channels := (moveInSets_rooms
      { s with channels := (s.channels.insert (s.fold newName) { channel with name := newName }).erase oldFolded }
      oldFolded (s.fold newName) { channel with name := newName }).2.2.2.1
    -- the records, markers and history move one after the other, each step leaving the rest
    generalize moveInSets { s with channels :=
      (s.channels.insert (s.fold newName) { channel with name := newName }).erase oldFolded }
      oldFolded (s.fold newName) { channel with name := newName } = moved at registered rows markers fx channels ⊢
    have live : moved.findChannel (s.fold newName) = some { channel with name := newName } := by
      rw [Tables.findChannel, channels, AList.lookup_erase_ne apart]
      exact AList.lookup_insert _
    obtain ⟨movedRegistered, movedRows, movedReadMarkers, movedFx⟩ := moveRegistration_durable
      (s := moved.emit fun fx => { fx with history := fx.history.renameTarget oldFolded (s.fold newName) })
      live oldFolded newName
    refine ⟨?_, ?_, ?_, ?_⟩
    · refine movedRegistered.trans ?_
      rw [emit_toTables, registered]
    · refine movedRows.trans ?_
      rw [emit_toTables, registered, rows]
    · rw [moveReadMarkers_markers, movedReadMarkers, emit_toTables, markers]
    · have history := congrArg Effects.history movedFx
      refine history.trans ?_
      rw [emit, fx]

end Server

/-! ## Names that are free -/

namespace Server

/-- What a rename may do to the state that outlives channels: it follows the channel, and nobody
else's changes. -/
structure RenameFaithful (s after : Server) (oldFolded newName : String) : Prop where
  unregistered : s.registeredChannels.lookup (s.fold newName) = none
  registration : after.registeredChannels.lookup (s.fold newName) =
    (s.registeredChannels.lookup oldFolded).map fun record => record.renamed (s.fold newName) newName
  history : after.fx.history.log.lookup (s.fold newName) = s.fx.history.log.lookup oldFolded
  markers : ∀ owner before,
    s.readMarkerGet owner oldFolded = some before ∨ s.readMarkerGet owner (s.fold newName) = some before →
      ∃ now, after.readMarkerGet owner (s.fold newName) = some now ∧ before ≤ now
  others : ∀ other, NulFree other → other ≠ oldFolded → other ≠ s.fold newName →
    after.registeredChannels.lookup other = s.registeredChannels.lookup other ∧
      after.chanreg.map (AList.lookup other) = s.chanreg.map (AList.lookup other) ∧
      after.fx.history.log.lookup other = s.fx.history.log.lookup other ∧
      ∀ owner, after.readMarkerGet owner other = s.readMarkerGet owner other

/-- A rename to another name is refused, or faithful. -/
def RenamesFaithfully (s : Server) (oldFolded newName : String) : Prop :=
  ∀ after, s.renameChannel oldFolded newName = .ok after → s.RenameFaithful after oldFolded newName

/-- Nothing is left under the new name that the rename would take or lose, and the record of the
channel is current. -/
structure NameFree (s : Server) (channel : ChannelEntry) (oldFolded newName : String) : Prop where
  unregistered : s.registeredChannels.lookup (s.fold newName) = none
  current : ∀ record, s.registeredChannels.lookup oldFolded = some record →
    record.renamed oldFolded channel.name = buildRegistration oldFolded record.founder channel
  history : s.fx.history.log.lookup oldFolded = none → s.fx.history.log.lookup (s.fold newName) = none
  markers : ∀ owner old new, s.readMarkerGet owner oldFolded = some old →
    s.readMarkerGet owner (s.fold newName) = some new → new ≤ old

theorem nulFree_fold {name : String} (clean : NulFree name) (mapping : CaseMapping) :
    NulFree (mapping.fold name) := by
  intro member
  rw [CaseMapping.fold, String.toList_ofList, List.mem_map] at member
  obtain ⟨c, inName, same⟩ := member
  exact clean ((mapping.foldChar_eq (by decide)).mp same ▸ inName)

/-- The rename goes through if the channel is live and the new name is not. -/
theorem renameChannel_isOk {s : Server} {oldFolded newName : String} {channel : ChannelEntry}
    (found : s.findChannel oldFolded = some channel) (apart : s.fold newName ≠ oldFolded)
    (free : s.fold newName ∉ s.channels) : ∃ after, s.renameChannel oldFolded newName = .ok after := by
  simp only [renameChannel, found, if_neg apart, if_neg free]
  exact ⟨_, rfl⟩

theorem renameTarget_log (history : History) (oldFolded newFolded other : String) :
    (history.renameTarget oldFolded newFolded).log.lookup other =
      if other = newFolded then (history.log.lookup oldFolded).or (history.log.lookup newFolded)
      else if other = oldFolded then none else history.log.lookup other := by
  rw [History.renameTarget, History.enqueue]
  cases ring : history.log.lookup oldFolded with
  | none =>
    dsimp only
    split
    · rename_i same
      rw [same, Option.none_or]
    · split
      · rename_i same
        rw [same, ring]
      · rfl
  | some ring =>
    dsimp only
    rw [Table.lookup_insert_if, Table.lookup_erase_if, Option.some_or]

/-- The record built from the renamed channel is the old one renamed if that was current. -/
theorem buildRegistration_renamed_iff {record : RegisteredChannel} {channel : ChannelEntry}
    {oldFolded newFolded newName : String} :
    buildRegistration newFolded record.founder { channel with name := newName } = record.renamed newFolded newName ↔
      record.renamed oldFolded channel.name = buildRegistration oldFolded record.founder channel := by
  simp only [buildRegistration, RegisteredChannel.renamed, RegisteredChannel.mk.injEq, true_and]
  tauto

/-- A rename carries over exactly what is the channel's own, and leaves the rest alone, if and
only if nothing is left under the new name. -/
theorem renamesFaithfully_iff {s : Server} {oldFolded newName : String} (oldClean : NulFree oldFolded)
    (newClean : NulFree newName) (apart : s.fold newName ≠ oldFolded) :
    s.RenamesFaithfully oldFolded newName ↔
      ∀ channel, s.findChannel oldFolded = some channel → s.fold newName ∉ s.channels →
        s.NameFree channel oldFolded newName := by
  have foldedClean : NulFree (s.fold newName) := nulFree_fold newClean s.info.casemapping
  constructor
  · intro faithful channel found free
    obtain ⟨after, renamed⟩ := renameChannel_isOk found apart free
    obtain ⟨-, registered, -, markers, history⟩ := renameChannel_durable found apart renamed
    have kept := faithful after renamed
    constructor
    case unregistered => exact kept.unregistered
    case current =>
      intro record recorded
      have carried := kept.registration
      rw [registered, recorded] at carried
      simp only [AList.lookup_insert, Option.map_some, Option.some.injEq] at carried
      exact buildRegistration_renamed_iff.mp carried
    case history =>
      intro noRing
      have carried := kept.history
      rw [history, renameTarget_log, if_pos rfl, noRing, Option.none_or] at carried
      exact carried
    case markers =>
      intro owner old new oldMarker newMarker
      -- the marker of the old name replaces the other one, so it must not be older
      obtain ⟨now, marked, later⟩ := kept.markers owner new (.inr newMarker)
      rw [Tables.readMarkerGet, markers, lookup_movedMarkers_moved oldClean foldedClean apart.symm
        (markersOf_nodup oldFolded s.readMarkers) _ (mem_markersOf.mpr oldMarker)] at marked
      cases marked
      exact later
  · intro nameFree after renamed
    cases found : s.findChannel oldFolded with
    | none => simp [renameChannel, found] at renamed
    | some channel =>
      obtain ⟨free, registered, rows, markers, history⟩ := renameChannel_durable found apart renamed
      obtain ⟨unregistered, current, noRing, older⟩ := nameFree channel found free
      constructor
      case unregistered => exact unregistered
      case registration =>
        rw [registered]
        cases recorded : s.registeredChannels.lookup oldFolded with
        | none => exact unregistered
        | some record =>
          simp only [AList.lookup_insert, Option.map_some, Option.some.injEq]
          exact buildRegistration_renamed_iff.mpr (current record recorded)
      case history =>
        rw [history, renameTarget_log, if_pos rfl]
        cases ring : s.fx.history.log.lookup oldFolded with
        | none => rw [Option.none_or, noRing ring]
        | some messages => rw [Option.some_or]
      case markers =>
        intro owner before marked
        rw [Tables.readMarkerGet, markers]
        cases moved : s.readMarkerGet owner oldFolded with
        | some old =>
          refine ⟨old, lookup_movedMarkers_moved oldClean foldedClean apart.symm
            (markersOf_nodup oldFolded s.readMarkers) _ (mem_markersOf.mpr moved), ?_⟩
          rcases marked with same | new
          · rw [moved] at same
            cases same
            exact UInt64.le_refl _
          · exact older owner old before moved new
        | none =>
          -- an owner without a marker under the old name keeps the one under the new
          have unmoved : owner ∉ (markersOf oldFolded s.readMarkers).map Prod.fst := by
            intro member
            obtain ⟨⟨named, value⟩, inMarkers, rfl⟩ := List.mem_map.mp member
            rw [Tables.readMarkerGet, mem_markersOf.mp inMarkers] at moved
            cases moved
          rw [lookup_movedMarkers_new oldClean foldedClean apart.symm _ _ owner unmoved]
          rcases marked with same | new
          · rw [moved] at same
            cases same
          · exact ⟨before, new, UInt64.le_refl _⟩
      case others =>
        intro other clean notOld notNew
        refine ⟨?_, ?_, ?_, ?_⟩
        · rw [registered]
          split
          · rfl
          · exact Table.lookup_moved_other notNew notOld _ _
        · rw [rows]
          split
          · rfl
          · rw [Option.map_map]
            refine congrArg (fun read => s.chanreg.map read) (funext fun table => ?_)
            exact Table.lookup_moved_other notNew notOld _ table
        · rw [history, renameTarget_log, if_neg notNew, if_neg notOld]
        · intro owner
          rw [Tables.readMarkerGet, Tables.readMarkerGet, markers,
            lookup_movedMarkers_other oldClean foldedClean _ _ owner clean notOld notNew]

/-- A live channel of `alpha.example`. -/
def denEntry : ChannelEntry :=
  { name := "#den", members := AList.singleton 1 ⟨true, false⟩, createdAt := 1000 }

/-- The channel is live and registered, and so is whatever else is given. -/
def withRegistrations (others : Table String RegisteredChannel) : Server :=
  { alpha with
    channels := AList.singleton "#den" denEntry
    registeredChannels := others.insert "#den" (buildRegistration "#den" "alice" denEntry) }

theorem renamesFaithfully_lounge : (withRegistrations ∅).RenamesFaithfully "#den" "#lounge" := by
  apply (renamesFaithfully_iff (by decide) (by decide) (by decide)).mpr
  intro channel found _
  have live : (withRegistrations ∅).findChannel "#den" = some denEntry := rfl
  rw [live] at found
  cases found
  constructor
  case unregistered => decide
  case current =>
    intro record recorded
    cases recorded
    rfl
  case history =>
    intro _
    rfl
  case markers =>
    intro owner old new marked
    cases marked

/-- A registered channel nobody is in. -/
def prizeRecord : RegisteredChannel :=
  buildRegistration "#prize" "bob" { denEntry with name := "#prize" }

/-- A channel takes the name and the registration of another one. -/
theorem rename_captures : ¬ ∀ (s : Server) (oldFolded newName : String), NulFree oldFolded → NulFree newName →
    s.fold newName ≠ oldFolded → s.RenamesFaithfully oldFolded newName := by
  intro faithful
  have live : (withRegistrations (AList.singleton "#prize" prizeRecord)).findChannel "#den" = some denEntry := rfl
  have apart : (withRegistrations (AList.singleton "#prize" prizeRecord)).fold "#prize" ≠ "#den" := by decide
  obtain ⟨after, renamed⟩ := renameChannel_isOk live apart (by decide)
  have kept := faithful _ "#den" "#prize" (by decide) (by decide) (by decide) after renamed
  exact absurd kept.unregistered (by decide)

end Server

end Ferrixd
