import Ferrixd.Command.Register
import Ferrixd.Command.Rename
import Ferrixd.Invariant.Settings

/-! # Registered channels

A registered channel has a record of its name, topic and modes, which is written when they change and
read when the channel is created again. -/

namespace Ferrixd

/-! ## From a channel to its record and back -/

/-- The flags of a record give back the boolean modes. -/
theorem setFlags_getFlags (modes fresh : ChannelModes) :
    boolModes.foldl (fun later mode => mode.set later
        (boolModes.foldl (fun flags mode => if mode.get modes then flags ||| mode.persistBit else flags) 0 &&&
          mode.persistBit != 0)) fresh =
      { modes with key := fresh.key, limit := fresh.limit } := by
  obtain ⟨noExternal, topicLock, moderated, inviteOnly, secret, key, limit⟩ := modes
  cases noExternal <;> cases topicLock <;> cases moderated <;> cases inviteOnly <;> cases secret <;>
    simp [boolModes] <;> decide

/-- A fresh channel seeded with the record of another one gets its topic and modes. -/
theorem seedFromRegistration_build {fresh : ChannelEntry} (blank : fresh.topic = none) (folded founder : String)
    (channel : ChannelEntry) :
    (seedFromRegistration fresh (buildRegistration folded founder channel)).topic = channel.topic ∧
      (seedFromRegistration fresh (buildRegistration folded founder channel)).modes = channel.modes := by
  constructor
  · simp only [seedFromRegistration, buildRegistration, blank]
    cases channel.topic <;> rfl
  · simp only [seedFromRegistration, buildRegistration, setFlags_getFlags]

/-- A record depends on the settings of the channel only. -/
theorem buildRegistration_congr {before after : ChannelEntry} (same : before.SameSettings after)
    (folded founder : String) : buildRegistration folded founder after = buildRegistration folded founder before := by
  simp only [buildRegistration, same.name, same.topic, same.modes]

/-- A channel created under a record built from another channel. -/
theorem freshChannel_settings {t : Tables} {folded founder : String} {channel : ChannelEntry}
    (registered : t.registeredChannels.lookup folded = some (buildRegistration folded founder channel))
    (display : String) :
    (t.freshChannel folded display).name = display ∧ (t.freshChannel folded display).topic = channel.topic ∧
      (t.freshChannel folded display).modes = channel.modes := by
  rw [Tables.freshChannel, registered]
  exact ⟨rfl, seedFromRegistration_build rfl _ _ _⟩

/-! ## The record of one channel -/

namespace Tables

/-- What is recorded of the channel filed under a key: the record is the one that its state gives, or
that some earlier state gave, and the store holds the same. -/
structure RecordedAt (t : Tables) (folded : String) : Prop where
  named : ∀ channel, t.findChannel folded = some channel → t.fold channel.name = folded
  current : ∀ record, t.registeredChannels.lookup folded = some record →
    ∀ channel, t.findChannel folded = some channel → record = buildRegistration folded record.founder channel
  built : ∀ record, t.registeredChannels.lookup folded = some record →
    ∃ channel : ChannelEntry, record = buildRegistration folded record.founder channel
  stored : ∀ rows, t.chanreg = some rows → rows.lookup folded = t.registeredChannels.lookup folded

def Recorded (t : Tables) : Prop :=
  ∀ folded, t.RecordedAt folded

/-- Nothing happened under this key. -/
structure SameAt (t t' : Tables) (folded : String) : Prop where
  info : t'.info = t.info
  channel : t'.findChannel folded = t.findChannel folded
  record : t'.registeredChannels.lookup folded = t.registeredChannels.lookup folded
  row : ∀ rows', t'.chanreg = some rows' →
    ∃ rows, t.chanreg = some rows ∧ rows'.lookup folded = rows.lookup folded

theorem RecordedAt.same {t t' : Tables} {folded : String} (inv : t.RecordedAt folded) (same : t.SameAt t' folded) :
    t'.RecordedAt folded := by
  constructor
  case named =>
    intro channel found
    rw [same.channel] at found
    rw [Tables.fold, same.info]
    exact inv.named channel found
  case current =>
    intro record registered channel found
    rw [same.record] at registered
    rw [same.channel] at found
    exact inv.current record registered channel found
  case built =>
    intro record registered
    rw [same.record] at registered
    exact inv.built record registered
  case stored =>
    intro rows' attached
    obtain ⟨rows, before, row⟩ := same.row rows' attached
    rw [row, same.record]
    exact inv.stored rows before

theorem Recorded.of_eq {t t' : Tables} (inv : t.Recorded) (same : t' = t) : t'.Recorded :=
  same ▸ inv

/-- What leaves the settings and the records alone. -/
theorem Recorded.keeps {t t' : Tables} (inv : t.Recorded) (kept : KeepsRecords t t') : t'.Recorded := by
  intro folded
  constructor
  case named =>
    intro after found
    obtain ⟨before, stored, same⟩ := kept.settings folded after found
    rw [Tables.fold, kept.info, same.name]
    exact (inv folded).named before stored
  case current =>
    intro record registered after found
    obtain ⟨before, stored, same⟩ := kept.settings folded after found
    rw [kept.records] at registered
    rw [buildRegistration_congr same]
    exact (inv folded).current record registered before stored
  case built =>
    intro record registered
    rw [kept.records] at registered
    exact (inv folded).built record registered
  case stored =>
    intro rows attached
    rw [kept.rows] at attached
    rw [kept.records]
    exact (inv folded).stored rows attached

/-- A record that is built from the live channel and written to the store as well. -/
theorem RecordedAt.written {t : Tables} {folded founder : String} {channel : ChannelEntry}
    {rows : Option (Table String RegisteredChannel)} (found : t.findChannel folded = some channel)
    (named : t.fold channel.name = folded) {records : Table String RegisteredChannel}
    (records' : t.registeredChannels = records.insert folded (buildRegistration folded founder channel))
    (rows' : t.chanreg = rows.map fun rows => rows.insert folded (buildRegistration folded founder channel)) :
    t.RecordedAt folded := by
  have registered : t.registeredChannels.lookup folded = some (buildRegistration folded founder channel) := by
    rw [records']
    exact AList.lookup_insert _
  constructor
  case named =>
    intro live here
    cases found.symm.trans here
    exact named
  case current =>
    intro record here live liveHere
    -- the record was just built from the live channel, and the row is the record
    cases registered.symm.trans here
    cases found.symm.trans liveHere
    rfl
  case built =>
    intro record here
    cases registered.symm.trans here
    exact ⟨channel, rfl⟩
  case stored =>
    intro now attached
    rw [rows'] at attached
    obtain ⟨before, -, rfl⟩ := Option.map_eq_some_iff.mp attached
    rw [registered]
    exact AList.lookup_insert _

/-! ## Writes -/

/-- A change of a channel that is not registered. -/
theorem Recorded.modified_unregistered {t : Tables} (inv : t.Recorded) {folded : String}
    (unregistered : folded ∉ t.registeredChannels) {change : ChannelEntry → ChannelEntry}
    (named : ∀ channel, t.findChannel folded = some channel → t.fold (change channel).name = folded) :
    { t with channels := t.channels.modify folded change }.Recorded := by
  intro other
  by_cases here : other = folded
  · subst here
    constructor
    case named =>
      intro after found
      replace found : (t.channels.modify other change).lookup other = some after := found
      rw [Table.lookup_modify, if_pos rfl] at found
      obtain ⟨before, stored, rfl⟩ := Option.map_eq_some_iff.mp found
      exact named before stored
    case current =>
      intro record registered
      exact absurd (AList.lookup_isSome.mp (Option.isSome_of_mem registered)) unregistered
    case built => exact (inv other).built
    case stored => exact (inv other).stored
  · refine (inv other).same ⟨rfl, ?_, rfl, fun rows attached => ⟨rows, attached, rfl⟩⟩
    show (t.channels.modify folded change).lookup other = t.channels.lookup other
    rw [Table.lookup_modify, if_neg here]

/-- A channel is changed and its record written. -/
theorem Recorded.write {t : Tables} (inv : t.Recorded) {folded : String} {channels : Table String ChannelEntry}
    {channel : ChannelEntry} (live : channels.lookup folded = some channel) (named : t.fold channel.name = folded)
    (others : ∀ other, other ≠ folded → channels.lookup other = t.channels.lookup other) (founder : String) :
    ({ t with
      channels
      chanreg := t.chanreg.map fun rows => rows.insert folded (buildRegistration folded founder channel)
      registeredChannels :=
        t.registeredChannels.insert folded (buildRegistration folded founder channel) } : Tables).Recorded := by
  intro other
  by_cases here : other = folded
  · subst here
    exact .written live named rfl rfl
  · refine (inv other).same ⟨rfl, others other here, AList.lookup_insert_ne here, fun rows' attached => ?_⟩
    obtain ⟨rows, before, rfl⟩ := Option.map_eq_some_iff.mp attached
    exact ⟨rows, before, AList.lookup_insert_ne here⟩

/-- A change of a channel that is stored if the channel is registered. -/
theorem Recorded.modified_persisted {t : Tables} (inv : t.Recorded) {folded : String}
    {change : ChannelEntry → ChannelEntry}
    (named : ∀ channel, t.findChannel folded = some channel → t.fold (change channel).name = folded) :
    ({ t with channels := t.channels.modify folded change }.persisted folded).Recorded := by
  cases registered : t.registeredChannels.lookup folded with
  | none =>
    have same : { t with channels := t.channels.modify folded change }.persisted folded =
        { t with channels := t.channels.modify folded change } := by
      simp only [persisted, registered]
    rw [same]
    exact inv.modified_unregistered (AList.lookup_eq_none.mp registered) named
  | some record =>
    cases found : t.findChannel folded with
    | none =>
      have absent : folded ∉ t.channels := AList.lookup_eq_none.mp found
      -- a record without a live channel stays as it is
      have same : { t with channels := t.channels.modify folded change }.persisted folded = t := by
        rw [Table.modify_of_notMem absent]
        show t.persisted folded = t
        simp only [persisted, registered, found]
      rw [same]
      exact inv
    | some channel =>
      have live : (t.channels.modify folded change).lookup folded = some (change channel) := by
        rw [Table.lookup_modify, if_pos rfl, show t.channels.lookup folded = some channel from found,
          Option.map_some]
      have others : ∀ other, other ≠ folded →
          (t.channels.modify folded change).lookup other = t.channels.lookup other := by
        intro other different
        rw [Table.lookup_modify, if_neg different]
      have written := inv.write live (named channel found) others record.founder
      simpa only [persisted, findChannel, registered, live] using written

/-- A name under which a first join creates no channel, or the one that is recorded. -/
def JoinsAsRecorded (t : Tables) (name : String) : Prop :=
  t.fold name ∉ t.channels → ∀ record, t.registeredChannels.lookup (t.fold name) = some record → record.name = name

/-- A channel created under its recorded name. -/
theorem Recorded.created {t : Tables} (inv : t.Recorded) {name : String} (absent : t.fold name ∉ t.channels)
    (asRecorded : t.JoinsAsRecorded name) {channel : ChannelEntry}
    (fresh : (t.freshChannel (t.fold name) name).SameSettings channel) :
    { t with channels := t.channels.insert (t.fold name) channel }.Recorded := by
  intro other
  by_cases here : other = t.fold name
  · subst here
    have live : (t.channels.insert (t.fold name) channel).lookup (t.fold name) = some channel := AList.lookup_insert _
    constructor
    case named =>
      intro after found
      cases live.symm.trans found
      rw [fresh.name, freshChannel]
      split <;> rfl
    case current =>
      intro record registered after found
      cases live.symm.trans found
      -- the channel is created from its record, which was built from an earlier channel
      obtain ⟨before, built⟩ := (inv (t.fold name)).built record registered
      have recordedName := asRecorded absent record registered
      have stored : t.registeredChannels.lookup (t.fold name) =
          some (buildRegistration (t.fold name) record.founder before) := by
        rw [← built]
        exact registered
      obtain ⟨display, topic, modes⟩ := freshChannel_settings stored name
      have beforeName : before.name = name := by
        rw [← recordedName, built]
        rfl
      have same : before.SameSettings channel :=
        ⟨by rw [fresh.name, display, beforeName], fresh.topic.trans topic, fresh.modes.trans modes⟩
      rw [buildRegistration_congr same]
      exact built
    case built => exact (inv (t.fold name)).built
    case stored => exact (inv (t.fold name)).stored
  · refine (inv other).same ⟨rfl, AList.lookup_insert_ne here, rfl, fun rows attached => ⟨rows, attached, rfl⟩⟩

/-! ## Renames -/

/-- A rename that leaves the record of the channel right: it changes the name of no registered channel
without moving it, and moves no other channel to a registered name. -/
def RenamesAsRecorded (t : Tables) (oldFolded newName : String) : Prop :=
  ∀ channel, t.findChannel oldFolded = some channel →
    if t.fold newName = oldFolded then oldFolded ∈ t.registeredChannels → newName = channel.name
    else t.fold newName ∈ t.channels ∨ oldFolded ∈ t.registeredChannels ∨ t.fold newName ∉ t.registeredChannels

/-- A key that is neither live nor registered. -/
theorem RecordedAt.vacant {t : Tables} {folded : String} (unregistered : t.registeredChannels.lookup folded = none)
    (named : ∀ channel, t.findChannel folded = some channel → t.fold channel.name = folded)
    (stored : ∀ rows, t.chanreg = some rows → rows.lookup folded = none) : t.RecordedAt folded := by
  constructor
  case named => exact named
  case current =>
    intro record registered
    rw [unregistered] at registered
    cases registered
  case built =>
    intro record registered
    rw [unregistered] at registered
    cases registered
  case stored =>
    intro rows attached
    rw [unregistered, stored rows attached]

end Tables

namespace Server

section Moved

variable {s s' : Server} {oldFolded newName : String} {channel : ChannelEntry}
  (found : s.findChannel oldFolded = some channel) (apart : s.fold newName ≠ oldFolded)
  (renamed : s.renameChannel oldFolded newName = .ok s')

include found apart renamed

/-- A channel that moves is filed under its new name only. -/
theorem moved_channels :
    s'.info = s.info ∧
      s'.channels = (s.channels.insert (s.fold newName) { channel with name := newName }).erase oldFolded := by
  obtain ⟨⟨-, -, info⟩, kept | ⟨live, stored, -, -, channels, -⟩⟩ := renameChannel_ok renamed
  · exact absurd kept.1 apart
  · cases found.symm.trans stored
    exact ⟨info, channels⟩

/-- Nothing is left under the old name. -/
theorem moved_old (inv : s.toTables.Recorded) : s'.RecordedAt oldFolded := by
  obtain ⟨-, records, rows, -, -⟩ := renameChannel_durable found apart renamed
  have gone : s'.findChannel oldFolded = none := by
    rw [Tables.findChannel, (moved_channels found apart renamed).2]
    exact AList.lookup_erase _ _
  refine .vacant ?_ (fun channel live => ?_) fun after attached => ?_
  · rw [records]
    cases registered : s.registeredChannels.lookup oldFolded with
    | none => exact registered
    | some record => exact Table.lookup_moved_old apart _ _
  · rw [gone] at live
    cases live
  · rw [rows] at attached
    cases registered : s.registeredChannels.lookup oldFolded with
    | none =>
      rw [registered] at attached
      exact ((inv oldFolded).stored after attached).trans registered
    | some record =>
      rw [registered] at attached
      obtain ⟨before, -, rfl⟩ := Option.map_eq_some_iff.mp attached
      exact Table.lookup_moved_old apart _ _

/-- Under the new name everything is written anew, if there is anything to write. -/
theorem moved_new (inv : s.toTables.Recorded)
    (safe : s.fold newName ∈ s.channels ∨ oldFolded ∈ s.registeredChannels ∨
      s.fold newName ∉ s.registeredChannels) : s'.RecordedAt (s.fold newName) := by
  obtain ⟨free, records, rows, -, -⟩ := renameChannel_durable found apart renamed
  obtain ⟨info, channels⟩ := moved_channels found apart renamed
  have fold : s'.fold = s.fold := by
    funext name
    rw [Tables.fold, Tables.fold, info]
  have arrived : s'.findChannel (s.fold newName) = some { channel with name := newName } := by
    rw [Tables.findChannel, channels, AList.lookup_erase_ne apart]
    exact AList.lookup_insert _
  cases registered : s.registeredChannels.lookup oldFolded with
  | none =>
    rw [registered] at records rows
    have unregistered : s.registeredChannels.lookup (s.fold newName) = none := by
      rcases safe with taken | moved | unregistered
      · exact absurd taken free
      · exact absurd moved (AList.lookup_eq_none.mp registered)
      · exact AList.lookup_eq_none.mpr unregistered
    refine .vacant ?_ (fun channel live => ?_) fun after attached => ?_
    · rw [records]
      exact unregistered
    · cases arrived.symm.trans live
      rw [fold]
    · rw [rows] at attached
      exact ((inv (s.fold newName)).stored after attached).trans unregistered
  | some record =>
    rw [registered] at records rows
    have written : s'.chanreg = (s.chanreg.map (AList.erase oldFolded)).map fun rows =>
        rows.insert (s.fold newName)
          (buildRegistration (s.fold newName) record.founder { channel with name := newName }) := by
      rw [rows, Option.map_map]
      rfl
    exact .written arrived (by rw [fold]) records written

/-- Every other name keeps what it had. -/
theorem moved_other {other : String} (old : other ≠ oldFolded) (new : other ≠ s.fold newName) :
    s.SameAt s'.toTables other := by
  obtain ⟨-, records, rows, -, -⟩ := renameChannel_durable found apart renamed
  obtain ⟨info, channels⟩ := moved_channels found apart renamed
  refine ⟨info, ?_, ?_, fun after attached => ?_⟩
  · rw [Tables.findChannel, channels, AList.lookup_erase_ne old]
    exact AList.lookup_insert_ne new
  · rw [records]
    cases s.registeredChannels.lookup oldFolded with
    | none => rfl
    | some record => exact Table.lookup_moved_other new old _ _
  · rw [rows] at attached
    cases registered : s.registeredChannels.lookup oldFolded with
    | none =>
      rw [registered] at attached
      exact ⟨after, attached, rfl⟩
    | some record =>
      rw [registered] at attached
      obtain ⟨before, stored, rfl⟩ := Option.map_eq_some_iff.mp attached
      exact ⟨before, stored, Table.lookup_moved_other new old _ _⟩

end Moved

theorem renameChannel_recorded {s s' : Server} (inv : s.toTables.Recorded) {oldFolded newName : String}
    (asRecorded : s.RenamesAsRecorded oldFolded newName) (renamed : s.renameChannel oldFolded newName = .ok s') :
    s'.toTables.Recorded := by
  cases found : s.findChannel oldFolded with
  | none => simp [renameChannel, found] at renamed
  | some channel =>
    have safe := asRecorded channel found
    -- the name changes its case only, or the channel moves
    by_cases sameFold : s.fold newName = oldFolded
    · rw [if_pos sameFold] at safe
      simp only [renameChannel, found, if_pos sameFold, Except.ok.injEq] at renamed
      subst renamed
      by_cases registered : oldFolded ∈ s.registeredChannels
      · have unchanged : s.channels.modify oldFolded (fun channel => { channel with name := newName }) = s.channels := by
          refine Table.modify_eq_self fun before stored => ?_
          cases found.symm.trans stored
          rw [safe registered]
        rw [modifyChannel_toTables, unchanged]
        exact inv
      · exact inv.modified_unregistered registered fun _ _ => sameFold
    · rw [if_neg sameFold] at safe
      intro other
      by_cases old : other = oldFolded
      · rw [old]
        exact moved_old found sameFold renamed inv
      by_cases new : other = s.fold newName
      · rw [new]
        exact moved_new found sameFold renamed inv safe
      exact (inv other).same (moved_other found sameFold renamed old new)

end Server

/-! ## Mode changes that change nothing -/

/-- No mode set: what a channel that loses to an older one is left with. -/
def ChannelModes.bare : ChannelModes := ⟨false, false, false, false, false, none, none⟩

/-- The list of a channel that a letter stands for. -/
def ChannelEntry.listOf (channel : ChannelEntry) (letter : Char) : List Ban :=
  if letter = 'b' then channel.bans else if letter = 'e' then channel.exceptions else channel.invex

theorem ModeAccum.push_flags (accum : ModeAccum) (adding : Bool) (letter : Char) :
    (accum.push adding letter).flags ≠ "" := by
  intro empty
  have chars := congrArg String.toList empty
  simp [ModeAccum.push] at chars

/-- A list that nothing was added to or removed from. -/
theorem applyListMode_idle {list : List Ban} {adding : Bool} {mask setBy : String} {setAt : UInt64}
    (idle : (applyListMode list adding mask setBy setAt).2 = false) :
    (applyListMode list adding mask setBy setAt).1 = list := by
  cases adding with
  | true =>
    simp only [applyListMode, if_true] at idle ⊢
    split
    · rename_i room
      simp [room] at idle
    · rfl
  | false =>
    simp only [applyListMode, Bool.false_eq_true, if_false, bne_eq_false_iff_eq] at idle ⊢
    exact List.filter_eq_self.mpr (List.length_filter_eq_length_iff.mp idle)

namespace ModeStep

/-- Whether a step has an effect on a channel. -/
def applies (channel : ChannelEntry) : ModeStep → Bool
  | bool letter _ => boolModes.any fun mode => mode.letter = letter
  | status _ _ (.localClient id) _ _ => id ∈ channel.members
  | status _ _ (.remoteUser uid) _ _ => uid ∈ channel.remoteMembers
  | key _ _ => true
  | limit _ _ => true
  | list letter adding mask => (applyListMode (channel.listOf letter) adding mask "" 0).2

variable {setter : String} {now : UInt64} {channel : ChannelEntry} {echo : ModeEcho} {step : ModeStep}

/-- Who sets a mask, and when, does not decide whether it is set. -/
theorem applyListMode_applied (list : List Ban) (adding : Bool) (mask setBy : String) (setAt : UInt64) :
    (applyListMode list adding mask setBy setAt).2 = (applyListMode list adding mask "" 0).2 := by
  cases adding with
  | true =>
    simp only [applyListMode, if_true]
    split <;> rfl
  | false => rfl

theorem apply_idle (idle : step.applies channel = false) : apply setter now (channel, echo) step = (channel, echo) := by
  cases step with
  | bool letter adding =>
    -- only a letter of no mode, a member who is not here or a mask that is no change
    have unknown : boolModes.find? (fun mode => mode.letter = letter) = none := by
      rw [List.find?_eq_none]
      exact fun mode member => by simpa using List.any_eq_false.mp idle mode member
    simp only [apply, unknown]
  | status letter adding target nick uid =>
    cases target with
    | localClient id =>
      have absent : id ∉ channel.members := of_decide_eq_false idle
      simp only [apply, if_neg absent]
    | remoteUser uid =>
      have absent : uid ∉ channel.remoteMembers := of_decide_eq_false idle
      simp only [apply, if_neg absent]
  | key adding key => cases idle
  | limit adding limit => cases idle
  | list letter adding mask =>
    replace idle : (applyListMode (channel.listOf letter) adding mask setter now).2 = false := by
      rw [applyListMode_applied]
      exact idle
    have same := applyListMode_idle idle
    simp only [ChannelEntry.listOf] at idle same
    simp only [apply, idle, same, Bool.false_eq_true, if_false]
    split
    · rfl
    · split <;> rfl

theorem apply_applies (effective : step.applies channel = true) :
    (apply setter now (channel, echo) step).2.accum.flags ≠ "" := by
  cases step with
  | bool letter adding =>
    obtain ⟨mode, member, same⟩ := List.any_eq_true.mp effective
    cases known : boolModes.find? fun mode => mode.letter = letter with
    | none => exact absurd same (List.find?_eq_none.mp known mode member)
    | some mode =>
      simp only [apply, known]
      exact ModeAccum.push_flags _ _ _
  | status letter adding target nick uid =>
    cases target with
    | localClient id =>
      have member : id ∈ channel.members := of_decide_eq_true effective
      simp only [apply, if_pos member]
      exact ModeAccum.push_flags _ _ _
    | remoteUser uid =>
      have member : uid ∈ channel.remoteMembers := of_decide_eq_true effective
      simp only [apply, if_pos member]
      exact ModeAccum.push_flags _ _ _
  | key adding key => exact ModeAccum.push_flags _ _ _
  | limit adding limit => exact ModeAccum.push_flags _ _ _
  | list letter adding mask =>
    replace effective : (applyListMode (channel.listOf letter) adding mask setter now).2 = true := by
      rw [applyListMode_applied]
      exact effective
    simp only [ChannelEntry.listOf] at effective
    simp only [apply, effective, if_true]
    exact ModeAccum.push_flags _ _ _

/-- Once something applied, the flags are not empty any more. -/
theorem apply_flags (some : echo.accum.flags ≠ "") : (apply setter now (channel, echo) step).2.accum.flags ≠ "" := by
  cases effective : step.applies channel with
  | true => exact apply_applies effective
  | false =>
    rw [apply_idle effective]
    exact some

/-- Steps without effect one by one have none together; otherwise something applies. -/
theorem applyAll_idle_or (steps : List ModeStep) (setter : String) (now : UInt64) (channel : ChannelEntry) :
    ((∀ step ∈ steps, step.applies channel = false) ∧ applyAll steps setter now channel = (channel, {})) ∨
      (∃ step ∈ steps, step.applies channel = true) ∧ (applyAll steps setter now channel).2.accum.flags ≠ "" := by
  rw [applyAll]
  generalize ({} : ModeEcho) = echo
  induction steps with
  | nil => exact .inl ⟨fun _ member => absurd member List.not_mem_nil, rfl⟩
  | cons step steps ih =>
    cases effective : step.applies channel with
    | true =>
      refine .inr ⟨⟨step, List.mem_cons_self, effective⟩, ?_⟩
      rw [List.foldl_cons]
      refine foldl_invariant (I := fun state : ChannelEntry × ModeEcho => state.2.accum.flags ≠ "") _ _ ?_ _
        (apply_applies effective)
      rintro ⟨later, echo⟩ step - some
      exact apply_flags some
    | false =>
      rw [List.foldl_cons, apply_idle effective]
      rcases ih with ⟨idle, same⟩ | ⟨⟨other, member, later⟩, flags⟩
      · exact .inl ⟨List.forall_mem_cons.mpr ⟨effective, idle⟩, same⟩
      · exact .inr ⟨⟨other, List.mem_cons_of_mem _ member, later⟩, flags⟩

end ModeStep

namespace ModeRun

/-- A mode command keeps the name and the topic, and the modes as long as nothing has applied. -/
structure Tracks (channel : ChannelEntry) (run : ModeRun) : Prop where
  name : run.channel.name = channel.name
  topic : run.channel.topic = channel.topic
  modes : run.echo.accum.flags = "" → run.channel.modes = channel.modes

namespace Tracks

variable {channel : ChannelEntry} {run : ModeRun}

/-- A change that is announced may be one of the modes. -/
theorem pushed (tracks : run.Tracks channel) {changed : ChannelEntry} {rest shown wire : List String} {adding : Bool}
    {sign : Bool} {letter : Char} {replies : List (Nat × List String × String)} (name : changed.name = run.channel.name)
    (topic : changed.topic = run.channel.topic) :
    Tracks channel ⟨changed, rest, adding, run.echo.push sign letter shown wire, replies⟩ :=
  ⟨name.trans tracks.name, topic.trans tracks.topic,
    fun empty => absurd empty (ModeAccum.push_flags run.echo.accum sign letter)⟩

theorem status (tracks : run.Tracks channel) (t : Tables) (display : String) (letter : Char) :
    Tracks channel (run.status t display letter) := by
  rw [ModeRun.status]
  split
  · exact tracks
  · dsimp only
    split
    · split
      · exact tracks.pushed rfl rfl
      · exact ⟨tracks.name, tracks.topic, tracks.modes⟩
    · split
      · split
        · exact tracks.pushed rfl rfl
        · exact ⟨tracks.name, tracks.topic, tracks.modes⟩
      · exact ⟨tracks.name, tracks.topic, tracks.modes⟩

theorem key (tracks : run.Tracks channel) : Tracks channel run.key := by
  rw [ModeRun.key]
  split
  · split
    · exact tracks
    · exact tracks.pushed rfl rfl
  · exact tracks.pushed rfl rfl

theorem limit (tracks : run.Tracks channel) : Tracks channel run.limit := by
  rw [ModeRun.limit]
  split
  · split
    · exact tracks
    · dsimp only
      split
      · exact tracks.pushed rfl rfl
      · exact ⟨tracks.name, tracks.topic, tracks.modes⟩
  · exact tracks.pushed rfl rfl

theorem list (tracks : run.Tracks channel) (setBy : String) (setAt : UInt64) (letter : Char) :
    Tracks channel (run.list setBy setAt letter) := by
  rw [ModeRun.list]
  split
  · exact tracks
  · dsimp only
    -- the lists are no settings, whichever of them changes
    have settings : ∀ changed : List Ban, run.channel.SameSettings
        (if letter = 'b' then { run.channel with bans := changed }
        else if letter = 'e' then { run.channel with exceptions := changed }
        else { run.channel with invex := changed }) := by
      intro changed
      split
      · exact ⟨rfl, rfl, rfl⟩
      · split <;> exact ⟨rfl, rfl, rfl⟩
    generalize applyListMode _ _ _ _ _ = result
    have kept := settings result.1
    generalize (if letter = 'b' then { run.channel with bans := result.1 }
      else if letter = 'e' then { run.channel with exceptions := result.1 }
      else { run.channel with invex := result.1 }) = changed at kept ⊢
    cases result.2 with
    | true => exact tracks.pushed kept.name kept.topic
    | false =>
      exact ⟨kept.name.trans tracks.name, kept.topic.trans tracks.topic,
        fun empty => kept.modes.trans (tracks.modes empty)⟩

theorem flag (tracks : run.Tracks channel) (letter : Char) : Tracks channel (run.flag letter) := by
  rw [ModeRun.flag]
  split
  · exact tracks.pushed rfl rfl
  · exact ⟨tracks.name, tracks.topic, tracks.modes⟩

theorem letter (tracks : run.Tracks channel) (t : Tables) (id : UInt64) (display : String) (c : Char) :
    Tracks channel (run.letter t id display c) := by
  rw [ModeRun.letter]
  split
  · exact ⟨tracks.name, tracks.topic, tracks.modes⟩
  split
  · exact ⟨tracks.name, tracks.topic, tracks.modes⟩
  split
  · exact tracks.status t display c
  split
  · exact tracks.key
  split
  · exact tracks.limit
  split
  · exact tracks.list _ _ c
  · exact tracks.flag c

theorem letters (tracks : run.Tracks channel) (t : Tables) (id : UInt64) (display : String) (flags : List Char) :
    Tracks channel (ModeRun.letters t id display flags run) := by
  induction flags generalizing run with
  | nil => exact tracks
  | cons c flags ih =>
    rw [ModeRun.letters]
    split
    · exact tracks
    · exact ih (tracks.letter t id display c)

end Tracks

end ModeRun

/-! ## Mode changes -/

namespace Server

variable {s : Server}

/-- A mode command is refused or only asks, or is worked through. -/
theorem channelMode_cases (s : Server) (id : UInt64) (target : String) (args : List String) :
    (s.channelMode id target args).toTables = s.toTables ∨
      ∃ channel modestr params, s.findChannel (s.fold target) = some channel ∧
        s.channelMode id target args = s.applyChannelModes id (s.fold target) channel modestr params := by
  rw [channelMode]
  cases found : s.findChannel (s.fold target) with
  | none => exact .inl rfl
  | some channel =>
    cases args with
    | nil => exact .inl rfl
    | cons modestr params =>
      dsimp only
      split
      · -- a query of lists only answers
        refine .inl ?_
        refine foldl_invariant (I := fun later : Server => later.toTables = s.toTables) _ _ ?_ s rfl
        intro later which _ same
        rw [sendListMode]
        refine (numeric_toTables _ _ _ _ _).trans ?_
        refine foldl_invariant (I := fun later : Server => later.toTables = s.toTables) _ _ ?_ later same
        exact fun later ban _ same => same
      · cases channel.members.lookup id with
        | none => exact .inl rfl
        | some status =>
          dsimp only
          split
          · exact .inl rfl
          · exact .inr ⟨channel, modestr, params, rfl, rfl⟩

theorem channelMode_recorded (inv : s.toTables.Recorded) (id : UInt64) (target : String) (args : List String) :
    (s.channelMode id target args).toTables.Recorded := by
  obtain same | ⟨channel, modestr, params, found, worked⟩ := s.channelMode_cases id target args
  · exact inv.of_eq same
  have here : s.fold channel.name = s.fold target := (inv _).named channel found
  have started : ModeRun.Tracks channel { channel, rest := params } := ⟨rfl, rfl, fun _ => rfl⟩
  have tracks := started.letters s.toTables id channel.name modestr.toList
  rw [worked, applyChannelModes_toTables]
  dsimp only
  generalize ModeRun.letters s.toTables id channel.name modestr.toList { channel, rest := params } = run at tracks
  split
  · rename_i empty
    refine inv.keeps ⟨rfl, rfl, rfl, .modify fun before stored => ?_⟩
    cases found.symm.trans stored
    exact ⟨tracks.name, tracks.topic, tracks.modes empty⟩
  · rw [here]
    refine inv.modified_persisted fun _ _ => ?_
    rw [tracks.name, here]

end Server

namespace Tables

/-- A registered channel has no modes to lose to an older one. -/
def KeepsModes (t : Tables) (channelName : String) (peerTs : UInt64) : Prop :=
  ∀ channel, t.findChannel (t.fold channelName) = some channel → t.fold channelName ∈ t.registeredChannels →
    channel.tsLosesTo peerTs = true → channel.modes = .bare

/-- A mode change that costs a registered channel its modes has an effect of its own. -/
def ModesAsRecorded (t : Tables) (channelName : String) (peerTs : UInt64) (flags : String) (args : List String) :
    Prop :=
  t.KeepsModes channelName peerTs ∨
    ∀ channel, t.findChannel (t.fold channelName) = some channel →
      ∃ step ∈ modeSteps t.statusStep flags.toList true args, step.applies (channel.blanked peerTs) = true

theorem reconciled_sameSettings {t : Tables} {channelName : String} {peerTs : UInt64} {channel : ChannelEntry}
    (keeps : t.KeepsModes channelName peerTs) (found : t.findChannel (t.fold channelName) = some channel)
    (registered : t.fold channelName ∈ t.registeredChannels) : channel.SameSettings (channel.reconciled peerTs) := by
  rw [ChannelEntry.reconciled]
  split
  · rename_i loses
    exact ⟨rfl, rfl, (keeps channel found registered loses).symm⟩
  · exact .refl channel

end Tables

namespace Server

variable {s : Server}

/-- A mode change over a link is stored if anything of it applied. -/
theorem applyModeChange_recorded (inv : s.toTables.Recorded) {channelName source : String} {peerTs : UInt64}
    {flags : String} {args : List String} (asRecorded : s.ModesAsRecorded channelName peerTs flags args) :
    (s.applyModeChange channelName source peerTs flags args).1.toTables.Recorded := by
  cases found : s.findChannel (s.fold channelName) with
  | none =>
    rw [applyModeChange_unknown found]
    exact inv
  | some channel =>
    rw [applyModeChange_toTables found]
    dsimp only
    split
    · exact inv
    have name : s.fold (channel.reconciled peerTs).name = s.fold channelName := by
      rw [(channel.reconciled_keepsLocals peerTs).2]
      exact (inv _).named channel found
    obtain ⟨idle, same⟩ | ⟨-, some⟩ := ModeStep.applyAll_idle_or (modeSteps s.statusStep flags.toList true args)
      (s.remoteSourceNick source) s.nowUnix (channel.reconciled peerTs)
    · -- nothing is written for modes that change nothing, even if the timestamp does
      rw [same, if_pos rfl]
      by_cases registered : s.fold channelName ∈ s.registeredChannels
      · refine inv.keeps ⟨rfl, rfl, rfl, .modify fun before stored => ?_⟩
        cases found.symm.trans stored
        rcases asRecorded with keeps | effective
        · exact Tables.reconciled_sameSettings keeps found registered
        · by_cases loses : channel.tsLosesTo peerTs = true
          · obtain ⟨step, member, applies⟩ := effective channel found
            have blank : channel.reconciled peerTs = channel.blanked peerTs := by
              rw [ChannelEntry.reconciled, if_pos loses]
            rw [blank] at idle
            rw [idle step member] at applies
            cases applies
          · rw [ChannelEntry.reconciled, if_neg loses]
            exact .refl channel
      · exact inv.modified_unregistered registered fun _ _ => name
    · rw [if_neg some]
      refine inv.modified_persisted fun _ _ => ?_
      rw [(ModeStep.applyAll_sameRoom _ _ _ _).name]
      exact name

theorem remoteTopic_recorded (inv : s.toTables.Recorded) (channelName source setBy : String) (setAt : UInt64)
    (text : String) : (s.remoteTopic channelName source setBy setAt text).toTables.Recorded := by
  rw [remoteTopic_toTables]
  split
  · exact inv.modified_persisted fun channel found => (inv _).named channel found
  · exact inv

/-- A join over a link may create the channel, or cost it its modes. -/
theorem remoteJoin_recorded (inv : s.toTables.Recorded) {channelName : String} {peerTs : UInt64}
    (asRecorded : s.JoinsAsRecorded channelName) (keeps : s.KeepsModes channelName peerTs) (uid : String)
    (status : MemberPrefix) : (s.remoteJoin channelName uid status peerTs).toTables.Recorded := by
  cases known : s.remoteUserByUid uid with
  | none =>
    rw [remoteJoin_unknown known]
    exact inv
  | some user =>
    rw [remoteJoin_toTables known]
    by_cases present : s.fold channelName ∈ s.channels
    · simp only [Tables.joined, if_pos present]
      -- reconciling may blank the modes of a registered channel, which is not written
      by_cases registered : s.fold channelName ∈ s.registeredChannels
      · refine inv.keeps ⟨rfl, rfl, rfl, .modify fun channel found => ?_⟩
        have kept := Tables.reconciled_sameSettings keeps found registered
        exact ⟨kept.name, kept.topic, kept.modes⟩
      · have changed : ({ s.toTables with channels := s.channels.modify (s.fold channelName) fun channel =>
            (channel.reconciled peerTs).addRemote uid user status peerTs } : Tables).Recorded := by
          refine inv.modified_unregistered registered fun channel found => ?_
          show s.fold (channel.reconciled peerTs).name = _
          rw [(channel.reconciled_keepsLocals peerTs).2]
          exact (inv _).named channel found
        exact changed.keeps ⟨rfl, rfl, rfl, .refl _⟩
    · simp only [Tables.joined, if_neg present]
      have fresh : (s.freshChannel (s.fold channelName) channelName).SameSettings
          (((s.freshChannel (s.fold channelName) channelName).dated peerTs).addRemote uid user status peerTs) := by
        rw [ChannelEntry.dated]
        split <;> exact ⟨rfl, rfl, rfl⟩
      exact (inv.created present asRecorded fresh).keeps ⟨rfl, rfl, rfl, .refl _⟩

theorem beginFlight_recorded (inv : s.toTables.Recorded) {name : String} (asRecorded : s.JoinsAsRecorded name)
    (id : UInt64) : (s.beginFlight id name).1.toTables.Recorded := by
  rw [beginFlight]
  dsimp only
  cases found : s.findChannel (s.fold name) with
  | some channel =>
    rw [beginJoin_existing found]
    exact inv.keeps ⟨rfl, rfl, rfl, .modify fun _ _ => ⟨rfl, rfl, rfl⟩⟩
  | none =>
    rw [beginJoin_new found]
    exact inv.created (AList.lookup_eq_none.mp found) asRecorded ⟨rfl, rfl, rfl⟩

end Server

end Ferrixd
