import Ferrixd.State.Session

/-! # REGISTER

The owner of an account registers a channel, whose topic and modes then outlive it: they are kept in
a record, and in a row of the store that is read when the server starts. -/

namespace Ferrixd

/-! ## Rows -/

/-- A row of the `channels` table; its integers are signed. -/
structure ChannelRow where
  folded : String
  name : String
  founder : String
  topicText : Option String
  topicSetby : String
  topicSetat : Int64
  modeFlags : Int64
  key : Option String
  lim : Option Int64

/-- The row that is written for a record. -/
def RegisteredChannel.upsert (record : RegisteredChannel) : ChannelRow where
  folded := record.folded
  name := record.name
  founder := record.founder
  topicText := record.topicText
  topicSetby := record.topicSetby
  topicSetat := record.topicSetat.toInt64
  modeFlags := record.modeFlags.toUInt64.toInt64
  key := record.key
  lim := record.limit.map UInt64.toInt64

/-- The record that is read from a row. -/
def ChannelRow.load (row : ChannelRow) : RegisteredChannel where
  folded := row.folded
  name := row.name
  founder := row.founder
  topicText := row.topicText
  topicSetby := row.topicSetby
  topicSetat := row.topicSetat.toUInt64
  modeFlags := row.modeFlags.toUInt64.toUInt8
  key := row.key
  limit := row.lim.map Int64.toUInt64

/-- What is written is read back, whatever the timestamp, the flags and the limit. -/
theorem RegisteredChannel.load_upsert (record : RegisteredChannel) : record.upsert.load = record := by
  obtain ⟨folded, name, founder, topicText, topicSetby, topicSetat, modeFlags, key, limit⟩ := record
  simp only [upsert, ChannelRow.load, UInt64.toUInt64_toInt64, UInt8.toUInt8_toUInt64, Option.map_map]
  cases limit <;> rfl

/-! ## Registration -/

/-- The record of a channel that is registered before anyone is in it: `+nt`. -/
def blankRecord (folded founder : String) : RegisteredChannel where
  folded := folded
  name := folded
  founder := founder
  topicText := none
  topicSetby := ""
  topicSetat := 0
  modeFlags := 1 ||| 2
  key := none
  limit := none

namespace Server

/-- Register a channel to `founder` with its current topic and modes; `false` if it is registered. -/
def registerChannel (s : Server) (folded founder : String) : Server × Bool :=
  if folded ∈ s.registeredChannels then (s, false)
  else
    let record := match s.findChannel folded with
      | some channel => buildRegistration folded founder channel
      | none => blankRecord folded founder
    ({ s with
      chanreg := s.chanreg.map fun rows => rows.insert folded record
      registeredChannels := s.registeredChannels.insert folded record }, true)

/-- `REGISTER` of a channel, by one of its operators who is logged in. -/
def registerChannelCmd (s : Server) (id : UInt64) (name : String) : Server :=
  match (s.entry id).account with
  | none => s.fail id "REGISTER" "ACCOUNT_REQUIRED" [name] "You must be logged in to register a channel"
  | some account =>
    let folded := s.fold name
    match s.findChannel folded with
    | none => s.fail id "REGISTER" "INVALID_CHANNEL" [name] "No such channel"
    | some channel =>
      -- who is no member is no operator
      if !(channel.members.lookup id).any (·.op) then
        s.fail id "REGISTER" "CHANOPRIVSNEEDED" [channel.name] "You must be a channel operator to register it"
      else match s.registerChannel folded account with
        | (s, false) => s.fail id "REGISTER" "ALREADY_REGISTERED" [channel.name] "Channel is already registered"
        | (s, true) =>
          s.send id (Line.server s.info.name |>.command "REGISTER" |>.param "SUCCESS" |>.param channel.name
            |>.trailing ("Channel registered to " ++ account) |>.build)

/-- Attach a store with these rows and load the registrations in it. -/
def attachChanreg (s : Server) (rows : Table String RegisteredChannel) : Server :=
  let records := rows.values.map fun record => record.upsert.load
  { s with
    registeredChannels := records.foldl (fun records record => records.insert record.folded record)
      s.registeredChannels
    chanreg := s.chanreg.or (some rows) }

/-! ## What these do to the tables -/

/-- A live channel that was not registered gets a record of its topic and modes. -/
theorem registerChannelCmd_cases (s : Server) (id : UInt64) (name : String) :
    (s.registerChannelCmd id name).toTables = s.toTables ∨
      ∃ channel founder, s.findChannel (s.fold name) = some channel ∧ s.fold name ∉ s.registeredChannels ∧
        (s.registerChannelCmd id name).toTables = { s.toTables with
          chanreg := s.chanreg.map fun rows =>
            rows.insert (s.fold name) (buildRegistration (s.fold name) founder channel)
          registeredChannels :=
            s.registeredChannels.insert (s.fold name) (buildRegistration (s.fold name) founder channel) } := by
  rw [registerChannelCmd]
  cases (s.entry id).account with
  | none => exact .inl (fail_toTables _ _ _ _ _ _)
  | some account =>
    dsimp only
    cases found : s.findChannel (s.fold name) with
    | none => exact .inl (fail_toTables _ _ _ _ _ _)
    | some channel =>
      dsimp only
      split
      · exact .inl (fail_toTables _ _ _ _ _ _)
      · rw [registerChannel]
        by_cases registered : s.fold name ∈ s.registeredChannels
        · rw [if_pos registered]
          exact .inl (fail_toTables _ _ _ _ _ _)
        · rw [if_neg registered, found]
          exact .inr ⟨channel, account, rfl, registered, rfl⟩

/-- Rows filed under the names in them are loaded under these names. -/
theorem attachChanreg_lookup {rows : Table String RegisteredChannel}
    (filed : ∀ folded record, rows.lookup folded = some record → record.folded = folded) {s : Server}
    (unregistered : s.registeredChannels = ∅) (folded : String) :
    (s.attachChanreg rows).registeredChannels.lookup folded = rows.lookup folded := by
  have loaded : rows.values.map (fun record => record.upsert.load) = rows.values := by
    simp only [RegisteredChannel.load_upsert, List.map_id']
  show ((rows.values.map fun record => record.upsert.load).foldl
    (fun records record => records.insert record.folded record) s.registeredChannels).lookup folded = _
  rw [loaded, unregistered, Table.values, List.foldl_map]
  have sameKeys : rows.entries.foldl (fun records row => records.insert row.2.folded row.2)
        (∅ : Table String RegisteredChannel) =
      rows.entries.foldl (fun records row => records.insert row.1 row.2) ∅ := by
    refine List.foldl_ext _ _ _ fun records row member => ?_
    rw [filed row.1 row.2 (Table.mem_entries_iff.mp member)]
  rw [sameKeys, Table.lookup_foldl_insert]
  exact Option.or_none

end Server

end Ferrixd
