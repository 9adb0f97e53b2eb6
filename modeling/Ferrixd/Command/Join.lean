import Ferrixd.State.Session

/-! # JOIN

Which clients a channel lets in, and what a refused attempt leaves behind. -/

namespace Ferrixd

/-! ## Joins with plugins -/

/-- What the plugins make of a join: what they did, and why they block it, if they do. -/
structure JoinOutcome where
  actions : Server → Server := id
  block : Option String := none

/-- How an attempt to join ends. -/
inductive JoinExit where
  | already
  | refused
  | entered
  deriving DecidableEq

namespace Server

/-- `joinOne` on a server with plugins, and which of its exits it takes. -/
def joinOneWith (onJoin : Option (String → String → JoinOutcome)) (s : Server) (id : UInt64) (name : String)
    (key : Option String) : Server × JoinExit :=
  if !isValidChannel name then (s.numeric id errNoSuchChannel [name] (some "No such channel"), .refused)
  else
    let folded := s.fold name
    let entry := s.entry id
    if entry.channels.contains folded then (s, .already)
    else if !entry.oper && s.info.maxChannels ≤ entry.channels.length then
      (s.numeric id errTooManyChannels [name] (some "You have joined too many channels"), .refused)
    else
      let (s, created) := s.beginJoin folded name
      match s.findChannel folded with
      | none => (s, .already)
      | some channel =>
        let foldedNick := s.fold entry.nick
        match if created then none else channel.joinRejection entry foldedNick key with
        | some (code, text) => ((s.numeric id code [channel.name] (some text)).endJoin folded, .refused)
        | none =>
          -- the invitation is used up before the plugins are asked
          let s := if created then s
            else s.modifyChannel folded fun channel =>
              { channel with invited := channel.invited.filter fun nick => nick != foldedNick }
          let outcome : JoinOutcome := onJoin.elim {} fun hook => hook entry.nick name
          let s := outcome.actions s
          match outcome.block with
          | some reason => ((s.fail id "JOIN" "JOIN_BLOCKED" [name] reason).endJoin folded, .refused)
          | none => ((s.enterChannel id folded channel created).endJoin folded, .entered)

theorem joinOneWith_none (s : Server) (id : UInt64) (name : String) (key : Option String) :
    (s.joinOneWith none id name key).1 = s.joinOne id name key := by
  rw [joinOneWith, joinOne]
  split
  · rfl
  · dsimp only
    split
    · rfl
    · split
      · rfl
      · generalize s.beginJoin (s.fold name) name = joining
        obtain ⟨later, created⟩ := joining
        dsimp only
        cases later.findChannel (s.fold name) with
        | none => rfl
        | some channel =>
          dsimp only
          cases (if created = true then none
            else channel.joinRejection (s.entry id) (later.fold (s.entry id).nick) key) <;> rfl

end Server

/-! ## Begin and end of a join -/

namespace Server

/-- The channel an attempt is about: the live one, or the one it creates. -/
def joinTarget (s : Server) (name : String) : ChannelEntry :=
  (s.findChannel (s.fold name)).getD (s.freshChannel (s.fold name) name)

theorem beginJoin_existing {s : Server} {folded : String} {channel : ChannelEntry}
    (found : s.findChannel folded = some channel) (name : String) :
    s.beginJoin folded name =
      (s.modifyChannel folded fun channel => { channel with joining := channel.joining + 1 }, false) := by
  rw [beginJoin, found]

theorem beginJoin_new {s : Server} {folded : String} (absent : s.findChannel folded = none) (name : String) :
    s.beginJoin folded name =
      ({ s with
        channels := s.channels.insert folded
          { s.freshChannel folded name with joining := (s.freshChannel folded name).joining + 1 } }, true) := by
  rw [beginJoin, absent]

/-- The channel in which a join has begun. -/
theorem findChannel_begun {s : Server} {folded : String} {channel : ChannelEntry}
    (found : s.findChannel folded = some channel) :
    (s.modifyChannel folded fun channel => { channel with joining := channel.joining + 1 }).findChannel folded =
      some { channel with joining := channel.joining + 1 } := by
  rw [Tables.findChannel, modifyChannel_toTables]
  dsimp only
  rw [Table.lookup_modify, if_pos rfl, show s.channels.lookup folded = some channel from found, Option.map_some]

theorem findChannel_created (s : Server) (folded name : String) :
    ({ s with
        channels := s.channels.insert folded
          { s.freshChannel folded name with joining := (s.freshChannel folded name).joining + 1 } } :
      Server).findChannel folded =
      some { s.freshChannel folded name with joining := (s.freshChannel folded name).joining + 1 } :=
  AList.lookup_insert _

theorem freshChannel_empty (t : Tables) (folded name : String) :
    (t.freshChannel folded name).members = ∅ ∧ (t.freshChannel folded name).remoteMembers = ∅ ∧
      (t.freshChannel folded name).joining = 0 ∧ (t.freshChannel folded name).bans = [] ∧
      (t.freshChannel folded name).exceptions = [] ∧ (t.freshChannel folded name).invex = [] ∧
      (t.freshChannel folded name).invited = [] := by
  rw [Tables.freshChannel]
  split <;> exact ⟨rfl, rfl, rfl, rfl, rfl, rfl, rfl⟩

/-- A join in flight on a live channel that ends without a member changes nothing, unless the
channel was empty. -/
theorem endJoin_existing {channels : Table String ChannelEntry} {folded : String} {channel : ChannelEntry}
    (found : channels.lookup folded = some channel) :
    reap ((channels.modify folded fun channel => { channel with joining := channel.joining + 1 }).modify folded
        fun channel => { channel with joining := channel.joining - 1 }) folded =
      if channel.isIdle then channels.erase folded else channels := by
  have same : (channels.modify folded fun channel => { channel with joining := channel.joining + 1 }).modify
      folded (fun channel => { channel with joining := channel.joining - 1 }) = channels := by
    rw [Table.modify_modify]
    exact Table.modify_eq_self fun _ _ => rfl
  rw [same, reap, found]

/-- A channel created for an attempt that ends without a member is gone again. -/
theorem endJoin_new {channels : Table String ChannelEntry} {folded : String} (absent : folded ∉ channels)
    {channel : ChannelEntry} (members : channel.members = ∅) (remoteMembers : channel.remoteMembers = ∅)
    (joining : channel.joining = 0) :
    reap (Table.modify folded (fun channel => { channel with joining := channel.joining - 1 })
      (channels.insert folded { channel with joining := channel.joining + 1 })) folded = channels := by
  have idle : ({ channel with joining := channel.joining + 1 - 1 } : ChannelEntry).isIdle = true := by
    simp [ChannelEntry.isIdle, members, remoteMembers, joining]
  rw [Table.modify_insert, reap, AList.lookup_insert]
  dsimp only
  rw [if_pos idle]
  apply AList.ext
  show List.kerase folded (AList.insert folded _ channels).entries = channels.entries
  rw [AList.entries_insert]
  exact (List.kerase_cons_eq (s := (⟨folded, _⟩ : Sigma fun _ : String => ChannelEntry)) rfl).trans
    (List.kerase_of_notMem_keys absent)

end Server

/-! ## Refused attempts -/

namespace Server

/-- Whether an attempt gets as far as the channel. -/
def reachesChannel (s : Server) (id : UInt64) (name : String) : Bool :=
  isValidChannel name && !(s.entry id).channels.contains (s.fold name) &&
    ((s.entry id).oper || decide ((s.entry id).channels.length < s.info.maxChannels))

/-- Whether a refusal would be noticed: the live channel is empty, or the client is invited and
only the plugins can refuse it. -/
def LeavesTrace (s : Server) (id : UInt64) (name : String) (key : Option String) : Prop :=
  s.reachesChannel id name = true ∧
    ∃ channel, s.findChannel (s.fold name) = some channel ∧
      (channel.isIdle = true ∨
        (s.fold (s.entry id).nick ∈ channel.invited ∧
          channel.joinRejection (s.entry id) (s.fold (s.entry id).nick) key = none))

/-- The exits before the channel is looked at. -/
theorem joinOneWith_early {s : Server} {id : UInt64} {name : String}
    (early : s.reachesChannel id name = false) (onJoin : Option (String → String → JoinOutcome))
    (key : Option String) : (s.joinOneWith onJoin id name key).1.toTables = s.toTables := by
  rw [joinOneWith]
  cases valid : isValidChannel name with
  | false => rfl
  | true =>
    dsimp only
    split
    · rfl
    · cases already : (s.entry id).channels.contains (s.fold name) with
      | true => rfl
      | false =>
        have capped : (!(s.entry id).oper && decide (s.info.maxChannels ≤ (s.entry id).channels.length)) = true := by
          simp only [reachesChannel, valid, already, Bool.not_false, Bool.true_and, Bool.or_eq_false_iff,
            decide_eq_false_iff_not, Nat.not_lt] at early
          simp [early]
        rw [if_neg Bool.false_ne_true, if_pos capped]
        rfl

theorem reachesChannel_iff {s : Server} {id : UInt64} {name : String} :
    s.reachesChannel id name = true ↔
      isValidChannel name = true ∧ (s.entry id).channels.contains (s.fold name) = false ∧
        (!(s.entry id).oper && decide (s.info.maxChannels ≤ (s.entry id).channels.length)) = false := by
  simp only [reachesChannel, Bool.and_eq_true, Bool.or_eq_true, Bool.not_eq_true', decide_eq_true_eq,
    Bool.and_eq_false_iff, Bool.not_eq_false', decide_eq_false_iff_not, Nat.not_le]
  tauto

/-- An attempt on a live channel. -/
theorem joinOneWith_existing {s : Server} {id : UInt64} {name : String} (reaches : s.reachesChannel id name = true)
    {channel : ChannelEntry} (found : s.findChannel (s.fold name) = some channel)
    (onJoin : Option (String → String → JoinOutcome)) (key : Option String) :
    let foldedNick := s.fold (s.entry id).nick
    let begun := s.modifyChannel (s.fold name) fun channel => { channel with joining := channel.joining + 1 }
    let outcome : JoinOutcome := onJoin.elim {} fun hook => hook (s.entry id).nick name
    let asked := outcome.actions (begun.modifyChannel (s.fold name) fun channel =>
      { channel with invited := channel.invited.filter fun nick => nick != foldedNick })
    s.joinOneWith onJoin id name key =
      match channel.joinRejection (s.entry id) foldedNick key with
      | some (code, text) => ((begun.numeric id code [channel.name] (some text)).endJoin (s.fold name), .refused)
      | none =>
        match outcome.block with
        | some reason => ((asked.fail id "JOIN" "JOIN_BLOCKED" [name] reason).endJoin (s.fold name), .refused)
        | none => ((asked.enterChannel id (s.fold name) { channel with joining := channel.joining + 1 } false).endJoin
            (s.fold name), .entered) := by
  obtain ⟨valid, new, room⟩ := reachesChannel_iff.mp reaches
  simp only [joinOneWith, valid, Bool.not_true, Bool.false_eq_true, if_false, new, room,
    beginJoin_existing found, findChannel_begun found]
  -- neither the join in flight nor the channel table matters to the checks
  rfl

/-- An attempt that creates its channel. -/
theorem joinOneWith_new {s : Server} {id : UInt64} {name : String} (reaches : s.reachesChannel id name = true)
    (absent : s.findChannel (s.fold name) = none) (onJoin : Option (String → String → JoinOutcome))
    (key : Option String) :
    let fresh := { s.freshChannel (s.fold name) name with joining := (s.freshChannel (s.fold name) name).joining + 1 }
    let outcome : JoinOutcome := onJoin.elim {} fun hook => hook (s.entry id).nick name
    let asked := outcome.actions { s with channels := s.channels.insert (s.fold name) fresh }
    s.joinOneWith onJoin id name key =
      match outcome.block with
      | some reason => ((asked.fail id "JOIN" "JOIN_BLOCKED" [name] reason).endJoin (s.fold name), .refused)
      | none => ((asked.enterChannel id (s.fold name) fresh true).endJoin (s.fold name), .entered) := by
  obtain ⟨valid, new, room⟩ := reachesChannel_iff.mp reaches
  simp only [joinOneWith, valid, Bool.not_true, Bool.false_eq_true, if_false, new, room,
    beginJoin_new absent, findChannel_created s (s.fold name) name]
  rfl

/-- The plugins' refusal of an attempt on a live channel is noticed if the channel was empty or
the client was invited. -/
theorem blocked_unchanged_iff {channels : Table String ChannelEntry} {folded : String} {channel : ChannelEntry}
    (stored : channels.lookup folded = some channel) (foldedNick : String) :
    reap (channels.modify folded fun channel =>
        { channel with
          invited := channel.invited.filter fun nick => nick != foldedNick
          joining := channel.joining + 1 - 1 }) folded = channels ↔
      ¬ (channel.isIdle = true ∨ foldedNick ∈ channel.invited) := by
  have modified : (channels.modify folded fun channel =>
      { channel with
        invited := channel.invited.filter fun nick => nick != foldedNick
        joining := channel.joining + 1 - 1 }).lookup folded =
        some { channel with invited := channel.invited.filter fun nick => nick != foldedNick } := by
    rw [Table.lookup_modify, if_pos rfl, stored]
    rfl
  have sameIdle : ({ channel with invited := channel.invited.filter fun nick => nick != foldedNick } :
      ChannelEntry).isIdle = channel.isIdle := rfl
  cases idle : channel.isIdle with
  | true =>
    -- an idle channel is reaped by the attempt
    refine iff_of_false (fun same => ?_) (by simp)
    have gone := congrArg (AList.lookup folded) same
    rw [lookup_reap, if_pos rfl, modified, stored] at gone
    simp [Option.filter, sameIdle, idle] at gone
  | false =>
    rw [reap_of_busy modified (by rw [sameIdle, idle])]
    constructor
    · intro same trace
      rw [same, stored] at modified
      have invitations := congrArg ChannelData.invited (congrArg ChannelEntry.toChannelData (Option.some.inj modified))
      have invited : foldedNick ∈ channel.invited := by simpa using trace
      rw [invitations] at invited
      simp at invited
    · intro uninvited
      refine Table.modify_eq_self fun value found => ?_
      rw [stored] at found
      cases found
      have kept : channel.invited.filter (fun nick => nick != foldedNick) = channel.invited := by
        refine List.filter_eq_self.mpr fun nick member => ?_
        simp only [bne_iff_ne, ne_eq]
        intro same
        exact uninvited (.inr (same ▸ member))
      rw [kept]
      rfl

/-- A refused attempt leaves the channels and the client's channel set as they were exactly if it
leaves no trace. -/
theorem refused_unchanged_iff {s : Server} {id : UInt64} {name : String} {key : Option String}
    {onJoin : Option (String → String → JoinOutcome)}
    (inert : ∀ hook ∈ onJoin, ∀ nick channel, (hook nick channel).block.isSome = true →
      (hook nick channel).actions = fun s => s)
    (refused : (s.joinOneWith onJoin id name key).2 = .refused) :
    ((s.joinOneWith onJoin id name key).1.channels = s.channels ∧
        ((s.joinOneWith onJoin id name key).1.entry id).channels = (s.entry id).channels) ↔
      ¬ s.LeavesTrace id name key := by
  have inactive : ∀ reason, (onJoin.elim ({} : JoinOutcome) fun hook => hook (s.entry id).nick name).block =
      some reason →
      (onJoin.elim ({} : JoinOutcome) fun hook => hook (s.entry id).nick name).actions = fun s => s := by
    intro reason blocked
    cases onJoin with
    | none => cases blocked
    | some hook => exact inert hook rfl _ _ (by rw [Option.elim_some] at blocked; rw [blocked]; rfl)
  cases reaches : s.reachesChannel id name with
  | false =>
    have same := joinOneWith_early reaches onJoin key
    refine iff_of_true ⟨by rw [same], ?_⟩ fun trace => ?_
    · rw [Tables.entry, Tables.entry, same]
    · rw [trace.1] at reaches
      cases reaches
  | true =>
    cases found : s.findChannel (s.fold name) with
    | none =>
      -- the channel was made for the join, and goes again
      have noTrace : ¬ s.LeavesTrace id name key := by
        intro ⟨_, channel, live, _⟩
        rw [found] at live
        cases live
      refine iff_of_true ?_ noTrace
      rw [joinOneWith_new reaches found] at refused ⊢
      dsimp only at refused ⊢
      generalize (onJoin.elim ({} : JoinOutcome) fun hook => hook (s.entry id).nick name) = outcome
        at refused inactive ⊢
      cases blocked : outcome.block with
      | none => simp only [blocked, reduceCtorEq] at refused
      | some reason =>
        obtain ⟨members, remoteMembers, joining, -⟩ := freshChannel_empty s.toTables (s.fold name) name
        simp only [inactive reason blocked, endJoin_toTables, fail_toTables]
        exact ⟨endJoin_new (AList.lookup_eq_none.mp found) members remoteMembers joining, rfl⟩
    | some channel =>
      have stored : s.channels.lookup (s.fold name) = some channel := found
      rw [joinOneWith_existing reaches found] at refused ⊢
      generalize (onJoin.elim ({} : JoinOutcome) fun hook => hook (s.entry id).nick name) = outcome
        at refused inactive ⊢
      cases rejected : channel.joinRejection (s.entry id) (s.fold (s.entry id).nick) key with
      | some rejection =>
        have trace : s.LeavesTrace id name key ↔ channel.isIdle = true := by
          simp [LeavesTrace, reaches, found, rejected]
        have sameEntry : ∀ channels : Table String ChannelEntry,
            ({ s.toTables with channels := channels } : Tables).entry id = s.entry id := fun _ => rfl
        simp only [endJoin_toTables, numeric_toTables, modifyChannel_toTables, sameEntry, and_true, trace]
        rw [endJoin_existing stored]
        cases idle : channel.isIdle with
        | false => simp
        | true =>
          rw [if_pos rfl]
          refine iff_of_false (fun same => ?_) (by simp)
          -- the channel was idle: it goes with the join that is refused
          have gone := congrArg (AList.lookup (s.fold name)) same
          rw [AList.lookup_erase, stored] at gone
          cases gone
      | none =>
        simp only [rejected] at refused ⊢
        cases blocked : outcome.block with
        | none => simp only [blocked, reduceCtorEq] at refused
        | some reason =>
          have trace : s.LeavesTrace id name key ↔
              channel.isIdle = true ∨ s.fold (s.entry id).nick ∈ channel.invited := by
            simp [LeavesTrace, reaches, found, rejected]
          have sameEntry : ∀ channels : Table String ChannelEntry,
              ({ s.toTables with channels := channels } : Tables).entry id = s.entry id := fun _ => rfl
          simp only [inactive reason blocked, endJoin_toTables, fail_toTables, modifyChannel_toTables,
            sameEntry, and_true, trace, Table.modify_modify]
          exact blocked_unchanged_iff stored _

/-- `alpha.example` with alice (client 1) as the operator of a channel, and bob (client 2), who
is not in it. -/
def withDen (den : ChannelEntry) (bob : ClientEntry) : Server :=
  { alpha with
    entries := (AList.singleton 1 { nick := "alice", registered := true, channels := ["#den"] }).insert 2 bob
    clients := (AList.singleton "alice" 1).insert "bob" 2
    byId := [1, 2]
    nextId := 3
    channels := AList.singleton "#den" { den with members := AList.singleton 1 ⟨true, false⟩ } }

def plainBob : ClientEntry := { nick := "bob", user := "ident", host := "host.example", registered := true }

/-- An invite-only channel, and who is invited. -/
def inviteDen (invited : List String) : ChannelEntry :=
  { name := "#den", modes := { inviteOnly := true }, invited, createdAt := 1000 }

/-- Plugins that let nobody in. -/
def blockJoins : String → String → JoinOutcome :=
  fun _ _ => { block := some "Join blocked by server policy" }

theorem refused_unchanged_uninvited :
    ((withDen (inviteDen []) plainBob).joinOneWith (some blockJoins) 2 "#den" none).1.channels =
        (withDen (inviteDen []) plainBob).channels ∧
      (((withDen (inviteDen []) plainBob).joinOneWith (some blockJoins) 2 "#den" none).1.entry 2).channels =
        ((withDen (inviteDen []) plainBob).entry 2).channels := by
  have inert : ∀ hook ∈ some blockJoins, ∀ nick channel, (hook nick channel).block.isSome = true →
      (hook nick channel).actions = fun s => s := by
    intro hook chosen nick channel _
    cases chosen
    rfl
  refine (refused_unchanged_iff inert (by decide)).mpr ?_
  intro ⟨_, channel, found, trace⟩
  have live : (withDen (inviteDen []) plainBob).findChannel
      ((withDen (inviteDen []) plainBob).fold "#den") = some
        { inviteDen [] with members := AList.singleton 1 ⟨true, false⟩ } := by
    rw [show (withDen (inviteDen []) plainBob).fold "#den" = "#den" by decide]
    rfl
  rw [live] at found
  cases found
  rcases trace with idle | invited
  · exact absurd idle (by decide)
  · exact absurd invited.1 (by decide)

/-- The plugins block a client that is invited: the invitation is gone. -/
theorem invitation_consumed : ¬ ∀ (s : Server) (id : UInt64) (name : String) (key : Option String)
    (hook : String → String → JoinOutcome),
    (∀ nick channel, (hook nick channel).actions = fun s => s) →
      (s.joinOneWith (some hook) id name key).2 = .refused →
        (s.joinOneWith (some hook) id name key).1.channels = s.channels ∧
          ((s.joinOneWith (some hook) id name key).1.entry id).channels = (s.entry id).channels := by
  intro unchanged
  have kept := unchanged (withDen (inviteDen ["bob"]) plainBob) 2 "#den" none blockJoins (fun _ _ => rfl) (by decide)
  have invited := congrArg (fun channels => (channels.lookup "#den").map fun channel => channel.invited) kept.1
  exact absurd invited (by decide)

end Server

/-! ## Admission -/

namespace ChannelEntry

def Unbanned (channel : ChannelEntry) (entry : ClientEntry) : Prop :=
  channel.isBanned entry.hostmask entry.account = true → channel.isExcepted entry.hostmask entry.account = true

def Welcomes (channel : ChannelEntry) (entry : ClientEntry) (foldedNick : String) : Prop :=
  channel.modes.inviteOnly = true →
    foldedNick ∈ channel.invited ∨ channel.matchesInvex entry.hostmask entry.account = true

def KeyFits (channel : ChannelEntry) (key : Option String) : Prop :=
  ∀ wanted, channel.modes.key = some wanted → key = some wanted

def HasRoom (channel : ChannelEntry) (count : Nat) : Prop :=
  ∀ limit, channel.modes.limit = some limit → count < limit.toNat

/-- The checks the code makes: an operator passes the first two only, and remote members do not
count. -/
theorem joinRejection_none_iff {channel : ChannelEntry} {entry : ClientEntry} {foldedNick : String}
    {key : Option String} :
    channel.joinRejection entry foldedNick key = none ↔
      (entry.oper = true ∨ channel.Unbanned entry ∧ channel.Welcomes entry foldedNick) ∧
        channel.KeyFits key ∧ channel.HasRoom channel.members.keys.length := by
  have banCheck : (!entry.oper && channel.isBanned entry.hostmask entry.account &&
      !channel.isExcepted entry.hostmask entry.account) = false ↔
        entry.oper = true ∨ channel.Unbanned entry := by
    rw [Unbanned]
    cases entry.oper <;> cases channel.isBanned entry.hostmask entry.account <;> simp
  have inviteCheck : (channel.modes.inviteOnly && !channel.invited.contains foldedNick && !entry.oper &&
      !channel.matchesInvex entry.hostmask entry.account) = false ↔
        entry.oper = true ∨ channel.Welcomes entry foldedNick := by
    rw [Welcomes, ← List.contains_iff_mem]
    cases entry.oper <;> cases channel.modes.inviteOnly <;> cases channel.invited.contains foldedNick <;> simp
  have keyCheck : (channel.modes.key.isSome && channel.modes.key != key) = false ↔ channel.KeyFits key := by
    rw [KeyFits]
    cases channel.modes.key with
    | none => simp
    | some wanted =>
      by_cases same : key = some wanted
      · simp [same]
      · simp [same, Ne.symm same]
  have limitCheck : (channel.modes.limit.any fun limit => decide (limit.toNat ≤ channel.members.keys.length)) =
      false ↔ channel.HasRoom channel.members.keys.length := by
    rw [HasRoom]
    cases channel.modes.limit with
    | none => simp
    | some limit => simp
  have split : (entry.oper = true ∨ channel.Unbanned entry ∧ channel.Welcomes entry foldedNick) ↔
      (entry.oper = true ∨ channel.Unbanned entry) ∧ (entry.oper = true ∨ channel.Welcomes entry foldedNick) := by
    tauto
  rw [split, ← banCheck, ← inviteCheck, ← keyCheck, ← limitCheck, joinRejection]
  -- the four checks are made one after the other, and each rejection is one that fails
  generalize (!entry.oper && channel.isBanned entry.hostmask entry.account &&
    !channel.isExcepted entry.hostmask entry.account) = banned
  generalize (channel.modes.inviteOnly && !channel.invited.contains foldedNick && !entry.oper &&
    !channel.matchesInvex entry.hostmask entry.account) = uninvited
  generalize (channel.modes.key.isSome && channel.modes.key != key) = wrongKey
  generalize (channel.modes.limit.any fun limit => decide (limit.toNat ≤ channel.members.keys.length)) = full
  cases banned <;> cases uninvited <;> cases wrongKey <;> cases full <;> simp

end ChannelEntry

namespace Server

/-- The client is a member once the attempt is over. -/
def AdmitsJoin (s : Server) (id : UInt64) (name : String) (key : Option String) : Prop :=
  ∃ channel, (s.joinOne id name key).findChannel (s.fold name) = some channel ∧ id ∈ channel.members

/-- Who is to be admitted: anybody to a channel that is new and unregistered, an operator
anywhere, and others if the channel's own state lets them in. -/
def MayJoin (s : Server) (id : UInt64) (name : String) (key : Option String) : Prop :=
  (s.findChannel (s.fold name) = none ∧ s.registeredChannels.lookup (s.fold name) = none) ∨
    (s.entry id).oper = true ∨
    ((s.joinTarget name).Unbanned (s.entry id) ∧
      (s.joinTarget name).Welcomes (s.entry id) (s.fold (s.entry id).nick) ∧
      (s.joinTarget name).KeyFits key ∧
      (s.joinTarget name).HasRoom
        ((s.joinTarget name).members.keys.length + (s.joinTarget name).remoteMembers.keys.length))

/-- Where the code's checks are those of the specification: a registered channel that is created
anew restricts nobody, an operator needs neither key nor room, and remote members do not fill
the channel up. -/
def JoinChecksSuffice (s : Server) (id : UInt64) (name : String) (key : Option String) : Prop :=
  match s.findChannel (s.fold name) with
  | none =>
    s.registeredChannels.lookup (s.fold name) = none ∨ (s.entry id).oper = true ∨
      ((s.joinTarget name).modes.inviteOnly = false ∧ (s.joinTarget name).KeyFits key ∧
        (s.joinTarget name).HasRoom 0)
  | some channel =>
    if (s.entry id).oper then channel.KeyFits key ∧ channel.HasRoom channel.members.keys.length
    else
      channel.Unbanned (s.entry id) → channel.Welcomes (s.entry id) (s.fold (s.entry id).nick) →
        channel.KeyFits key → channel.HasRoom channel.members.keys.length →
          channel.HasRoom (channel.members.keys.length + channel.remoteMembers.keys.length)

/-- A client that enters is a member afterwards. -/
theorem findChannel_entered {s : Server} {folded : String} {channel : ChannelEntry}
    (found : s.findChannel folded = some channel) (id : UInt64) (shown : ChannelEntry) (created : Bool) :
    ∃ after, ((s.enterChannel id folded shown created).endJoin folded).findChannel folded = some after ∧
      id ∈ after.members := by
  have stored : s.channels.lookup folded = some channel := found
  rw [Tables.findChannel, endJoin_toTables, enterChannel_toTables]
  dsimp only
  have member : id ∈ (channel.addLocal id (s.joinStatus id folded created)).members :=
    (AList.mem_insert _).mpr (.inl rfl)
  have busy : ∀ joining, ({ channel.addLocal id (s.joinStatus id folded created) with joining } :
      ChannelEntry).isIdle = false := by
    intro joining
    have nonempty : (channel.addLocal id (s.joinStatus id folded created)).members.entries.isEmpty = false := by
      rw [ChannelEntry.addLocal, AList.entries_insert]
      rfl
    simp [ChannelEntry.isIdle, nonempty]
  rw [lookup_reap, if_pos rfl, Table.lookup_modify, if_pos rfl, Table.lookup_modify, if_pos rfl, stored]
  refine ⟨{ channel.addLocal id (s.joinStatus id folded created) with joining := channel.joining - 1 }, ?_, member⟩
  rw [Option.map_some, Option.map_some, Option.filter, busy]
  rfl

/-- A live channel admits whom its checks let pass. -/
theorem admits_existing {s : Server} {id : UInt64} {name : String} {key : Option String}
    (reaches : s.reachesChannel id name = true) {channel : ChannelEntry}
    (found : s.findChannel (s.fold name) = some channel) (outside : id ∉ channel.members) :
    s.AdmitsJoin id name key ↔ channel.joinRejection (s.entry id) (s.fold (s.entry id).nick) key = none := by
  have stored : s.channels.lookup (s.fold name) = some channel := found
  rw [AdmitsJoin, ← joinOneWith_none, joinOneWith_existing reaches found]
  cases rejected : channel.joinRejection (s.entry id) (s.fold (s.entry id).nick) key with
  | some rejection =>
    refine iff_of_false (fun ⟨after, live, member⟩ => ?_) (by simp)
    -- a rejected join leaves the channel as it was, or reaped
    have reaped : reap ((s.channels.modify (s.fold name) fun channel =>
        { channel with joining := channel.joining + 1 }).modify (s.fold name) fun channel =>
          { channel with joining := channel.joining - 1 }) (s.fold name) =
        if channel.isIdle then s.channels.erase (s.fold name) else s.channels := endJoin_existing stored
    simp only [Tables.findChannel, endJoin_toTables, numeric_toTables, modifyChannel_toTables, reaped] at live
    split at live
    · rw [AList.lookup_erase] at live
      cases live
    · rw [stored] at live
      cases live
      exact outside member
  | none =>
    refine iff_of_true ?_ rfl
    have asked : (Server.modifyChannel (s.modifyChannel (s.fold name) fun channel =>
        { channel with joining := channel.joining + 1 }) (s.fold name) fun channel =>
          { channel with invited := channel.invited.filter fun nick => nick != s.fold (s.entry id).nick }).findChannel
            (s.fold name) = some { channel with
              joining := channel.joining + 1
              invited := channel.invited.filter fun nick => nick != s.fold (s.entry id).nick } := by
      rw [Tables.findChannel, modifyChannel_toTables, modifyChannel_toTables, Table.modify_modify]
      dsimp only
      rw [Table.lookup_modify, if_pos rfl, stored]
      rfl
    exact findChannel_entered asked id _ false

/-- A channel that is created admits anybody. -/
theorem admits_new {s : Server} {id : UInt64} {name : String} {key : Option String}
    (reaches : s.reachesChannel id name = true) (absent : s.findChannel (s.fold name) = none) :
    s.AdmitsJoin id name key := by
  rw [AdmitsJoin, ← joinOneWith_none, joinOneWith_new reaches absent]
  exact findChannel_entered (findChannel_created s (s.fold name) name) id _ true

/-- The code admits whom it should exactly where its checks suffice. -/
theorem join_admission_iff {s : Server} {id : UInt64} {name : String} {key : Option String}
    (reaches : s.reachesChannel id name = true)
    (outside : ∀ channel, s.findChannel (s.fold name) = some channel → id ∉ channel.members) :
    (s.AdmitsJoin id name key ↔ s.MayJoin id name key) ↔ s.JoinChecksSuffice id name key := by
  rw [JoinChecksSuffice, MayJoin, joinTarget]
  cases found : s.findChannel (s.fold name) with
  | none =>
    have admits : s.AdmitsJoin id name key := admits_new reaches found
    obtain ⟨members, remoteMembers, -, bans, exceptions, invex, invited⟩ :=
      freshChannel_empty s.toTables (s.fold name) name
    have unbanned : (s.freshChannel (s.fold name) name).Unbanned (s.entry id) := by
      rw [ChannelEntry.Unbanned, ChannelEntry.isBanned, bans]
      simp
    have welcomes : (s.freshChannel (s.fold name) name).Welcomes (s.entry id) (s.fold (s.entry id).nick) ↔
        (s.freshChannel (s.fold name) name).modes.inviteOnly = false := by
      rw [ChannelEntry.Welcomes, ChannelEntry.matchesInvex, invex, invited]
      simp
    have nobody : (s.freshChannel (s.fold name) name).members.keys.length +
        (s.freshChannel (s.fold name) name).remoteMembers.keys.length = 0 := by
      rw [members, remoteMembers]
      rfl
    rw [Option.getD_none, nobody, welcomes]
    simp only [admits, unbanned, true_and, true_iff]
  | some channel =>
    rw [admits_existing reaches found (outside channel found), Option.getD_some, ChannelEntry.joinRejection_none_iff]
    -- the limit is checked against the local members only
    have fewer : channel.HasRoom (channel.members.keys.length + channel.remoteMembers.keys.length) →
        channel.HasRoom channel.members.keys.length := by
      intro room limit set
      have total := room limit set
      omega
    cases oper : (s.entry id).oper with
    | true => simp
    | false =>
      simp only [reduceCtorEq, false_and, false_or, Bool.false_eq_true, if_false]
      tauto

/-- A channel with a key. -/
def keyedDen : ChannelEntry :=
  { name := "#den", modes := { key := some "sesame" }, createdAt := 1000 }

theorem join_admission_key :
    (withDen keyedDen plainBob).AdmitsJoin 2 "#den" (some "sesame") ↔
      (withDen keyedDen plainBob).MayJoin 2 "#den" (some "sesame") := by
  have live : (withDen keyedDen plainBob).findChannel ((withDen keyedDen plainBob).fold "#den") =
      some { keyedDen with members := AList.singleton 1 ⟨true, false⟩ } := by
    rw [show (withDen keyedDen plainBob).fold "#den" = "#den" by decide]
    rfl
  refine (join_admission_iff (by decide) ?_).mpr ?_
  · intro channel found
    rw [live] at found
    cases found
    decide
  · rw [JoinChecksSuffice, live]
    intro _ _ _ _ limit limited
    cases limited

/-- An operator without the key is refused. -/
theorem operator_needs_key : ¬ ∀ (s : Server) (id : UInt64) (name : String) (key : Option String),
    s.reachesChannel id name = true →
      (∀ channel, s.findChannel (s.fold name) = some channel → id ∉ channel.members) →
        (s.AdmitsJoin id name key ↔ s.MayJoin id name key) := by
  intro admitted
  have live : (withDen keyedDen { plainBob with oper := true }).findChannel
      ((withDen keyedDen { plainBob with oper := true }).fold "#den") =
        some { keyedDen with members := AList.singleton 1 ⟨true, false⟩ } := by
    rw [show (withDen keyedDen { plainBob with oper := true }).fold "#den" = "#den" by decide]
    rfl
  have outside : (2 : UInt64) ∉ (AList.singleton 1 ⟨true, false⟩ : Table UInt64 MemberPrefix) := by decide
  have reaches : (withDen keyedDen { plainBob with oper := true }).reachesChannel 2 "#den" = true := by decide
  have admits := (admitted _ 2 "#den" none reaches fun channel found => by
    rw [live] at found
    cases found
    exact outside).mpr (.inr (.inl (by decide)))
  have passes := (admits_existing reaches live outside).mp admits
  exact absurd passes (by decide)

end Server

end Ferrixd
