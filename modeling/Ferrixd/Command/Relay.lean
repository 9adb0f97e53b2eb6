import Ferrixd.Burst.Rooms
import Ferrixd.Command.Mode

/-! # A mode command and its relay

A mode command is read twice: by the server of the client, which resolves nicks, and from the
relayed frame by every other server, which resolves UIDs.  Both are compared with what the
command means for the view of the channel that the network shares. -/

namespace Ferrixd

/-! ## What a command means -/

/-- One change of a channel, its member named by UID. -/
inductive ModeChange where
  | flag (letter : Char) (adding : Bool)
  | status (letter : Char) (adding : Bool) (uid : String)
  | key (value : Option String)
  | limit (value : Option UInt64)
  | list (letter : Char) (adding : Bool) (mask : String)
  deriving DecidableEq

namespace ModeChange

def letter : ModeChange → Char
  | .flag letter _ | .status letter _ _ | .list letter _ _ => letter
  | .key _ => 'k'
  | .limit _ => 'l'

def adding : ModeChange → Bool
  | .flag _ adding | .status _ adding _ | .list _ adding _ => adding
  | .key value => value.isSome
  | .limit value => value.isSome

/-- The argument it takes on the wire. -/
def wire : ModeChange → List String
  | .flag _ _ => []
  | .status _ _ uid => [uid]
  | .key value => value.toList
  | .limit value => (value.map printU64).toList
  | .list _ _ mask => [mask]

/-- The letter is one that is read as this change, and its member one of the channel's. -/
def Sound (view : RoomView) : ModeChange → Prop
  | .flag letter _ => (boolModes.find? fun mode => mode.letter = letter).isSome
  | .status letter _ uid => (letter = 'o' ∨ letter = 'v') ∧ (view.status uid).isSome
  | .key _ | .limit _ => True
  | .list letter _ _ => letter = 'b' ∨ letter = 'e' ∨ letter = 'I'

end ModeChange

/-- Add a mask to a list, or remove it. -/
def changeMasks (masks : List String) (adding : Bool) (mask : String) : List String :=
  if adding then addMask masks mask else masks.filter fun other => other != mask

theorem changeMasks_eq_self {masks : List String} {adding : Bool} {mask : String}
    (same : (changeMasks masks adding mask).length = masks.length) : changeMasks masks adding mask = masks := by
  rw [changeMasks] at same ⊢
  split at same
  · rw [if_pos ‹_›]
    rw [addMask] at same ⊢
    split at same
    · simp at same
    · rw [if_neg ‹_›]
  · rw [if_neg ‹_›]
    exact List.filter_eq_self.mpr (List.length_filter_eq_length_iff.mp same)

namespace RoomView

def masks (view : RoomView) (letter : Char) : List String :=
  if letter = 'b' then view.bans else if letter = 'e' then view.exceptions else view.invex

def setMasks (view : RoomView) (letter : Char) (masks : List String) : RoomView :=
  if letter = 'b' then { view with bans := masks }
  else if letter = 'e' then { view with exceptions := masks }
  else { view with invex := masks }

def change (view : RoomView) : ModeChange → RoomView
  | .flag letter adding =>
    match boolModes.find? fun mode => mode.letter = letter with
    | some mode => { view with modes := mode.set view.modes adding }
    | none => view
  | .status letter adding uid =>
    { view with
      status := fun other =>
        if other = uid then (view.status uid).map fun status => status.change letter adding
        else view.status other }
  | .key value => { view with modes := { view.modes with key := value } }
  | .limit value => { view with modes := { view.modes with limit := value } }
  | .list letter adding mask => view.setMasks letter (changeMasks (view.masks letter) adding mask)

/-! The change a letter asks for, if it asks for one that takes effect, and the parameters left. -/

/-- A status asked for of a member, whose nick is resolved by `uidOf`. -/
def askedStatus (uidOf : String → Option String) (view : RoomView) (c : Char) (adding : Bool) :
    List String → Option ModeChange × List String
  | [] => (none, [])
  | nick :: args =>
    (((uidOf nick).filter fun uid => (view.status uid).isSome).map fun uid => .status c adding uid, args)

def askedKey (adding : Bool) (args : List String) : Option ModeChange × List String :=
  if adding then (args.head?.map fun key => .key (some key), args.tail) else (some (.key none), args)

def askedLimit (adding : Bool) (args : List String) : Option ModeChange × List String :=
  if adding then ((args.head?.bind parseU64).map fun limit => .limit (some limit), args.tail)
  else (some (.limit none), args)

/-- A mask asked to be listed or not, if that changes the list. -/
def askedMask (view : RoomView) (c : Char) (adding : Bool) : List String → Option ModeChange × List String
  | [] => (none, [])
  | raw :: args =>
    let mask := normalizeBanMask raw
    let changed := changeMasks (view.masks c) adding mask
    (if changed.length = (view.masks c).length then none else some (.list c adding mask), args)

def askedFlag (c : Char) (adding : Bool) : Option ModeChange :=
  (boolModes.find? fun mode => mode.letter = c).map fun _ => .flag c adding

def asked (uidOf : String → Option String) (view : RoomView) (c : Char) (adding : Bool) (args : List String) :
    Option ModeChange × List String :=
  if c = 'o' ∨ c = 'v' then view.askedStatus uidOf c adding args
  else if c = 'k' then askedKey adding args
  else if c = 'l' then askedLimit adding args
  else if c = 'b' ∨ c = 'e' ∨ c = 'I' then view.askedMask c adding args
  else (askedFlag c adding, args)

/-- The changes a mode string makes, at most `budget` of them. -/
def changes (uidOf : String → Option String) :
    List Char → Nat → Bool → List String → RoomView → List ModeChange
  | [], _, _, _, _ => []
  | _ :: _, 0, _, _, _ => []
  | c :: flags, budget + 1, adding, args, view =>
    if c = '+' then changes uidOf flags (budget + 1) true args view
    else if c = '-' then changes uidOf flags (budget + 1) false args view
    else match view.asked uidOf c adding args with
      | (none, args) => changes uidOf flags (budget + 1) adding args view
      | (some change, args) => change :: changes uidOf flags budget adding args (view.change change)

end RoomView

/-! ## Members by UID -/

namespace Tables

/-- The server knows the members of a channel: its own clients by id, the others by a UID that is
not one of its own, and nobody else has the UID of a client in it. -/
structure Houses (t : Tables) (channel : ChannelEntry) : Prop where
  members : ∀ id ∈ channel.members, id ∈ t.byId
  remoteMembers : ∀ uid ∈ channel.remoteMembers, t.localIdOfUid uid = none ∧ (t.remoteUserByUid uid).isSome
  strangers : ∀ folded user, t.findRemoteUser folded = some user → ∀ id ∈ channel.members, user.uid ≠ t.localUid id

theorem localIdOfUid_localUid (t : Tables) (id : UInt64) : t.localIdOfUid (t.localUid id) = some id := by
  rw [localIdOfUid, localUid, stripLead?_some.mpr rfl, Option.bind_some, parseU64_printU64]

theorem localUid_injective (t : Tables) {left right : UInt64} (same : t.localUid left = t.localUid right) :
    left = right := by
  have parsed := t.localIdOfUid_localUid left
  rw [same, localIdOfUid_localUid] at parsed
  exact (Option.some.inj parsed).symm

/-- A local member's UID is listed with its status. -/
theorem lastStatus_local (t : Tables) (members : Table UInt64 MemberPrefix) (id : UInt64) :
    lastStatus (members.entries.map fun member => (t.localUid member.1, member.2)) (t.localUid id) =
      members.lookup id := by
  have found := lastStatus_map_entries members t.localUid (fun status => status)
    (fun _ _ same => t.localUid_injective same) id
  rw [Option.map_id'] at found
  exact found

theorem Houses.localUid_notMem {t : Tables} {channel : ChannelEntry} (houses : t.Houses channel) (id : UInt64) :
    t.localUid id ∉ channel.remoteMembers := by
  intro present
  have foreign := (houses.remoteMembers _ present).1
  rw [localIdOfUid_localUid] at foreign
  cases foreign

/-- The keys are all that counts. -/
theorem Houses.of_keys {t : Tables} {channel channel' : ChannelEntry} (houses : t.Houses channel)
    (members : ∀ id, id ∈ channel'.members ↔ id ∈ channel.members)
    (remoteMembers : ∀ uid, uid ∈ channel'.remoteMembers ↔ uid ∈ channel.remoteMembers) : t.Houses channel' :=
  ⟨fun id member => houses.members id ((members id).mp member),
    fun uid member => houses.remoteMembers uid ((remoteMembers uid).mp member),
    fun folded user found id member => houses.strangers folded user found id ((members id).mp member)⟩

/-- The status of a local member in the view. -/
theorem Houses.status_local {t : Tables} {channel : ChannelEntry} (houses : t.Houses channel) (id : UInt64) :
    (t.view channel).status (t.localUid id) = channel.members.lookup id := by
  show lastStatus (t.roster channel) (t.localUid id) = _
  rw [lastStatus_roster, AList.lookup_eq_none.mpr (houses.localUid_notMem id), lastStatus_local]
  rfl

/-- Who has a status in the view and is no remote member is a client. -/
theorem member_local {t : Tables} {channel : ChannelEntry} {uid : String}
    (member : ((t.view channel).status uid).isSome) (notRemote : uid ∉ channel.remoteMembers) :
    ∃ id ∈ channel.members, t.localUid id = uid := by
  have listed : (lastStatus (t.roster channel) uid).isSome := member
  rw [lastStatus_roster, AList.lookup_eq_none.mpr notRemote] at listed
  obtain ⟨entry, here, same⟩ := List.mem_map.mp (lastStatus_isSome.mp listed)
  obtain ⟨client, clientIn, rfl⟩ := List.mem_map.mp here
  exact ⟨client.1, AList.mem_keys.mpr (List.mem_map_of_mem clientIn), same⟩

/-- Somebody from another server has a status in the view exactly as a remote member. -/
theorem Houses.status_remote {t : Tables} {channel : ChannelEntry} (houses : t.Houses channel) {folded : String}
    {user : RemoteUser} (found : t.findRemoteUser folded = some user) :
    ((t.view channel).status user.uid).isSome = true ↔ user.uid ∈ channel.remoteMembers := by
  constructor
  · intro member
    by_contra notRemote
    obtain ⟨id, present, same⟩ := member_local member notRemote
    exact houses.strangers folded user found id present same.symm
  · intro present
    show (lastStatus (t.roster channel) user.uid).isSome = true
    rw [lastStatus_roster, Option.isSome_or, Option.isSome_map, AList.lookup_isSome.mpr present]
    rfl

/-- Changing the status of a local member changes that of one UID. -/
theorem lastStatus_modify (t : Tables) (members : Table UInt64 MemberPrefix) (id : UInt64)
    (change : MemberPrefix → MemberPrefix) (uid : String) :
    lastStatus ((members.modify id change).entries.map fun member => (t.localUid member.1, member.2)) uid =
      if uid = t.localUid id then (members.lookup id).map change
      else lastStatus (members.entries.map fun member => (t.localUid member.1, member.2)) uid := by
  by_cases own : ∃ other, uid = t.localUid other
  · obtain ⟨other, rfl⟩ := own
    rw [lastStatus_local, lastStatus_local, Table.lookup_modify]
    by_cases same : other = id
    · rw [if_pos same, if_pos (congrArg t.localUid same), same]
    · rw [if_neg same, if_neg fun eq => same (t.localUid_injective eq)]
  · -- a UID of nobody here is listed in neither
    have unlisted : ∀ table : Table UInt64 MemberPrefix,
        lastStatus (table.entries.map fun member => (t.localUid member.1, member.2)) uid = none := by
      intro table
      rw [← Option.not_isSome_iff_eq_none, lastStatus_isSome, List.map_map]
      intro member
      obtain ⟨entry, -, same⟩ := List.mem_map.mp member
      exact own ⟨entry.1, same.symm⟩
    rw [unlisted, unlisted, if_neg fun same => own ⟨id, same⟩]

theorem view_changeLocal {t : Tables} {channel : ChannelEntry} (houses : t.Houses channel) (letter : Char)
    (adding : Bool) (id : UInt64) :
    t.view { channel with members := channel.members.modify id fun status => status.change letter adding } =
      (t.view channel).change (.status letter adding (t.localUid id)) := by
  have status : lastStatus (t.roster { channel with
        members := channel.members.modify id fun status => status.change letter adding }) = fun uid =>
      if uid = t.localUid id then
        (lastStatus (t.roster channel) (t.localUid id)).map fun status => status.change letter adding
      else lastStatus (t.roster channel) uid := by
    funext uid
    have absent : channel.remoteMembers.lookup (t.localUid id) = none :=
      AList.lookup_eq_none.mpr (houses.localUid_notMem id)
    rw [lastStatus_roster, lastStatus_roster, lastStatus_roster, lastStatus_modify, lastStatus_local, absent]
    by_cases same : uid = t.localUid id
    · rw [if_pos same, if_pos same, same, absent]
      rfl
    · rw [if_neg same, if_neg same]
  exact congrArg (fun status => { t.view channel with status }) status

theorem view_changeRemote {t : Tables} {channel : ChannelEntry} {uid : String} (present : uid ∈ channel.remoteMembers)
    (letter : Char) (adding : Bool) :
    t.view { channel with
        remoteMembers := channel.remoteMembers.modify uid fun member => member.change letter adding } =
      (t.view channel).change (.status letter adding uid) := by
  have status : lastStatus (t.roster { channel with
        remoteMembers := channel.remoteMembers.modify uid fun member => member.change letter adding }) = fun other =>
      if other = uid then (lastStatus (t.roster channel) uid).map fun status => status.change letter adding
      else lastStatus (t.roster channel) other := by
    funext other
    obtain ⟨member, stored⟩ := Option.isSome_iff_exists.mp (AList.lookup_isSome.mpr present)
    rw [lastStatus_roster, lastStatus_roster, lastStatus_roster]
    dsimp only
    rw [Table.lookup_modify]
    by_cases same : other = uid
    · rw [if_pos same, if_pos same, same, stored]
      rfl
    · rw [if_neg same, if_neg same]
  exact congrArg (fun status => { t.view channel with status }) status

end Tables

/-! ## The server of the client -/

theorem masks_applyListMode (list : List Ban) (adding : Bool) (mask setBy : String) (setAt : UInt64) :
    ChannelEntry.masks (applyListMode list adding mask setBy setAt).1 =
        changeMasks (ChannelEntry.masks list) adding mask ∧
      ((applyListMode list adding mask setBy setAt).2 = true ↔
        (changeMasks (ChannelEntry.masks list) adding mask).length ≠ (ChannelEntry.masks list).length) := by
  cases adding with
  | true =>
    have sameTest : (list.length < maxListEntries ∧ ¬ list.any (fun ban => ban.mask = mask) = true) ↔
        ((ChannelEntry.masks list).length < maxListEntries ∧ mask ∉ ChannelEntry.masks list) := by
      simp [ChannelEntry.masks]
    rw [applyListMode, if_pos rfl, changeMasks, if_pos rfl, addMask, ← if_congr sameTest rfl rfl]
    split
    · simp [ChannelEntry.masks]
    · simp
  | false =>
    have kept : ChannelEntry.masks (list.filter fun ban => ban.mask != mask) =
        (ChannelEntry.masks list).filter fun other => other != mask := by
      rw [ChannelEntry.masks, ChannelEntry.masks, List.filter_map]
      rfl
    refine ⟨kept, ?_⟩
    rw [changeMasks, if_neg Bool.false_ne_true, ← kept]
    simp [applyListMode, ChannelEntry.masks]

namespace ModeRun

/-- What one letter did to a run: the change it made, if any, and the parameters it left. -/
structure Does (t : Tables) (run run' : ModeRun) (asked : Option ModeChange × List String) : Prop where
  view : t.view run'.channel = asked.1.elim (t.view run.channel) (t.view run.channel).change
  rest : run'.rest = asked.2
  adding : run'.adding = run.adding
  accum : run'.echo.accum = asked.1.elim run.echo.accum fun change =>
    run.echo.accum.push change.adding change.letter
  wire : run'.echo.wire = run.echo.wire ++ asked.1.elim [] ModeChange.wire
  houses : t.Houses run'.channel
  name : run'.channel.name = run.channel.name

variable {t : Tables} {run : ModeRun}

/-- A letter that asks for nothing that takes effect at most uses up a parameter. -/
theorem Does.nothing (houses : t.Houses run.channel) {run' : ModeRun} (channel : run'.channel = run.channel)
    (adding : run'.adding = run.adding) (echo : run'.echo = run.echo) :
    Does t run run' (none, run'.rest) := by
  refine ⟨?_, rfl, adding, ?_, ?_, ?_, ?_⟩
  · rw [channel]
    rfl
  · rw [echo]
    rfl
  · rw [echo]
    exact (List.append_nil _).symm
  · rw [channel]
    exact houses
  · rw [channel]

theorem does_status (houses : t.Houses run.channel) (display : String) (c : Char) :
    Does t run (run.status t display c) ((t.view run.channel).askedStatus t.uidOfNick c run.adding run.rest) := by
  obtain ⟨channel, rest, adding, echo, replies⟩ := run
  cases rest with
  | nil => exact .nothing houses rfl rfl rfl
  | cons nick rest =>
    simp only [status, RoomView.askedStatus, Tables.uidOfNick]
    -- a local client is looked for first, under the same nick
    cases t.findClient (t.fold nick) with
    | some target =>
      dsimp only
      rw [Option.filter_some, houses.status_local]
      by_cases member : target ∈ channel.members
      · rw [if_pos member, if_pos (AList.lookup_isSome.mpr member)]
        exact ⟨t.view_changeLocal houses c adding target, rfl, rfl, rfl, rfl,
          houses.of_keys (fun _ => Table.mem_modify) fun _ => Iff.rfl, rfl⟩
      · have absent : ¬ (channel.members.lookup target).isSome = true := fun some => member (AList.lookup_isSome.mp some)
        rw [if_neg member, if_neg absent]
        exact .nothing houses rfl rfl rfl
    | none =>
      dsimp only
      cases found : t.findRemoteUser (t.fold nick) with
      | none => exact .nothing houses rfl rfl rfl
      | some remote =>
        dsimp only
        rw [Option.map_some, Option.filter_some]
        by_cases member : remote.uid ∈ channel.remoteMembers
        · rw [if_pos member, if_pos ((houses.status_remote found).mpr member)]
          exact ⟨t.view_changeRemote member c adding, rfl, rfl, rfl, rfl,
            houses.of_keys (fun _ => Iff.rfl) fun _ => Table.mem_modify, rfl⟩
        · rw [if_neg member, if_neg (mt (houses.status_remote found).mp member)]
          exact .nothing houses rfl rfl rfl

theorem does_key (houses : t.Houses run.channel) : Does t run run.key (RoomView.askedKey run.adding run.rest) := by
  obtain ⟨channel, rest, adding, echo, replies⟩ := run
  cases adding with
  | true =>
    cases rest with
    | nil => exact .nothing houses rfl rfl rfl
    | cons key rest => exact ⟨rfl, rfl, rfl, rfl, rfl, houses.of_keys (fun _ => Iff.rfl) fun _ => Iff.rfl, rfl⟩
  | false =>
    exact ⟨rfl, rfl, rfl, rfl, rfl, houses.of_keys (fun _ => Iff.rfl) fun _ => Iff.rfl, rfl⟩

theorem does_limit (houses : t.Houses run.channel) :
    Does t run run.limit (RoomView.askedLimit run.adding run.rest) := by
  obtain ⟨channel, rest, adding, echo, replies⟩ := run
  cases adding with
  | true =>
    cases rest with
    | nil => exact .nothing houses rfl rfl rfl
    | cons raw rest =>
      simp only [limit, RoomView.askedLimit, if_true, List.head?_cons, Option.bind_some, List.tail_cons]
      cases parseU64 raw with
      | none => exact .nothing houses rfl rfl rfl
      | some limit => exact ⟨rfl, rfl, rfl, rfl, rfl, houses.of_keys (fun _ => Iff.rfl) fun _ => Iff.rfl, rfl⟩
  | false =>
    exact ⟨rfl, rfl, rfl, rfl, rfl, houses.of_keys (fun _ => Iff.rfl) fun _ => Iff.rfl, rfl⟩

theorem does_flag (houses : t.Houses run.channel) (c : Char) :
    Does t run (run.flag c) (RoomView.askedFlag c run.adding, run.rest) := by
  obtain ⟨channel, rest, adding, echo, replies⟩ := run
  simp only [flag, RoomView.askedFlag]
  cases found : boolModes.find? fun mode => mode.letter = c with
  | none => exact .nothing houses rfl rfl rfl
  | some mode =>
    refine ⟨?_, rfl, rfl, rfl, rfl, houses.of_keys (fun _ => Iff.rfl) fun _ => Iff.rfl, rfl⟩
    simp only [Option.map_some, Option.elim_some, RoomView.change, found]
    rfl

theorem does_list (houses : t.Houses run.channel) (setBy : String) (setAt : UInt64) {c : Char}
    (isList : c = 'b' ∨ c = 'e' ∨ c = 'I') :
    Does t run (run.list setBy setAt c) ((t.view run.channel).askedMask c run.adding run.rest) := by
  obtain ⟨channel, rest, adding, echo, replies⟩ := run
  cases rest with
  | nil => exact .nothing houses rfl rfl rfl
  | cons raw rest =>
    have current : (t.view channel).masks c = ChannelEntry.masks
        (if c = 'b' then channel.bans else if c = 'e' then channel.exceptions else channel.invex) := by
      rcases isList with rfl | rfl | rfl <;> rfl
    have stored : ∀ changed : List Ban, t.view (if c = 'b' then { channel with bans := changed }
        else if c = 'e' then { channel with exceptions := changed } else { channel with invex := changed }) =
          (t.view channel).setMasks c (ChannelEntry.masks changed) := by
      intro changed
      rcases isList with rfl | rfl | rfl <;> rfl
    have kept : ∀ changed : List Ban, t.Houses (if c = 'b' then { channel with bans := changed }
        else if c = 'e' then { channel with exceptions := changed } else { channel with invex := changed }) := by
      intro changed
      rcases isList with rfl | rfl | rfl <;> exact houses.of_keys (fun _ => Iff.rfl) fun _ => Iff.rfl
    have named : ∀ changed : List Ban, (if c = 'b' then { channel with bans := changed }
        else if c = 'e' then { channel with exceptions := changed }
        else { channel with invex := changed } : ChannelEntry).name = channel.name := by
      intro changed
      rcases isList with rfl | rfl | rfl <;> rfl
    simp only [list, RoomView.askedMask]
    rw [current]
    -- whether the list changes decides whether anything is passed on
    generalize (if c = 'b' then channel.bans else if c = 'e' then channel.exceptions else channel.invex) = masks at *
    obtain ⟨listed, applies⟩ := masks_applyListMode masks adding (normalizeBanMask raw) setBy setAt
    cases applied : (applyListMode masks adding (normalizeBanMask raw) setBy setAt).2 with
    | true =>
      rw [if_neg (applies.mp applied)]
      refine ⟨?_, rfl, rfl, rfl, rfl, kept _, named _⟩
      rw [stored, listed, ← current]
      rfl
    | false =>
      have same := fun differs => Bool.false_ne_true (applied.symm.trans (applies.mpr differs))
      rw [if_pos (not_not.mp same)]
      refine ⟨?_, rfl, rfl, rfl, (List.append_nil _).symm, kept _, named _⟩
      rw [stored, listed, changeMasks_eq_self (not_not.mp same), ← current]
      rcases isList with rfl | rfl | rfl <;> rfl

theorem does_letter (houses : t.Houses run.channel) (id : UInt64) (display : String) {c : Char} (plus : c ≠ '+')
    (minus : c ≠ '-') :
    Does t run (run.letter t id display c) ((t.view run.channel).asked t.uidOfNick c run.adding run.rest) := by
  rw [letter, if_neg plus, if_neg minus, RoomView.asked]
  split
  · exact does_status houses display c
  split
  · exact does_key houses
  split
  · exact does_limit houses
  split
  · exact does_list houses _ _ ‹_›
  · exact does_flag houses c

/-- What a mode string did to a run: the changes it made. -/
structure Did (t : Tables) (run run' : ModeRun) (changes : List ModeChange) : Prop where
  view : t.view run'.channel = changes.foldl RoomView.change (t.view run.channel)
  accum : run'.echo.accum = changes.foldl (fun accum change => accum.push change.adding change.letter) run.echo.accum
  wire : run'.echo.wire = run.echo.wire ++ changes.flatMap ModeChange.wire
  name : run'.channel.name = run.channel.name

theorem Did.none (t : Tables) (run : ModeRun) : Did t run run [] :=
  ⟨rfl, rfl, (List.append_nil _).symm, rfl⟩

/-- The changes after those of one letter. -/
theorem Does.did {run' run'' : ModeRun} {asked : Option ModeChange × List String} {changes : List ModeChange}
    (first : Does t run run' asked) (later : Did t run' run'' changes) :
    Did t run run'' (asked.1.toList ++ changes) := by
  obtain ⟨change, args⟩ := asked
  cases change with
  | none =>
    refine ⟨?_, ?_, ?_, later.name.trans first.name⟩
    · rw [later.view, first.view]
      rfl
    · rw [later.accum, first.accum]
      rfl
    · rw [later.wire, first.wire, Option.elim_none, List.append_nil]
      rfl
  | some change =>
    refine ⟨?_, ?_, ?_, later.name.trans first.name⟩
    · rw [later.view, first.view]
      rfl
    · rw [later.accum, first.accum]
      rfl
    · rw [later.wire, first.wire, List.append_assoc]
      rfl

/-- The loop makes the changes that the command means. -/
theorem did_letters (houses : t.Houses run.channel) (id : UInt64) (display : String) (flags : List Char) :
    Did t run (letters t id display flags run)
      (RoomView.changes t.uidOfNick flags (maxModeChanges - run.echo.accum.applied) run.adding run.rest
        (t.view run.channel)) := by
  induction flags generalizing run with
  | nil => exact .none t run
  | cons c flags ih =>
    rw [letters]
    -- what is left of the budget counts the changes applied, not the letters read
    by_cases full : maxModeChanges ≤ run.echo.accum.applied
    · rw [if_pos full, Nat.sub_eq_zero_of_le full]
      exact .none t run
    obtain ⟨budget, left⟩ : ∃ budget, maxModeChanges - run.echo.accum.applied = budget + 1 :=
      Nat.exists_eq_add_one.mpr (by omega)
    rw [if_neg full, left, RoomView.changes]
    by_cases plus : c = '+'
    · have later := @ih { run with adding := true } houses
      rw [if_pos plus, ← left, letter, if_pos plus]
      exact ⟨later.view, later.accum, later.wire, later.name⟩
    by_cases minus : c = '-'
    · have later := @ih { run with adding := false } houses
      rw [if_neg plus, if_pos minus, ← left, letter, if_neg plus, if_pos minus]
      exact ⟨later.view, later.accum, later.wire, later.name⟩
    rw [if_neg plus, if_neg minus]
    have first := does_letter houses id display plus minus
    have later := ih first.houses
    have whole := first.did later
    rw [first.view, first.adding, first.rest, first.accum] at whole
    generalize (t.view run.channel).asked t.uidOfNick c run.adding run.rest = asked at whole ⊢
    obtain ⟨change, args⟩ := asked
    cases change with
    | none =>
      rw [← left]
      exact whole
    | some change =>
      have fewer : maxModeChanges - (run.echo.accum.push change.adding change.letter).applied = budget := by
        show maxModeChanges - (run.echo.accum.applied + 1) = budget
        omega
      rw [← fewer]
      exact whole

end ModeRun

/-! ## The relayed flags -/

namespace RoomView

/-- A letter asks only for changes it is read as, and of members. -/
theorem asked_sound {uidOf : String → Option String} {view : RoomView} {c : Char} {adding : Bool}
    {args : List String} {change : ModeChange} (asks : (view.asked uidOf c adding args).1 = some change) :
    change.Sound view := by
  rw [asked] at asks
  split at asks
  · rename_i isStatus
    cases args with
    | nil => cases asks
    | cons nick rest =>
      obtain ⟨uid, resolved, rfl⟩ := Option.map_eq_some_iff.mp asks
      exact ⟨isStatus, (Option.filter_eq_some_iff.mp resolved).2⟩
  split at asks
  · cases adding with
    | true =>
      obtain ⟨key, -, rfl⟩ := Option.map_eq_some_iff.mp asks
      trivial
    | false =>
      cases asks
      trivial
  split at asks
  · cases adding with
    | true =>
      obtain ⟨limit, -, rfl⟩ := Option.map_eq_some_iff.mp asks
      trivial
    | false =>
      cases asks
      trivial
  split at asks
  · rename_i isList
    cases args with
    | nil => cases asks
    | cons raw rest =>
      simp only [askedMask] at asks
      split at asks
      · cases asks
      · cases asks
        exact isList
  · obtain ⟨mode, found, rfl⟩ := Option.map_eq_some_iff.mp asks
    exact Option.isSome_of_mem found

/-- Nobody joins or leaves by a mode change. -/
theorem change_status_isSome (view : RoomView) (change : ModeChange) (uid : String) :
    ((view.change change).status uid).isSome = (view.status uid).isSome := by
  cases change with
  | flag letter adding =>
    simp only [RoomView.change]
    split <;> rfl
  | status letter adding target =>
    simp only [RoomView.change]
    split
    · rename_i same
      rw [Option.isSome_map, same]
    · rfl
  | key value => rfl
  | limit value => rfl
  | list letter adding mask =>
    simp only [RoomView.change, setMasks]
    split
    · rfl
    · split <;> rfl

end RoomView

theorem ModeChange.Sound.of_members {change : ModeChange} {view view' : RoomView}
    (members : ∀ uid, (view.status uid).isSome = (view'.status uid).isSome) (sound : change.Sound view) :
    change.Sound view' := by
  cases change with
  | status letter adding uid => exact ⟨sound.1, members uid ▸ sound.2⟩
  | flag letter adding => exact sound
  | key value => trivial
  | limit value => trivial
  | list letter adding mask => exact sound

theorem RoomView.changes_sound (uidOf : String → Option String) (flags : List Char) (budget : Nat) (adding : Bool)
    (args : List String) (view : RoomView) :
    ∀ change ∈ changes uidOf flags budget adding args view, change.Sound view := by
  induction flags generalizing budget adding args view with
  | nil => exact fun change member => absurd member List.not_mem_nil
  | cons c flags ih =>
    cases budget with
    | zero => exact fun change member => absurd member List.not_mem_nil
    | succ budget =>
      rw [changes]
      split
      · exact ih _ _ _ _
      split
      · exact ih _ _ _ _
      split
      · exact ih _ _ _ _
      · rename_i first rest asks
        intro change member
        rcases List.mem_cons.mp member with rfl | later
        · exact asked_sound (congrArg Prod.fst asks)
        · exact (ih _ _ _ _ change later).of_members fun uid => view.change_status_isSome first uid

namespace ModeChange

/-- The flags of changes, with a sign where it is not the one before. -/
def rendered : Option Bool → List ModeChange → List Char
  | _, [] => []
  | sign, change :: changes =>
    (if sign = some change.adding then [] else [if change.adding then '+' else '-']) ++
      change.letter :: rendered (some change.adding) changes

theorem foldl_push_flags (changes : List ModeChange) (accum : ModeAccum) :
    (changes.foldl (fun accum change => accum.push change.adding change.letter) accum).flags.toList =
      accum.flags.toList ++ rendered accum.sign changes := by
  induction changes generalizing accum with
  | nil => exact (List.append_nil _).symm
  | cons change changes ih =>
    rw [List.foldl_cons, ih, rendered]
    simp only [ModeAccum.push]
    split
    · simp
    · simp

/-! ## The other servers -/

/-- The step that a change is read as, given how its UID is resolved. -/
def step (resolve : Char → Bool → String → Option ModeStep) : ModeChange → Option ModeStep
  | .flag letter adding => some (.bool letter adding)
  | .status letter adding uid => resolve letter adding uid
  | .key value => some (.key value.isSome value)
  | .limit value => some (.limit value.isSome value)
  | .list letter adding mask => some (.list letter adding mask)

/-- One letter is read as its change. -/
theorem modeSteps_letter (resolve : Char → Bool → String → Option ModeStep) {change : ModeChange} {view : RoomView}
    (sound : change.Sound view) (flags : List Char) (args : List String) :
    modeSteps resolve (change.letter :: flags) change.adding (change.wire ++ args) =
      (change.step resolve).toList ++ modeSteps resolve flags change.adding args := by
  cases change with
  | flag letter adding =>
    obtain ⟨mode, found⟩ := Option.isSome_iff_exists.mp sound
    have same : mode.letter = letter := by simpa using List.find?_some found
    have listed := List.mem_of_find?_eq_some found
    subst same
    simp only [boolModes, List.mem_cons, List.not_mem_nil, or_false] at listed
    rcases listed with rfl | rfl | rfl | rfl | rfl <;> rfl
  | status letter adding uid =>
    obtain ⟨isStatus, -⟩ := sound
    rcases isStatus with rfl | rfl <;> rfl
  | key value => cases value <;> rfl
  | limit value =>
    cases value with
    | none => rfl
    | some limit =>
      show modeSteps resolve ('l' :: flags) true (printU64 limit :: args) = _
      simp [modeSteps, step, adding]
  | list letter adding mask =>
    rcases sound with rfl | rfl | rfl <;> rfl

/-- The flags and arguments of changes are read as these changes. -/
theorem modeSteps_rendered (resolve : Char → Bool → String → Option ModeStep) {view : RoomView}
    {changes : List ModeChange} (sound : ∀ change ∈ changes, change.Sound view) {sign : Option Bool} {adding : Bool}
    (signed : ∀ before, sign = some before → before = adding) :
    modeSteps resolve (rendered sign changes) adding (changes.flatMap wire) =
      changes.flatMap fun change => (change.step resolve).toList := by
  induction changes generalizing sign adding with
  | nil => rfl
  | cons change changes ih =>
    obtain ⟨first, later⟩ := List.forall_mem_cons.mp sound
    have rest := @ih later (some change.adding) change.adding fun before same => (Option.some.inj same).symm
    rw [rendered, List.flatMap_cons, List.flatMap_cons, ← rest, ← modeSteps_letter resolve first]
    split
    · rename_i same
      rw [← signed _ same]
      rfl
    · cases change.adding <;> rfl

end ModeChange

namespace ModeStep

/-- The step a change is read as makes that change, where the server houses the members. -/
theorem apply_change {t : Tables} {channel : ChannelEntry} (houses : t.Houses channel) {change : ModeChange}
    (sound : change.Sound (t.view channel)) (setter : String) (now : UInt64) (echo : ModeEcho) :
    let after := ((change.step t.statusStep).toList.foldl (apply setter now) (channel, echo)).1
    t.view after = (t.view channel).change change ∧ t.Houses after := by
  cases change with
  | flag letter adding =>
    obtain ⟨mode, found⟩ := Option.isSome_iff_exists.mp sound
    simp only [ModeChange.step, Option.toList_some, List.foldl_cons, List.foldl_nil, apply, found, RoomView.change]
    exact ⟨rfl, houses.of_keys (fun _ => Iff.rfl) fun _ => Iff.rfl⟩
  | status letter adding uid =>
    -- the far side resolves the UID again: its own users first, then those of others
    by_cases foreign : uid ∈ channel.remoteMembers
    · obtain ⟨notOwn, known⟩ := houses.remoteMembers uid foreign
      obtain ⟨user, knownAs⟩ := Option.isSome_iff_exists.mp known
      simp only [ModeChange.step, Tables.statusStep, notOwn, knownAs, Option.map_some, Option.toList_some,
        List.foldl_cons, List.foldl_nil, apply, if_pos foreign]
      exact ⟨t.view_changeRemote foreign letter adding,
        houses.of_keys (fun _ => Iff.rfl) fun _ => Table.mem_modify⟩
    · obtain ⟨id, member, rfl⟩ := Tables.member_local sound.2 foreign
      have indexed : t.indexed id = some id := if_pos (houses.members id member)
      simp only [ModeChange.step, Tables.statusStep, t.localIdOfUid_localUid, indexed, Option.map_some,
        Option.toList_some, List.foldl_cons, List.foldl_nil, apply, if_pos member]
      exact ⟨t.view_changeLocal houses letter adding id,
        houses.of_keys (fun _ => Table.mem_modify) fun _ => Iff.rfl⟩
  | key value => exact ⟨rfl, houses.of_keys (fun _ => Iff.rfl) fun _ => Iff.rfl⟩
  | limit value => exact ⟨rfl, houses.of_keys (fun _ => Iff.rfl) fun _ => Iff.rfl⟩
  | list letter adding mask =>
    have listed := fun list : List Ban => (masks_applyListMode list adding mask setter now).1
    simp only [ModeChange.step, Option.toList_some, List.foldl_cons, List.foldl_nil, apply, RoomView.change]
    rcases sound with rfl | rfl | rfl
    · exact ⟨congrArg (fun bans => { t.view channel with bans }) (listed channel.bans),
        houses.of_keys (fun _ => Iff.rfl) fun _ => Iff.rfl⟩
    · exact ⟨congrArg (fun exceptions => { t.view channel with exceptions }) (listed channel.exceptions),
        houses.of_keys (fun _ => Iff.rfl) fun _ => Iff.rfl⟩
    · exact ⟨congrArg (fun invex => { t.view channel with invex }) (listed channel.invex),
        houses.of_keys (fun _ => Iff.rfl) fun _ => Iff.rfl⟩

/-- The steps changes are read as make these changes, one after the other. -/
theorem apply_changes {t : Tables} {channel : ChannelEntry} (houses : t.Houses channel) {changes : List ModeChange}
    (sound : ∀ change ∈ changes, change.Sound (t.view channel)) (setter : String) (now : UInt64) (echo : ModeEcho) :
    t.view ((changes.flatMap fun change => (change.step t.statusStep).toList).foldl (apply setter now)
      (channel, echo)).1 = changes.foldl RoomView.change (t.view channel) := by
  induction changes generalizing channel echo with
  | nil => rfl
  | cons change changes ih =>
    obtain ⟨first, later⟩ := List.forall_mem_cons.mp sound
    obtain ⟨view, kept⟩ := apply_change houses first setter now echo
    rw [List.flatMap_cons, List.foldl_append, List.foldl_cons, ← view]
    refine ih kept ?_ _
    intro other member
    rw [view]
    exact (later other member).of_members fun uid => ((t.view channel).change_status_isSome change uid).symm

end ModeStep

/-! ## Two servers with the same view -/

/-- Views with the same members, statuses and modes, and lists of the same masks. -/
structure RoomView.SameModes (left right : RoomView) : Prop where
  modes : left.modes = right.modes
  status : left.status = right.status
  bans : left.bans.Perm right.bans
  exceptions : left.exceptions.Perm right.exceptions
  invex : left.invex.Perm right.invex

theorem changeMasks_perm {left right : List String} (same : left.Perm right) (adding : Bool) (mask : String) :
    (changeMasks left adding mask).Perm (changeMasks right adding mask) := by
  rw [changeMasks, changeMasks]
  split
  · simp only [addMask, same.length_eq, same.mem_iff]
    split
    · exact same.append_right [mask]
    · exact same
  · exact same.filter _

namespace RoomView.SameModes

theorem change {left right : RoomView} (same : left.SameModes right) (change : ModeChange) :
    (left.change change).SameModes (right.change change) := by
  cases change with
  | flag letter adding =>
    simp only [RoomView.change, same.modes]
    split
    · exact ⟨rfl, same.status, same.bans, same.exceptions, same.invex⟩
    · exact same
  | status letter adding uid =>
    refine ⟨same.modes, ?_, same.bans, same.exceptions, same.invex⟩
    simp only [RoomView.change, same.status]
  | key value =>
    refine ⟨?_, same.status, same.bans, same.exceptions, same.invex⟩
    simp only [RoomView.change, same.modes]
  | limit value =>
    refine ⟨?_, same.status, same.bans, same.exceptions, same.invex⟩
    simp only [RoomView.change, same.modes]
  | list letter adding mask =>
    simp only [RoomView.change, setMasks, masks]
    split
    · exact ⟨same.modes, same.status, changeMasks_perm same.bans adding mask, same.exceptions, same.invex⟩
    · split
      · exact ⟨same.modes, same.status, same.bans, changeMasks_perm same.exceptions adding mask, same.invex⟩
      · exact ⟨same.modes, same.status, same.bans, same.exceptions, changeMasks_perm same.invex adding mask⟩

theorem changes {left right : RoomView} (same : left.SameModes right) (changes : List ModeChange) :
    (changes.foldl RoomView.change left).SameModes (changes.foldl RoomView.change right) := by
  induction changes generalizing left right with
  | nil => exact same
  | cons change changes ih => exact ih (same.change change)

end RoomView.SameModes

end Ferrixd
