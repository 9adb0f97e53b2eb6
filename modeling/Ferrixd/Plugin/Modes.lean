import Ferrixd.Command.Agreement
import Ferrixd.Invariant.Links
import Ferrixd.Plugin.Host

/-! # Mode changes of plugins

A plugin's mode change is read twice: nicks are resolved in one pass, and what is found is applied in another.  If
somebody is not found nothing is applied; somebody who is not in the channel is passed over. -/

namespace Ferrixd

open Protocol

/-! ## What the flags take -/

/-- The letter takes a parameter: a nick, a mask, or a key or limit to set. -/
def takesArg (c : Char) (adding : Bool) : Bool :=
  c = 'o' || c = 'v' || c = 'b' || c = 'e' || c = 'I' || (adding && (c = 'k' || c = 'l'))

/-- The parameters that the flags take, each with its letter; one that is missing is `none`. -/
def takenArgs : List Char → Bool → List String → List (Char × Option String)
  | [], _, _ => []
  | c :: flags, adding, rest =>
    if c = '+' then takenArgs flags true rest
    else if c = '-' then takenArgs flags false rest
    else if takesArg c adding then (c, rest.head?) :: takenArgs flags adding rest.tail
    else takenArgs flags adding rest

namespace Tables

/-- A parameter is missing, or the nick of nobody. -/
def Unresolved (t : Tables) (flags : String) (args : List String) : Prop :=
  ∃ taken ∈ takenArgs flags.toList true args,
    taken.2 = none ∨ (taken.1 = 'o' ∨ taken.1 = 'v') ∧ taken.2.bind t.uidOfNick = none

/-- No user of another server has a UID that is read as the one of a client here. -/
def Foreign (t : Tables) : Prop :=
  ∀ folded user, t.findRemoteUser folded = some user → t.localIdOfUid user.uid = none

/-- This is kept as long as peers introduce no user with such a UID. -/
theorem LinkInvariant.foreign {t : Tables} {info : ServerInfo} (inv : t.LinkInvariant info) : t.Foreign := by
  intro folded user found
  have bound : t.remoteByUid.lookup user.uid = some folded :=
    (inv.registry.inverse user.uid folded).mpr ⟨user, found, rfl⟩
  cases own : t.localIdOfUid user.uid with
  | none => rfl
  | some id =>
    rw [inv.ownUnbound user.uid (Option.isSome_iff_exists.mpr ⟨id, own⟩)] at bound
    cases bound

end Tables

namespace Server

/-- A parameter is taken and written as `write` says, or there is none. -/
def takeWire (write : String → Option String) (args : List String) (later : List String → Option (List String)) :
    Option (List String) :=
  args.head?.bind fun arg => (write arg).bind fun word => (later args.tail).map (word :: ·)

/-- One letter takes a parameter or none. -/
theorem pluginWire_cons (t : Tables) {c : Char} (plus : c ≠ '+') (minus : c ≠ '-') (flags : List Char)
    (adding : Bool) (args : List String) :
    pluginWire t (c :: flags) adding args =
      if c = 'o' ∨ c = 'v' then takeWire t.uidOfNick args (pluginWire t flags adding)
      else if c = 'k' ∨ c = 'l' then
        if adding then takeWire some args (pluginWire t flags adding) else pluginWire t flags adding args
      else if c = 'b' ∨ c = 'e' ∨ c = 'I' then
        takeWire (fun mask => some (normalizeBanMask mask)) args (pluginWire t flags adding)
      else pluginWire t flags adding args := by
  rw [pluginWire.eq_def]
  dsimp only
  rw [if_neg plus, if_neg minus]
  cases args <;> rfl

theorem takeWire_some {write : String → Option String} {args words : List String}
    {later : List String → Option (List String)} (taken : takeWire write args later = some words) :
    ∃ arg rest word more, args = arg :: rest ∧ words = word :: more ∧ write arg = some word ∧
      later rest = some more := by
  obtain ⟨arg, first, taken⟩ := Option.bind_eq_some_iff.mp taken
  obtain ⟨word, written, taken⟩ := Option.bind_eq_some_iff.mp taken
  obtain ⟨more, follows, rfl⟩ := Option.map_eq_some_iff.mp taken
  cases args with
  | nil => cases first
  | cons head rest =>
    cases first
    exact ⟨arg, rest, word, more, rfl, rfl, written, follows⟩

theorem takeWire_none_iff {write : String → Option String} {args : List String}
    {later : List String → Option (List String)} :
    takeWire write args later = none ↔
      (args.head? = none ∨ args.head?.bind write = none) ∨ later args.tail = none := by
  rw [takeWire]
  cases args with
  | nil => simp
  | cons arg rest =>
    rw [List.head?_cons, Option.bind_some, Option.bind_some]
    cases write arg <;> simp

theorem takeWire_some_none_iff {write : String → String} {args : List String}
    {later : List String → Option (List String)} :
    takeWire (fun arg => some (write arg)) args later = none ↔ args.head? = none ∨ later args.tail = none := by
  rw [takeWire_none_iff]
  cases args <;> simp

/-- The wire form is given up exactly if a parameter is missing or the nick of nobody. -/
theorem pluginWire_none_iff (t : Tables) (flags : List Char) (adding : Bool) (args : List String) :
    pluginWire t flags adding args = none ↔ ∃ taken ∈ takenArgs flags adding args,
      taken.2 = none ∨ (taken.1 = 'o' ∨ taken.1 = 'v') ∧ taken.2.bind t.uidOfNick = none := by
  induction flags generalizing adding args with
  | nil => simp [pluginWire, takenArgs]
  | cons c flags ih =>
    by_cases plus : c = '+'
    · subst plus
      exact ih true args
    by_cases minus : c = '-'
    · subst minus
      exact ih false args
    rw [pluginWire_cons t plus minus, takenArgs, if_neg plus, if_neg minus]
    by_cases status : c = 'o' ∨ c = 'v'
    · have takes : takesArg c adding = true := by rcases status with rfl | rfl <;> rfl
      rw [if_pos status, if_pos takes, takeWire_none_iff, ih, List.exists_mem_cons_iff]
      simp only [status, true_and]
    rw [if_neg status]
    by_cases setting : c = 'k' ∨ c = 'l'
    · rw [if_pos setting]
      cases adding with
      | true =>
        have takes : takesArg c true = true := by rcases setting with rfl | rfl <;> rfl
        rw [if_pos rfl, if_pos takes, @takeWire_some_none_iff fun arg => arg, ih, List.exists_mem_cons_iff]
        simp only [status, false_and, or_false]
      | false =>
        have takes : ¬ takesArg c false = true := by rcases setting with rfl | rfl <;> decide
        rw [if_neg Bool.false_ne_true, if_neg takes]
        exact ih false args
    rw [if_neg setting]
    by_cases list : c = 'b' ∨ c = 'e' ∨ c = 'I'
    · have takes : takesArg c adding = true := by rcases list with rfl | rfl | rfl <;> rfl
      rw [if_pos list, if_pos takes, takeWire_some_none_iff, ih, List.exists_mem_cons_iff]
      simp only [status, false_and, or_false]
    · -- a letter of no parameter is passed on as it is
      have takes : ¬ takesArg c adding = true := by
        simp only [not_or] at status setting list
        simp [takesArg, status, setting, list]
      rw [if_neg list, if_neg takes]
      exact ih adding args

end Server

/-! ## What applies -/

namespace Tables

theorem statusStep_local (t : Tables) (c : Char) (adding : Bool) (id : UInt64) :
    t.statusStep c adding (t.localUid id) = (t.indexed id).map fun other =>
      .status c adding (.localClient other) (t.entry other).nick (t.localUid id) := by
  simp only [statusStep, localIdOfUid_localUid]

theorem statusStep_foreign {t : Tables} {uid : String} (foreign : t.localIdOfUid uid = none) (c : Char)
    (adding : Bool) :
    t.statusStep c adding uid = (t.remoteUserByUid uid).map fun user =>
      .status c adding (.remoteUser uid) user.nick uid := by
  simp only [statusStep, foreign]

end Tables

/-- A mode run that stands where the steps have come to. -/
def ModeRun.resume (state : ChannelEntry × ModeEcho) (adding : Bool) (rest : List String) : ModeRun :=
  { channel := state.1, rest, adding, echo := state.2 }

namespace ModeStep

open ModeRun (Does resume)

variable {t : Tables} {state : ChannelEntry × ModeEcho}

theorem foldl_skipped {setter : String} {now : UInt64} {step : Option ModeStep}
    (skipped : ∀ taken ∈ step, apply setter now state taken = state) :
    step.toList.foldl (apply setter now) state = state := by
  cases step with
  | none => rfl
  | some step => exact skipped step rfl

/-- A nick that is resolved is applied if it is a member's, and passed over if not. -/
theorem does_statusStep (houses : t.Houses state.1) (foreign : t.Foreign) (setter : String) (now : UInt64) (c : Char)
    (adding : Bool) {nick uid : String} (rest : List String) (resolved : t.uidOfNick nick = some uid) :
    Does t (resume state adding (nick :: rest))
      (resume ((t.statusStep c adding uid).toList.foldl (apply setter now) state) adding rest)
      ((t.view state.1).askedStatus t.uidOfNick c adding (nick :: rest)) := by
  obtain ⟨channel, echo⟩ := state
  rw [RoomView.askedStatus, resolved, Option.filter_some]
  rw [Tables.uidOfNick] at resolved
  cases client : t.findClient (t.fold nick) with
  | some id =>
    rw [client] at resolved
    cases resolved
    rw [houses.status_local, t.statusStep_local]
    -- a local client of that nick comes first, and one elsewhere is not asked for then
    by_cases member : id ∈ channel.members
    · have indexed : t.indexed id = some id := if_pos (houses.members id member)
      rw [if_pos (AList.lookup_isSome.mpr member), indexed]
      simp only [Option.map_some, Option.toList_some, List.foldl_cons, List.foldl_nil, apply, if_pos member]
      exact ⟨t.view_changeLocal houses c adding id, rfl, rfl, rfl, rfl,
        houses.of_keys (fun _ => Table.mem_modify) fun _ => Iff.rfl, rfl⟩
    · have absent : ¬ (channel.members.lookup id).isSome = true := fun some => member (AList.lookup_isSome.mp some)
      rw [if_neg absent, foldl_skipped]
      · exact .nothing houses rfl rfl rfl
      · intro step taken
        obtain ⟨other, indexed, rfl⟩ := Option.map_eq_some_iff.mp taken
        rw [Tables.indexed] at indexed
        split at indexed
        · cases indexed
          exact if_neg member
        · cases indexed
  | none =>
    rw [client] at resolved
    obtain ⟨user, found, rfl⟩ := Option.map_eq_some_iff.mp resolved
    rw [Tables.statusStep_foreign (foreign _ user found)]
    by_cases member : user.uid ∈ channel.remoteMembers
    · obtain ⟨known, isKnown⟩ := Option.isSome_iff_exists.mp (houses.remoteMembers _ member).2
      rw [if_pos ((houses.status_remote found).mpr member), isKnown]
      simp only [Option.map_some, Option.toList_some, List.foldl_cons, List.foldl_nil, apply, if_pos member]
      exact ⟨t.view_changeRemote member c adding, rfl, rfl, rfl, rfl,
        houses.of_keys (fun _ => Iff.rfl) fun _ => Table.mem_modify, rfl⟩
    · rw [if_neg (mt (houses.status_remote found).mp member), foldl_skipped]
      · exact .nothing houses rfl rfl rfl
      · intro step taken
        obtain ⟨known, _, rfl⟩ := Option.map_eq_some_iff.mp taken
        exact if_neg member

theorem does_flagStep (houses : t.Houses state.1) (setter : String) (now : UInt64) (c : Char) (adding : Bool)
    (args : List String) :
    Does t (resume state adding args)
      (resume ((if boolModes.any fun mode => mode.letter = c then [ModeStep.bool c adding] else []).foldl
        (apply setter now) state) adding args) (RoomView.askedFlag c adding, args) := by
  obtain ⟨channel, echo⟩ := state
  have flag := @ModeRun.does_flag t (resume (channel, echo) adding args) houses c
  have listed : (boolModes.any fun mode => mode.letter = c) = (boolModes.find? fun mode => mode.letter = c).isSome := by
    rw [List.isSome_find?]
  rw [listed]
  rw [ModeRun.flag] at flag
  cases found : boolModes.find? fun mode => mode.letter = c with
  | none =>
    rw [found] at flag
    exact ⟨flag.view, flag.rest, flag.adding, flag.accum, flag.wire, flag.houses, flag.name⟩
  | some mode =>
    rw [found] at flag
    rw [Option.isSome_some, if_pos rfl, List.foldl_cons, List.foldl_nil, apply, found]
    exact flag

/-- What is found for one letter is applied as the letter asks, and the steps of the others follow. -/
theorem does_pluginLetter (houses : t.Houses state.1) (foreign : t.Foreign) (setter : String) (now : UInt64) {c : Char}
    (plus : c ≠ '+') (minus : c ≠ '-') {flags : List Char} {adding : Bool} {args words : List String}
    (found : Server.pluginWire t (c :: flags) adding args = some words) :
    ∃ steps later,
      modeSteps t.statusStep (c :: flags) adding words = steps ++ modeSteps t.statusStep flags adding later ∧
      Server.pluginWire t flags adding ((t.view state.1).asked t.uidOfNick c adding args).2 = some later ∧
      Does t (resume state adding args)
        (resume (steps.foldl (apply setter now) state) adding ((t.view state.1).asked t.uidOfNick c adding args).2)
        ((t.view state.1).asked t.uidOfNick c adding args) := by
  rw [Server.pluginWire_cons t plus minus] at found
  rw [RoomView.asked]
  -- the letters in the order in which both sides ask for them
  by_cases status : c = 'o' ∨ c = 'v'
  · rw [if_pos status] at found ⊢
    obtain ⟨nick, rest, uid, later, rfl, rfl, resolved, follows⟩ := Server.takeWire_some found
    refine ⟨_, later, ?_, follows, does_statusStep houses foreign setter now c adding rest resolved⟩
    rw [modeSteps.eq_def]
    simp only [if_neg plus, if_neg minus, if_pos status]
  rw [if_neg status] at found ⊢
  by_cases key : c = 'k'
  · subst key
    rw [if_pos (.inl rfl)] at found
    have does := @ModeRun.does_key t (resume state adding args) houses
    cases adding with
    | true =>
      obtain ⟨key, rest, word, later, rfl, rfl, same, follows⟩ := Server.takeWire_some found
      cases same
      exact ⟨[.key true (some key)], later, rfl, follows, does⟩
    | false => exact ⟨[.key false none], words, rfl, found, does⟩
  rw [if_neg key]
  by_cases limit : c = 'l'
  · subst limit
    rw [if_pos (.inr rfl)] at found
    have does := @ModeRun.does_limit t (resume state adding args) houses
    cases adding with
    | true =>
      obtain ⟨raw, rest, word, later, rfl, rfl, same, follows⟩ := Server.takeWire_some found
      cases same
      refine ⟨_, later, rfl, follows, ?_⟩
      rw [ModeRun.limit] at does
      cases parsed : parseU64 raw with
      | none =>
        simp only [resume, if_true, parsed] at does
        exact does
      | some limit =>
        simp only [resume, if_true, parsed] at does
        exact does
    | false => exact ⟨[.limit false none], words, rfl, found, does⟩
  rw [if_neg limit]
  rw [if_neg (not_or.mpr ⟨key, limit⟩)] at found
  by_cases list : c = 'b' ∨ c = 'e' ∨ c = 'I'
  · rw [if_pos list] at found ⊢
    have does := @ModeRun.does_list t (resume state adding args) houses setter now c list
    obtain ⟨raw, rest, word, later, rfl, rfl, same, follows⟩ := Server.takeWire_some found
    cases same
    refine ⟨[.list c adding (normalizeBanMask raw)], later, ?_, follows, does⟩
    rw [modeSteps.eq_def]
    simp only [if_neg plus, if_neg minus, if_neg status, if_neg key, if_neg limit, if_pos list, List.singleton_append]
  · rw [if_neg list] at found ⊢
    refine ⟨_, words, ?_, found, does_flagStep houses setter now c adding args⟩
    rw [modeSteps.eq_def]
    simp only [if_neg plus, if_neg minus, if_neg status, if_neg key, if_neg limit, if_neg list]
    split <;> rfl

/-- What is found for a plugin's flags is applied as the flags ask. -/
theorem did_pluginWire (houses : t.Houses state.1) (foreign : t.Foreign) (setter : String) (now : UInt64)
    {flags : List Char} {budget : Nat} (enough : flags.length ≤ budget) {adding : Bool} {args words : List String}
    (found : Server.pluginWire t flags adding args = some words) :
    ∃ rest, ModeRun.Did t (resume state adding args)
      (resume ((modeSteps t.statusStep flags adding words).foldl (apply setter now) state) adding rest)
      (RoomView.changes t.uidOfNick flags budget adding args (t.view state.1)) := by
  induction flags generalizing state budget adding args words with
  | nil => exact ⟨args, .none t _⟩
  | cons c flags ih =>
    obtain ⟨budget, rfl⟩ : ∃ before, budget = before + 1 := Nat.exists_eq_add_one.mpr (by simp at enough; omega)
    have fewer : flags.length ≤ budget := Nat.le_of_succ_le_succ enough
    rw [RoomView.changes]
    by_cases plus : c = '+'
    · subst plus
      have follows : Server.pluginWire t flags true args = some words := found
      obtain ⟨rest, later⟩ := ih houses (fewer.trans (Nat.le_succ _)) follows
      exact ⟨rest, later.view, later.accum, later.wire, later.name⟩
    by_cases minus : c = '-'
    · subst minus
      have follows : Server.pluginWire t flags false args = some words := found
      obtain ⟨rest, later⟩ := ih houses (fewer.trans (Nat.le_succ _)) follows
      exact ⟨rest, later.view, later.accum, later.wire, later.name⟩
    rw [if_neg plus, if_neg minus]
    -- a letter does what it asks for, and the budget is never short
    obtain ⟨steps, after, split, follows, first⟩ := does_pluginLetter houses foreign setter now plus minus found
    rw [split, List.foldl_append]
    generalize (t.view state.1).asked t.uidOfNick c adding args = asked at *
    obtain ⟨change, args'⟩ := asked
    cases change with
    | none =>
      have same : t.view (steps.foldl (apply setter now) state).1 = t.view state.1 := first.view
      obtain ⟨rest, later⟩ := ih first.houses (fewer.trans (Nat.le_succ _)) follows
      rw [same] at later
      exact ⟨rest, first.did later⟩
    | some change =>
      have changed : t.view (steps.foldl (apply setter now) state).1 = (t.view state.1).change change := first.view
      obtain ⟨rest, later⟩ := ih first.houses fewer follows
      rw [changed] at later
      exact ⟨rest, first.did later⟩

end ModeStep

/-! ## The server of the plugin -/

/-- The changes that a plugin's flags mean. -/
def Tables.pluginChanges (t : Tables) (channel : ChannelEntry) (flags : String) (args : List String) :
    List ModeChange :=
  RoomView.changes t.uidOfNick flags.toList flags.toList.length true args (t.view channel)

/-- The frame that says what changes a plugin made. -/
def Tables.pluginFrame (t : Tables) (channel : ChannelEntry) (changes : List ModeChange) : LinkMessage :=
  .smode channel.name t.info.name channel.createdAt (String.ofList (ModeChange.rendered none changes))
    (changes.flatMap ModeChange.wire)

namespace Server

variable {s : Server}

/-- A mode change without a timestamp. -/
theorem applyModeChange_untimed {channelName : String} {channel : ChannelEntry}
    (found : s.findChannel (s.fold channelName) = some channel) (source flags : String) (args : List String) :
    let applied := ModeStep.applyAll (modeSteps s.statusStep flags.toList true args) (s.remoteSourceNick source)
      s.nowUnix channel
    let changed := { s.toTables with channels := s.channels.modify (s.fold channelName) fun _ => applied.1 }
    (s.applyModeChange channelName source 0 flags args).1.toTables =
        (if applied.2.accum.flags = "" then changed else changed.persisted (s.fold channelName)) ∧
      (s.applyModeChange channelName source 0 flags args).1.fx.frames = s.fx.frames ∧
      (s.applyModeChange channelName source 0 flags args).2 =
        if applied.2.accum.flags = "" then none
        else some (applied.2.accum.flags, applied.2.applied, applied.2.wire) := by
  -- the timestamp zero stands for none: neither side is the older one
  have even : channel.tsWinsOver 0 = false := by simp [ChannelEntry.tsWinsOver]
  have young : ¬ channel.tsLosesTo 0 = true := by simp [ChannelEntry.tsLosesTo]
  have kept : channel.reconciled 0 = channel := if_neg young
  have same : s.reconcileChannelTs (s.fold channelName) 0 = s := by
    rw [reconcileChannelTs, found]
    exact if_neg young
  have tables := applyModeChange_toTables found source 0 flags args
  rw [even, kept, if_neg Bool.false_ne_true] at tables
  refine ⟨tables, ?_⟩
  simp only [applyModeChange, found, even, same, kept, Bool.false_eq_true, if_false]
  split
  · refine ⟨?_, rfl⟩
    rw [modifyChannel_fx]
  · refine ⟨?_, rfl⟩
    rw [persistRegistered_fx, broadcast_frames, modifyChannel_fx]

/-- A plugin's mode change with a parameter missing or the nick of nobody does nothing at all. -/
theorem pluginMode_unresolved {flags : String} {args : List String} (unresolved : s.Unresolved flags args)
    (channel : String) : s.pluginMode channel flags args = s := by
  have none := (pluginWire_none_iff s.toTables flags.toList true args).mpr unresolved
  rw [pluginMode, none]
  cases s.findChannel (s.fold channel) <;> rfl

/-- Any other one makes the changes that its flags mean and tells them to every peer. -/
theorem pluginMode_spec {channel : String} {entry : ChannelEntry}
    (found : s.findChannel (s.fold entry.name) = some entry) (named : s.fold channel = s.fold entry.name)
    (houses : s.Houses entry) (foreign : s.Foreign) {flags : String} {args : List String}
    (resolved : ¬ s.Unresolved flags args) :
    (s.pluginMode channel flags args).info = s.info ∧
      (∃ changed, (s.pluginMode channel flags args).findChannel (s.fold entry.name) = some changed ∧
        s.view changed = (s.pluginChanges entry flags args).foldl RoomView.change (s.view entry)) ∧
      (s.pluginMode channel flags args).fx.frames =
        s.fx.frames ++ if s.pluginChanges entry flags args = [] then []
          else s.links.keys.map fun peer => (peer, s.pluginFrame entry (s.pluginChanges entry flags args)) := by
  obtain ⟨words, isWire⟩ := Option.ne_none_iff_exists'.mp
    (mt (pluginWire_none_iff s.toTables flags.toList true args).mp resolved)
  obtain ⟨rest, did⟩ := @ModeStep.did_pluginWire s.toTables (entry, {}) houses foreign (s.remoteSourceNick "*")
    s.nowUnix flags.toList _ (Nat.le_refl _) true args words isWire
  have untimed := applyModeChange_untimed found "*" flags words
  have applied : ModeStep.applyAll (modeSteps s.statusStep flags.toList true words) (s.remoteSourceNick "*") s.nowUnix
      entry = (modeSteps s.statusStep flags.toList true words).foldl (ModeStep.apply (s.remoteSourceNick "*") s.nowUnix)
        (entry, ({} : ModeEcho)) := rfl
  rw [applied] at untimed
  generalize (modeSteps s.statusStep flags.toList true words).foldl _ (entry, ({} : ModeEcho)) = state
    at did untimed
  obtain ⟨view, accum, wire, -⟩ := did
  change s.view state.1 = (s.pluginChanges entry flags args).foldl RoomView.change (s.view entry) at view
  change state.2.accum = (s.pluginChanges entry flags args).foldl
    (fun accum change => accum.push change.adding change.letter) ({} : ModeAccum) at accum
  change state.2.wire = [] ++ (s.pluginChanges entry flags args).flatMap ModeChange.wire at wire
  obtain ⟨flagsTold, unchanged⟩ := ModeChange.pushed_flags (s.pluginChanges entry flags args)
  rw [← accum] at flagsTold unchanged
  obtain ⟨tables, frames, result⟩ := untimed
  obtain ⟨channels, info, links⟩ := ite_persisted tables
  have here : (s.applyModeChange entry.name "*" 0 flags words).1.findChannel (s.fold entry.name) = some state.1 := by
    rw [Tables.findChannel, channels, Table.lookup_modify, if_pos rfl,
      show s.channels.lookup (s.fold entry.name) = some entry from found, Option.map_some]
  have age : state.1.createdAt = entry.createdAt := by
    have same := congrArg RoomView.createdAt view
    rw [ModeChange.change_createdAt] at same
    exact same
  rw [pluginMode, show s.findChannel (s.fold channel) = some entry from named ▸ found, isWire]
  dsimp only
  generalize s.applyModeChange entry.name "*" 0 flags words = outcome at *
  obtain ⟨later, told⟩ := outcome
  dsimp only at tables frames result channels info links here
  subst result
  by_cases silent : state.2.accum.flags = ""
  · rw [if_pos silent, if_pos (unchanged.mp silent), List.append_nil]
    exact ⟨info, ⟨state.1, here, view⟩, frames⟩
  · rw [if_neg silent, if_neg (mt unchanged.mpr silent)]
    dsimp only
    refine ⟨info, ⟨state.1, here, view⟩, ?_⟩
    -- the frame is told with the timestamp of the channel as stored
    have ts : later.channelTs entry.name = entry.createdAt := by
      have sameFold : later.fold entry.name = s.fold entry.name := by rw [Tables.fold, info, Tables.fold]
      rw [channelTs, sameFold, here, Option.map_some, age]
      rfl
    have message : LinkMessage.smode entry.name later.info.name (later.channelTs entry.name) state.2.accum.flags
        state.2.wire = s.pluginFrame entry (s.pluginChanges entry flags args) := by
      rw [ts, info, flagsTold, wire, List.nil_append]
      rfl
    rw [propagateToLinks_frames, recordChannelEvent_frames, frames]
    change s.fx.frames ++ later.links.keys.map (fun sid =>
      (sid, LinkMessage.smode _ later.info.name (later.channelTs _) _ _)) = _
    rw [message, links]

end Server

/-! ## The words of the frame -/

theorem splitOnP_clean {α : Type} (p : α → Bool) (xs : List α) :
    ∀ piece ∈ xs.splitOnP p, ∀ x ∈ piece, p x = false := by
  induction xs with
  | nil => simp
  | cons first rest ih =>
    rw [List.splitOnP_cons_eq_if_modifyHead]
    split
    · rintro piece member
      rcases List.mem_cons.mp member with rfl | later
      · exact fun x inPiece => absurd inPiece List.not_mem_nil
      · exact ih piece later
    · rename_i plain
      obtain ⟨head, tail, pieces⟩ := List.exists_cons_of_ne_nil (List.splitOnP_ne_nil p rest)
      rw [pieces] at ih ⊢
      rw [List.modifyHead_cons]
      rintro piece member x inPiece
      rcases List.mem_cons.mp member with rfl | later
      · rcases List.mem_cons.mp inPiece with rfl | inHead
        · exact Bool.eq_false_iff.mpr plain
        · exact ih head List.mem_cons_self x inHead
      · exact ih piece (List.mem_cons_of_mem _ later) x inPiece

/-- The words of an accepted mode string are parameters, if there is no NUL in them. -/
theorem parseModeString_words {raw flags : String} {args : List String}
    (accepted : parseModeString raw = some (flags, args)) :
    ∀ arg ∈ args, '\x00' ∉ arg.toList → Middle arg := by
  intro arg member nulFree
  rw [parseModeString] at accepted
  split at accepted
  · cases accepted
  · rename_i first words split
    split at accepted
    · cases accepted
    split at accepted
    · cases accepted
    · rename_i short
      cases accepted
      have among : arg ∈ splitWhitespace raw := split ▸ List.mem_cons_of_mem _ member
      obtain ⟨word, isWord, rfl⟩ := List.mem_map.mp among
      obtain ⟨piece, nonempty⟩ := List.mem_filter.mp isWord
      -- a word has no white space, and a leading colon is refused
      have solid := splitOnP_clean isWhitespace raw.toList word piece
      rw [String.toList_ofList] at nulFree
      refine ⟨?_, ?_, ?_⟩
      · rw [String.toList_ofList]
        simpa using nonempty
      · rw [String.toList_ofList]
        intro c inWord
        refine ⟨?_, fun nul => nulFree (nul ▸ inWord), ?_, ?_⟩
        all_goals
          rintro rfl
          exact absurd (solid _ inWord) (by decide)
      · intro colon
        obtain ⟨rest, shape⟩ := List.head?_eq_some_iff.mp colon
        have leads : startsWith (String.ofList word) ":" = true := by
          rw [startsWith, shape]
          exact Bool.and_eq_true_iff.mpr ⟨beq_self_eq_true ':', rfl⟩
        refine short (.inr (List.any_eq_true.mpr ⟨_, member, ?_⟩))
        rw [leads, Bool.or_true]

namespace ModeChange

/-- The words of a change are words of these parameters. -/
def From (args : List String) : ModeChange → Prop
  | .key value => ∀ key ∈ value, key ∈ args
  | .list _ _ mask => ∃ raw ∈ args, mask = normalizeBanMask raw
  | _ => True

theorem From.of_subset {args more : List String} {change : ModeChange} (source : change.From args)
    (subset : args ⊆ more) : change.From more := by
  cases change with
  | key value => exact fun key given => subset (source key given)
  | list letter adding mask =>
    obtain ⟨raw, member, same⟩ := source
    exact ⟨raw, subset member, same⟩
  | _ => trivial

end ModeChange

namespace RoomView

theorem asked_from (uidOf : String → Option String) (view : RoomView) (c : Char) (adding : Bool) (args : List String) :
    (∀ change ∈ (view.asked uidOf c adding args).1, change.From args) ∧
      (view.asked uidOf c adding args).2 ⊆ args := by
  rw [asked]
  split
  · cases args with
    | nil =>
      refine ⟨fun change asks => ?_, List.Subset.refl _⟩
      cases asks
    | cons nick rest =>
      refine ⟨fun change asks => ?_, List.subset_cons_self nick rest⟩
      obtain ⟨uid, _, rfl⟩ := Option.map_eq_some_iff.mp asks
      trivial
  split
  · rw [askedKey]
    cases adding with
    | true =>
      refine ⟨fun change asks => ?_, List.tail_subset args⟩
      obtain ⟨key, first, rfl⟩ := Option.map_eq_some_iff.mp asks
      intro key' same
      cases same
      exact List.mem_of_mem_head? first
    | false =>
      refine ⟨fun change asks => ?_, List.Subset.refl _⟩
      cases asks
      intro key given
      cases given
  split
  · rw [askedLimit]
    cases adding with
    | true =>
      refine ⟨fun change asks => ?_, List.tail_subset args⟩
      obtain ⟨limit, _, rfl⟩ := Option.map_eq_some_iff.mp asks
      trivial
    | false =>
      refine ⟨fun change asks => ?_, List.Subset.refl _⟩
      cases asks
      trivial
  split
  · cases args with
    | nil =>
      refine ⟨fun change asks => ?_, List.Subset.refl _⟩
      cases asks
    | cons raw rest =>
      refine ⟨fun change asks => ?_, List.subset_cons_self raw rest⟩
      simp only [askedMask] at asks
      split at asks
      · cases asks
      · cases asks
        exact ⟨raw, List.mem_cons_self, rfl⟩
  · refine ⟨fun change asks => ?_, List.Subset.refl _⟩
    obtain ⟨mode, _, rfl⟩ := Option.map_eq_some_iff.mp asks
    trivial

theorem changes_from (uidOf : String → Option String) (flags : List Char) (budget : Nat) (adding : Bool)
    (args : List String) (view : RoomView) :
    ∀ change ∈ changes uidOf flags budget adding args view, change.From args := by
  induction flags generalizing budget adding args view with
  | nil => exact fun change member => absurd member List.not_mem_nil
  | cons c flags ih =>
    cases budget with
    | zero => exact fun change member => absurd member List.not_mem_nil
    | succ budget =>
      obtain ⟨own, subset⟩ := view.asked_from uidOf c adding args
      rw [changes]
      split
      · exact ih _ _ _ _
      split
      · exact ih _ _ _ _
      split
      · rename_i rest asks
        rw [asks] at subset
        exact fun change member => (ih _ _ _ _ change member).of_subset subset
      · rename_i first rest asks
        rw [asks] at own subset
        intro change member
        rcases List.mem_cons.mp member with rfl | later
        · exact own _ rfl
        · exact (ih _ _ _ _ change later).of_subset subset

end RoomView

/-- A character that a parameter may hold anywhere. -/
abbrev PlainChar (c : Char) : Prop :=
  c ≠ ' ' ∧ c ≠ '\x00' ∧ c ≠ '\r' ∧ c ≠ '\n'

theorem middle_append {left right : String} (middle : Middle left)
    (plain : ∀ c ∈ right.toList, PlainChar c) : Middle (left ++ right) := by
  obtain ⟨nonempty, solid, head⟩ := middle
  rw [Middle, String.toList_append]
  refine ⟨List.append_ne_nil_of_left_ne_nil nonempty _, ?_, ?_⟩
  · intro c member
    exact (List.mem_append.mp member).elim (solid c) (plain c)
  · rwa [List.head?_append_of_ne_nil _ nonempty]

theorem middle_normalizeBanMask {raw : String} (middle : Middle raw) : Middle (normalizeBanMask raw) := by
  rw [normalizeBanMask]
  split
  · exact middle
  split
  · split
    · exact middle
    · have tail : Middle "@*" := by decide
      exact middle_append middle tail.2.1
  split
  · have lead : Middle "*!" := by decide
    exact middle_append lead middle.2.1
  · have tail : Middle "!*@*" := by decide
    exact middle_append middle tail.2.1

namespace ModeChange

variable {view : RoomView}

theorem wire_middle {args : List String} (words : ∀ arg ∈ args, Middle arg)
    (uids : ∀ uid, (view.status uid).isSome = true → Middle uid) {change : ModeChange} (sound : change.Sound view)
    (source : change.From args) : ∀ word ∈ change.wire, Middle word := by
  intro word member
  cases change with
  | flag letter adding => cases member
  | status letter adding uid =>
    obtain rfl := List.mem_singleton.mp member
    exact uids _ sound.2
  | key value => exact words word (source word (Option.mem_toList.mp member))
  | limit value =>
    obtain ⟨limit, _, rfl⟩ := Option.map_eq_some_iff.mp (Option.mem_toList.mp member)
    exact LinkMessage.middle_printU64 limit
  | list letter adding mask =>
    obtain rfl := List.mem_singleton.mp member
    obtain ⟨raw, given, rfl⟩ := source
    exact middle_normalizeBanMask (words raw given)

theorem letter_plain {change : ModeChange} (sound : change.Sound view) : PlainChar change.letter := by
  cases change with
  | flag letter adding =>
    obtain ⟨mode, found⟩ := Option.isSome_iff_exists.mp sound
    have same : mode.letter = letter := by simpa using List.find?_some found
    have plain : ∀ mode ∈ boolModes, PlainChar mode.letter := by
      intro mode listed
      simp only [boolModes, List.mem_cons, List.not_mem_nil, or_false] at listed
      rcases listed with rfl | rfl | rfl | rfl | rfl <;> decide
    exact same ▸ plain mode (List.mem_of_find?_eq_some found)
  | status letter adding uid =>
    obtain ⟨isStatus, -⟩ := sound
    have plain : PlainChar 'o' ∧ PlainChar 'v' := by decide
    exact isStatus.elim (fun same => same ▸ plain.1) fun same => same ▸ plain.2
  | key value => exact (by decide : PlainChar 'k')
  | limit value => exact (by decide : PlainChar 'l')
  | list letter adding mask =>
    have plain : PlainChar 'b' ∧ PlainChar 'e' ∧ PlainChar 'I' := by decide
    rcases sound with same | same | same
    · exact same ▸ plain.1
    · exact same ▸ plain.2.1
    · exact same ▸ plain.2.2

theorem rendered_plain {changes : List ModeChange} (sound : ∀ change ∈ changes, change.Sound view)
    (sign : Option Bool) : ∀ c ∈ rendered sign changes, PlainChar c := by
  induction changes generalizing sign with
  | nil => exact fun c member => absurd member List.not_mem_nil
  | cons change changes ih =>
    obtain ⟨first, later⟩ := List.forall_mem_cons.mp sound
    rw [rendered]
    intro c member
    rcases List.mem_append.mp member with isSign | rest
    · split at isSign
      · cases isSign
      · rw [List.mem_singleton.mp isSign]
        cases change.adding <;> decide
    · rcases List.mem_cons.mp rest with rfl | rest
      · exact letter_plain first
      · exact ih later _ c rest

end ModeChange

namespace Tables

variable {t : Tables}

/-- The names of a channel's frames are parameters. -/
structure Spells (t : Tables) (channel : ChannelEntry) : Prop where
  name : Middle channel.name
  server : Middle t.info.name
  sid : Middle t.info.sid
  uids : ∀ uid ∈ channel.remoteMembers, Middle uid

theorem Spells.status {channel : ChannelEntry} (spells : t.Spells channel) {uid : String}
    (member : ((t.view channel).status uid).isSome = true) : Middle uid := by
  by_cases isRemote : uid ∈ channel.remoteMembers
  · exact spells.uids uid isRemote
  · obtain ⟨id, _, rfl⟩ := member_local member isRemote
    exact middle_append spells.sid (LinkMessage.middle_printU64 id).2.1

/-- The frame of a plugin's mode change is well formed. -/
theorem pluginFrame_wellFormed {channel : ChannelEntry} (spells : t.Spells channel) {changes : List ModeChange}
    (something : changes ≠ []) (sound : ∀ change ∈ changes, change.Sound (t.view channel)) {args : List String}
    (source : ∀ change ∈ changes, change.From args) (words : ∀ arg ∈ args, Middle arg) :
    (t.pluginFrame channel changes).WellFormed := by
  obtain ⟨first, later, rfl⟩ := List.exists_cons_of_ne_nil something
  -- the letters begin with a sign, and so never with a colon
  have signed : (ModeChange.rendered none (first :: later)).head? = some '+' ∨
      (ModeChange.rendered none (first :: later)).head? = some '-' := by
    rw [ModeChange.rendered]
    cases first.adding
    · exact .inr rfl
    · exact .inl rfl
  refine ⟨spells.name, spells.server, ⟨?_, ?_, ?_⟩, ?_, ?_⟩
  · rw [String.toList_ofList]
    exact mt ModeChange.rendered_eq_nil.mp something
  · rw [String.toList_ofList]
    exact ModeChange.rendered_plain sound none
  · rw [String.toList_ofList]
    intro colon
    rw [colon] at signed
    rcases signed with plus | minus
    · exact absurd plus (by decide)
    · exact absurd minus (by decide)
  · rwa [LinkMessage.SignedFlags, String.toList_ofList]
  · intro word member
    obtain ⟨change, isChange, spelled⟩ := List.mem_flatMap.mp member
    exact ModeChange.wire_middle words (fun uid => spells.status) (sound change isChange) (source change isChange) word
      spelled

end Tables

namespace Server

variable {a b : Server} {channelA channelB : ChannelEntry}

/-- After a plugin's mode change and its relay both servers have the same modes, statuses and lists. -/
def PluginModesAgree (a b : Server) (channel : String) (entry : ChannelEntry) (flags : String) (args : List String) :
    Prop :=
  let a' := a.pluginMode channel flags args
  let b' := (a.linesFor a' b.info.sid).foldl takeModeLine b
  ∃ afterA afterB, a'.findChannel (a.fold entry.name) = some afterA ∧
    b'.findChannel (b.fold entry.name) = some afterB ∧ (a'.view afterA).SameModes (b'.view afterB)

/-- If there is something to tell of a plugin's mode change, the line fits on the wire. -/
def FitsPlugin (s : Server) (entry : ChannelEntry) (flags : String) (args : List String) : Prop :=
  s.pluginChanges entry flags args = [] ∨
    (s.pluginFrame entry (s.pluginChanges entry flags args)).toLine.length ≤ rfc1459BodyBytes + 2

theorem pluginModes_agree (shared : SharedChannel a b channelA channelB) (foreign : a.Foreign)
    (spells : a.Spells channelA) {channel : String} (named : a.fold channel = a.fold channelA.name)
    {flags : String} {args : List String} (words : ∀ arg ∈ args, Middle arg) (resolved : ¬ a.Unresolved flags args)
    (fits : a.FitsPlugin channelA flags args) : PluginModesAgree a b channel channelA flags args := by
  obtain ⟨info, ⟨afterA, storedA, viewA⟩, frames⟩ :=
    pluginMode_spec shared.storedA named shared.housesA foreign resolved
  have sound : ∀ change ∈ a.pluginChanges channelA flags args, change.Sound (a.view channelA) :=
    RoomView.changes_sound _ _ _ _ _ _
  have source : ∀ change ∈ a.pluginChanges channelA flags args, change.From args :=
    RoomView.changes_from _ _ _ _ _ _
  have carried : a.pluginChanges channelA flags args = [] ∨
      (a.pluginFrame channelA (a.pluginChanges channelA flags args)).WellFormed ∧
        (a.pluginFrame channelA (a.pluginChanges channelA flags args)).toLine.length ≤ rfc1459BodyBytes + 2 := by
    refine or_iff_not_imp_left.mpr fun something => ⟨?_, fits.resolve_left something⟩
    exact Tables.pluginFrame_wellFormed spells something sound source words
  obtain ⟨afterB, storedB, same⟩ := shared.told sound a.info.name rfl carried
  rw [PluginModesAgree, linesFor_told shared.linked frames]
  refine ⟨afterA, afterB, storedA, storedB, ?_⟩
  rw [Tables.view_of_info info, viewA]
  exact same

/-- A plugin's mode change with a parameter missing or the nick of nobody changes nothing and tells nobody.  Any other
one takes effect flag by flag, every peer is told exactly the changes that were made, and one that holds the same
channel and is told of them has the same modes, statuses and lists after it. -/
theorem pluginMode_exact :
    (∀ (s : Server) (channel flags : String) (args : List String), s.Unresolved flags args →
      s.pluginMode channel flags args = s) ∧
    (∀ (s : Server) (channel : String) (entry : ChannelEntry), s.findChannel (s.fold entry.name) = some entry →
      s.fold channel = s.fold entry.name → s.Houses entry → s.Foreign →
      ∀ (flags : String) (args : List String), ¬ s.Unresolved flags args →
        (∃ changed, (s.pluginMode channel flags args).findChannel (s.fold entry.name) = some changed ∧
          s.view changed = (s.pluginChanges entry flags args).foldl RoomView.change (s.view entry)) ∧
        (s.pluginMode channel flags args).fx.frames =
          s.fx.frames ++ if s.pluginChanges entry flags args = [] then []
            else s.links.keys.map fun peer => (peer, s.pluginFrame entry (s.pluginChanges entry flags args))) ∧
    ∀ (a b : Server) (channelA channelB : ChannelEntry), SharedChannel a b channelA channelB → a.Foreign →
      a.Spells channelA → ∀ channel, a.fold channel = a.fold channelA.name →
      ∀ raw flags args, parseModeString raw = some (flags, args) → (∀ arg ∈ args, '\x00' ∉ arg.toList) →
        ¬ a.Unresolved flags args → a.FitsPlugin channelA flags args →
          PluginModesAgree a b channel channelA flags args := by
  refine ⟨?_, ?_, ?_⟩
  · intro s channel flags args unresolved
    exact pluginMode_unresolved unresolved channel
  · intro s channel entry found named houses foreign flags args resolved
    exact (pluginMode_spec found named houses foreign resolved).2
  · intro a b channelA channelB shared foreign spells channel named raw flags args accepted nulFree resolved fits
    have words : ∀ arg ∈ args, Middle arg := fun arg member =>
      parseModeString_words accepted arg member (nulFree arg member)
    exact pluginModes_agree shared foreign spells named words resolved fits

theorem foreignAlpha : alphaWithDen.Foreign := by
  intro folded user found
  cases found

theorem spellsAlpha : alphaWithDen.Spells denAtAlpha where
  name := by decide
  server := by decide
  sid := by decide
  uids := fun uid member => absurd member (AList.notMem_empty uid)

/-- Alice is voiced and the channel moderated, here and at the peer. -/
theorem pluginMode_exact_voice : PluginModesAgree alphaWithDen betaWithDen "#DEN" denAtAlpha "+vm" ["Alice"] := by
  refine pluginMode_exact.2.2 _ _ _ _ sharedDen foreignAlpha spellsAlpha "#DEN" (by decide) "+vm Alice" "+vm" ["Alice"]
    (by decide +kernel) (by decide) ?_ (.inr ?_)
  · rw [Tables.Unresolved]
    decide +kernel
  · decide +kernel

/-- The same server with bob, who is not in the channel. -/
def alphaWithBob : Server :=
  { alphaWithDen with
    entries := alphaWithDen.entries.insert 2 { nick := "bob", user := "ident", registered := true }
    clients := alphaWithDen.clients.insert "bob" 2
    byId := [1, 2] }

/-- A parameter is missing, or the nick of nobody in the channel. -/
def Absent (s : Server) (entry : ChannelEntry) (flags : String) (args : List String) : Prop :=
  ∃ taken ∈ takenArgs flags.toList true args,
    taken.2 = none ∨ (taken.1 = 'o' ∨ taken.1 = 'v') ∧
      ∀ nick ∈ taken.2, ∀ uid ∈ s.uidOfNick nick, ((s.view entry).status uid).isSome = false

/-- Somebody who is not in the channel is passed over, and the other flags take effect. -/
theorem stranger_passedOver :
    ¬ ∀ (s : Server) (entry : ChannelEntry), s.findChannel (s.fold entry.name) = some entry → s.Houses entry →
      s.Foreign → ∀ raw flags args, parseModeString raw = some (flags, args) → s.Absent entry flags args →
        s.pluginMode entry.name flags args = s := by
  intro allOrNothing
  have houses : alphaWithBob.Houses denAtAlpha := by
    constructor
    · intro id member
      obtain rfl := List.mem_singleton.mp (AList.mem_keys.mp member)
      decide
    · exact fun uid member => absurd member (AList.notMem_empty uid)
    · intro folded user found
      cases found
  have foreign : alphaWithBob.Foreign := by
    intro folded user found
    cases found
  have absent : alphaWithBob.Absent denAtAlpha "+mo" ["bob"] := by
    refine ⟨('o', some "bob"), by decide, .inr ⟨.inl rfl, ?_⟩⟩
    intro nick given uid isBob
    cases given
    rw [show alphaWithBob.uidOfNick "bob" = some "1AA2" by decide +kernel] at isBob
    cases isBob
    decide +kernel
  have untouched := allOrNothing alphaWithBob denAtAlpha rfl houses foreign "+mo bob" "+mo" ["bob"] (by decide +kernel)
    absent
  have moderated : ((alphaWithBob.pluginMode "#den" "+mo" ["bob"]).findChannel "#den").map
      (fun channel => channel.modes.moderated) = some true := by decide +kernel
  rw [show denAtAlpha.name = "#den" from rfl] at untouched
  rw [untouched] at moderated
  exact absurd moderated (by decide +kernel)

/-- The same server with mallory, a user of another server, whose UID is spelt like that of alice. -/
def alphaWithMallory : Server :=
  { alphaWithDen with
    remoteUsers := AList.singleton "mallory"
      ⟨"1", "1AA1", "mallory", "~m", "m.example", none, "Mallory", none, false, false, false⟩
    remoteByUid := AList.singleton "1AA1" "mallory" }

/-- A UID that is spelt like a local one gives the status to the local client. -/
theorem forged_uid_voices :
    alphaWithMallory.uidOfNick "mallory" = some "1AA1" ∧
      ((alphaWithDen.findChannel "#den").bind fun channel => (alphaWithDen.view channel).status "1AA1") =
        some ⟨true, false⟩ ∧
      ((alphaWithMallory.pluginMode "#den" "+v" ["mallory"]).findChannel "#den").bind
        (fun channel => (alphaWithMallory.view channel).status "1AA1") = some ⟨true, true⟩ := by
  refine ⟨by decide +kernel, by decide +kernel, by decide +kernel⟩

end Server

end Ferrixd
