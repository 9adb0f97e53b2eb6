import Ferrixd.Command.Relay
import Ferrixd.S2S.Delivery

/-! # Agreement on a mode command

What the server of the client and its peers make of one mode command of one channel. -/

namespace Ferrixd

open Protocol

/-! ## The relayed line -/

/-- The frame that says what changes a client made. -/
def Tables.modeFrame (t : Tables) (id : UInt64) (channel : ChannelEntry) (changes : List ModeChange) : LinkMessage :=
  .smode channel.name (t.localUid id) channel.createdAt (String.ofList (ModeChange.rendered none changes))
    (changes.flatMap ModeChange.wire)

/-- The changes that a mode command means. -/
def Tables.modeChanges (t : Tables) (channel : ChannelEntry) (modestr : String) (args : List String) :
    List ModeChange :=
  RoomView.changes t.uidOfNick modestr.toList maxModeChanges true args (t.view channel)

namespace Server

/-- The lines queued for a peer between two states. -/
def linesFor (before after : Server) (peer : String) : List Bytes :=
  ((after.fx.frames.drop before.fx.frames.length).filter fun frame => frame.1 = peer).map fun frame =>
    frame.2.toLine

/-- Read a line of a peer as a mode change and apply it. -/
def takeModeLine (s : Server) (line : Bytes) : Server :=
  match readFrame line with
  | some (.smode channel source ts flags args) => s.remoteMode channel source ts flags args
  | _ => s

end Server

namespace ModeChange

theorem change_createdAt (changes : List ModeChange) (view : RoomView) :
    (changes.foldl RoomView.change view).createdAt = view.createdAt := by
  refine foldl_invariant (I := fun later : RoomView => later.createdAt = view.createdAt) RoomView.change changes
    ?_ view rfl
  intro later change _ same
  rw [← same]
  cases change with
  | flag letter adding =>
    simp only [RoomView.change]
    split <;> rfl
  | list letter adding mask =>
    simp only [RoomView.change, RoomView.setMasks]
    split
    · rfl
    · split <;> rfl
  | status letter adding uid => rfl
  | key value => rfl
  | limit value => rfl

theorem rendered_eq_nil {sign : Option Bool} {changes : List ModeChange} :
    rendered sign changes = [] ↔ changes = [] := by
  cases changes with
  | nil => exact ⟨fun _ => rfl, fun _ => rfl⟩
  | cons change changes =>
    constructor
    · intro empty
      rw [rendered] at empty
      exact absurd (List.append_eq_nil_iff.mp empty).2 (List.cons_ne_nil _ _)
    · intro empty
      cases empty

/-- The flags of changes that are pushed from the start. -/
theorem pushed_flags (changes : List ModeChange) :
    let accum := changes.foldl (fun accum change => accum.push change.adding change.letter) ({} : ModeAccum)
    accum.flags = String.ofList (rendered none changes) ∧ (accum.flags = "" ↔ changes = []) := by
  intro accum
  have letters : accum.flags.toList = rendered none changes := foldl_push_flags changes {}
  refine ⟨?_, ?_⟩
  · rw [← letters, String.ofList_toList]
  · rw [← rendered_eq_nil, ← letters, ← String.toList_inj]
    rfl

end ModeChange

namespace Server

/-- Whether or not a record is stored as well, the channels, the identity and the links are the same. -/
theorem ite_persisted {t t' : Tables} {condition : Prop} [Decidable condition] {folded : String}
    (tables : t' = if condition then t else t.persisted folded) :
    t'.channels = t.channels ∧ t'.info = t.info ∧ t'.links = t.links := by
  rw [tables]
  split
  · exact ⟨rfl, rfl, rfl⟩
  · obtain ⟨records, rows, frame⟩ := t.persisted_frame folded
    rw [frame]
    exact ⟨rfl, rfl, rfl⟩

/-- What a mode command means is what it does to the channel and what it tells every peer. -/
theorem applyChannelModes_spec {s : Server} {channel : ChannelEntry}
    (found : s.findChannel (s.fold channel.name) = some channel) (houses : s.Houses channel) (id : UInt64)
    (modestr : String) (args : List String) :
    (s.applyChannelModes id (s.fold channel.name) channel modestr args).info = s.info ∧
      (∃ changed, (s.applyChannelModes id (s.fold channel.name) channel modestr args).findChannel
          (s.fold channel.name) = some changed ∧
        s.view changed = (s.modeChanges channel modestr args).foldl RoomView.change (s.view channel)) ∧
      (s.applyChannelModes id (s.fold channel.name) channel modestr args).fx.frames =
        s.fx.frames ++ if s.modeChanges channel modestr args = [] then []
          else s.links.keys.map fun peer => (peer, s.modeFrame id channel (s.modeChanges channel modestr args)) := by
  have did : ModeRun.Did s.toTables { channel, rest := args } _ (s.modeChanges channel modestr args) :=
    ModeRun.did_letters houses id channel.name modestr.toList
  have tables := s.applyChannelModes_toTables id (s.fold channel.name) channel modestr args
  have frames := applyChannelModes_frames found id modestr args
  generalize ModeRun.letters s.toTables id channel.name modestr.toList { channel, rest := args } = run at did tables frames
  dsimp only at tables frames
  obtain ⟨flags, unchanged⟩ := ModeChange.pushed_flags (s.modeChanges channel modestr args)
  rw [← did.accum] at flags unchanged
  obtain ⟨channels, info, -⟩ := ite_persisted tables
  refine ⟨info, ?_, ?_⟩
  · refine ⟨run.channel, ?_, did.view⟩
    rw [Tables.findChannel, channels, Table.lookup_modify, if_pos rfl,
      show s.channels.lookup (s.fold channel.name) = some channel from found, Option.map_some]
  · -- the frame carries the age of the channel, which no change touches
    have age : run.channel.createdAt = channel.createdAt := by
      have same := congrArg RoomView.createdAt did.view
      rw [ModeChange.change_createdAt] at same
      exact same
    rw [frames, if_congr unchanged rfl rfl, age, flags, did.wire]
    rfl

/-! ## Agreement -/

/-- Two linked servers hold one channel: the same members by UID, with the same statuses, modes and
lists, created at the same time. -/
structure SharedChannel (a b : Server) (channelA channelB : ChannelEntry) : Prop where
  linked : b.info.sid ∈ a.links
  storedA : a.findChannel (a.fold channelA.name) = some channelA
  storedB : b.findChannel (b.fold channelA.name) = some channelB
  housesA : a.Houses channelA
  housesB : b.Houses channelB
  createdAt : channelB.createdAt = channelA.createdAt
  same : (a.view channelA).SameModes (b.view channelB)

/-- After the command and its relay both servers have the same modes, statuses and lists. -/
def ModesAgree (a b : Server) (id : UInt64) (channel : ChannelEntry) (modestr : String) (args : List String) : Prop :=
  let a' := a.applyChannelModes id (a.fold channel.name) channel modestr args
  let b' := (a.linesFor a' b.info.sid).foldl takeModeLine b
  ∃ afterA afterB, a'.findChannel (a.fold channel.name) = some afterA ∧
    b'.findChannel (b.fold channel.name) = some afterB ∧ (a'.view afterA).SameModes (b'.view afterB)

/-- The frame that says the changes of the command is one that the wire can carry. -/
def Carries (s : Server) (id : UInt64) (channel : ChannelEntry) (modestr : String) (args : List String) : Prop :=
  s.modeChanges channel modestr args = [] ∨
    (s.modeFrame id channel (s.modeChanges channel modestr args)).WellFormed ∧
      (s.modeFrame id channel (s.modeChanges channel modestr args)).toLine.length ≤ rfc1459BodyBytes + 2

variable {a b : Server} {channelA channelB : ChannelEntry}

/-- A relayed frame that the wire can carry is read as its changes. -/
theorem remoteMode_changes (stored : b.findChannel (b.fold channelA.name) = some channelB) (houses : b.Houses channelB)
    (age : channelB.createdAt = channelA.createdAt) {changes : List ModeChange}
    (sound : ∀ change ∈ changes, change.Sound (b.view channelB)) (source : String) :
    let after := b.remoteMode channelA.name source channelA.createdAt
      (String.ofList (ModeChange.rendered none changes)) (changes.flatMap ModeChange.wire)
    ∃ changed, after.findChannel (b.fold channelA.name) = some changed ∧
      after.view changed = changes.foldl RoomView.change (b.view channelB) := by
  -- equally old channels: nothing is given up and nothing refused
  have even : channelB.tsWinsOver channelA.createdAt = false := by
    simp [ChannelEntry.tsWinsOver, age]
  have kept : channelB.reconciled channelA.createdAt = channelB := by
    rw [ChannelEntry.reconciled, if_neg]
    simp [ChannelEntry.tsLosesTo, age]
  have steps : modeSteps b.statusStep (ModeChange.rendered none changes) true (changes.flatMap ModeChange.wire) =
      changes.flatMap fun change => (change.step b.statusStep).toList :=
    ModeChange.modeSteps_rendered b.statusStep sound fun _ same => by cases same
  have view : b.view (ModeStep.applyAll (changes.flatMap fun change => (change.step b.statusStep).toList)
      (b.remoteSourceNick source) b.nowUnix channelB).1 = changes.foldl RoomView.change (b.view channelB) :=
    ModeStep.apply_changes houses sound _ _ _
  have tables := applyModeChange_toTables stored source channelA.createdAt
    (String.ofList (ModeChange.rendered none changes)) (changes.flatMap ModeChange.wire)
  rw [even, kept, String.toList_ofList, steps, ← remoteMode_toTables] at tables
  generalize ModeStep.applyAll _ (b.remoteSourceNick source) b.nowUnix channelB = applied at tables view
  simp only [Bool.false_eq_true, if_false] at tables
  obtain ⟨channels, info, -⟩ := ite_persisted tables
  refine ⟨applied.1, ?_, ?_⟩
  · rw [Tables.findChannel, channels, Table.lookup_modify, if_pos rfl,
      show b.channels.lookup (b.fold channelA.name) = some channelB from stored, Option.map_some]
  · rw [Tables.view_of_info (t := b.toTables) info, view]

/-- The one line a peer is sent, if there is something to tell every peer. -/
theorem linesFor_told {a' : Server} {peer : String} (linked : peer ∈ a.links) {changes : List ModeChange}
    {frame : LinkMessage} (told : a'.fx.frames =
      a.fx.frames ++ if changes = [] then [] else a.links.keys.map fun other => (other, frame)) :
    a.linesFor a' peer = if changes = [] then [] else [frame.toLine] := by
  have once : a.links.keys.filter (fun other => other = peer) = [peer] := by
    rw [List.filter_eq, List.count_eq_one_of_mem (AList.keys_nodup _) (AList.mem_keys.mp linked)]
    rfl
  rw [linesFor, told, List.drop_left]
  split
  · rfl
  · rw [List.filter_map]
    show ((a.links.keys.filter fun other => other = peer).map _).map _ = _
    rw [once]
    rfl

/-- A peer that is told of changes, in a frame that the wire can carry, makes them too. -/
theorem SharedChannel.told (shared : SharedChannel a b channelA channelB) {changes : List ModeChange}
    (sound : ∀ change ∈ changes, change.Sound (a.view channelA)) (source : String) {frame : LinkMessage}
    (isFrame : frame = .smode channelA.name source channelA.createdAt (String.ofList (ModeChange.rendered none changes))
      (changes.flatMap ModeChange.wire))
    (carried : changes = [] ∨ frame.WellFormed ∧ frame.toLine.length ≤ rfc1459BodyBytes + 2) :
    let b' := (if changes = [] then [] else [frame.toLine]).foldl takeModeLine b
    ∃ afterB, b'.findChannel (b.fold channelA.name) = some afterB ∧
      (changes.foldl RoomView.change (a.view channelA)).SameModes (b'.view afterB) := by
  have same := shared.same.changes changes
  by_cases nothing : changes = []
  · subst nothing
    exact ⟨channelB, shared.storedB, same⟩
  obtain ⟨wellFormed, fits⟩ := carried.resolve_left nothing
  have read : readFrame frame.toLine = some frame := LinkMessage.roundTrip _ wellFormed fits
  obtain ⟨afterB, storedB, viewB⟩ := remoteMode_changes shared.storedB shared.housesB shared.createdAt
    (fun change member => (sound change member).of_members fun uid => by rw [shared.same.status]) source
  rw [← viewB] at same
  rw [if_neg nothing, List.foldl_cons, List.foldl_nil, takeModeLine, read, isFrame]
  exact ⟨afterB, storedB, same⟩

/-- If the wire can carry what a mode command changes, the server of the client and its peer agree
on the channel's modes, statuses and lists after it. -/
theorem modes_agree (shared : SharedChannel a b channelA channelB) {id : UInt64} {modestr : String}
    {args : List String} (carries : a.Carries id channelA modestr args) :
    ModesAgree a b id channelA modestr args := by
  obtain ⟨info, ⟨afterA, storedA, viewA⟩, frames⟩ :=
    applyChannelModes_spec shared.storedA shared.housesA id modestr args
  obtain ⟨afterB, storedB, same⟩ := shared.told (RoomView.changes_sound _ _ _ _ _ _) (a.localUid id) rfl carries
  rw [ModesAgree, linesFor_told shared.linked frames]
  refine ⟨afterA, afterB, storedA, storedB, ?_⟩
  rw [Tables.view_of_info info, viewA]
  exact same

/-! ### One operator, seen from two servers -/

/-- A channel with alice in it as she is seen at her server. -/
def denAtAlpha : ChannelEntry :=
  { name := "#den", members := AList.singleton 1 ⟨true, false⟩, createdAt := 1000 }

def alphaWithDen : Server :=
  { alpha with
    links := AList.singleton "2BB" ⟨"2BB", "beta.example", "ExampleNet"⟩
    entries := AList.singleton 1 { nick := "alice", user := "ident", registered := true, channels := ["#den"] }
    clients := AList.singleton "alice" 1
    byId := [1]
    channels := AList.singleton "#den" denAtAlpha }

/-- The same channel as it is seen from a linked server. -/
def denAtBeta : ChannelEntry :=
  { name := "#den", remoteMembers := AList.singleton "1AA1" ⟨"alice", "ident", "", "1AA", ⟨true, false⟩⟩
    createdAt := 1000 }

def betaWithDen : Server :=
  { Server.new ⟨"beta.example", "2BB", "ExampleNet", .rfc1459, 64⟩ 50 128 with
    links := AList.singleton "1AA" ⟨"1AA", "alpha.example", "ExampleNet"⟩
    remoteUsers := AList.singleton "alice" (introduced "1AA" "1AA1" "alice" "ident" "" "*" "")
    remoteByUid := AList.singleton "1AA1" "alice"
    channels := AList.singleton "#den" denAtBeta }

theorem sharedDen : SharedChannel alphaWithDen betaWithDen denAtAlpha denAtBeta where
  linked := by decide
  storedA := rfl
  storedB := rfl
  housesA := by
    constructor
    · intro id member
      obtain rfl := List.mem_singleton.mp (AList.mem_keys.mp member)
      decide
    · exact fun uid member => absurd member (AList.notMem_empty uid)
    · intro folded user found
      cases found
  housesB := by
    constructor
    · exact fun id member => absurd member (AList.notMem_empty id)
    · intro uid member
      obtain rfl := List.mem_singleton.mp (AList.mem_keys.mp member)
      decide
    · exact fun _ _ _ id member => absurd member (AList.notMem_empty id)
  createdAt := rfl
  same := by
    refine ⟨rfl, ?_, .refl _, .refl _, .refl _⟩
    exact congrArg lastStatus (show alphaWithDen.roster denAtAlpha = betaWithDen.roster denAtBeta by decide)

theorem modes_agree_key : ModesAgree alphaWithDen betaWithDen 1 denAtAlpha "+k" ["sesame"] := by
  refine modes_agree sharedDen (.inr ?_)
  rw [show alphaWithDen.modeFrame 1 denAtAlpha (alphaWithDen.modeChanges denAtAlpha "+k" ["sesame"]) =
    .smode "#den" "1AA1" 1000 "+k" ["sesame"] by decide +kernel]
  exact ⟨⟨by decide, by decide, by decide, .inl (by decide), by decide⟩, by decide +kernel⟩

/-- A key of two words is relayed as two parameters, and only the first word is the peer's key. -/
theorem spacedKey_splits :
    ¬ ∀ (a b : Server) (channelA channelB : ChannelEntry), SharedChannel a b channelA channelB →
      ∀ (id : UInt64) (modestr : String) (args : List String), ModesAgree a b id channelA modestr args := by
  intro agree
  obtain ⟨afterA, afterB, storedA, storedB, same⟩ := agree _ _ _ _ sharedDen 1 "+k" ["open sesame"]
  have keyA : ((alphaWithDen.applyChannelModes 1 (alphaWithDen.fold denAtAlpha.name) denAtAlpha "+k"
      ["open sesame"]).findChannel (alphaWithDen.fold denAtAlpha.name)).map (fun channel => channel.modes.key) =
        some (some "open sesame") := by decide +kernel
  have keyB : (((alphaWithDen.linesFor (alphaWithDen.applyChannelModes 1 (alphaWithDen.fold denAtAlpha.name)
      denAtAlpha "+k" ["open sesame"]) betaWithDen.info.sid).foldl takeModeLine betaWithDen).findChannel
        (betaWithDen.fold denAtAlpha.name)).map (fun channel => channel.modes.key) = some (some "open") := by
    decide +kernel
  rw [storedA] at keyA
  rw [storedB] at keyB
  have sameKey : afterA.modes.key = afterB.modes.key := congrArg ChannelModes.key same.modes
  rw [Option.map_some, sameKey] at keyA
  have agreed := keyA.symm.trans keyB
  exact absurd agreed (by decide)

end Server

end Ferrixd
