import Ferrixd.Data.Slice
import Ferrixd.Invariant.Frames
import Ferrixd.Ts6.Fidelity

/-! # Where a UID is sliced

The check of a UID takes its first three bytes, which need not end with a character: native peers choose their
UIDs freely.  Then the writer of a TS6 link panics, here the result `none`. -/

namespace Ferrixd

/-! ## With the panics -/

/-- `valid_uid`, where the slice may panic. -/
def validUid? (uid : String) : Option Bool :=
  -- only a text of nine bytes is sliced at all
  if (utf8 uid).length == 9 then
    (sliceTo? uid 3).map fun sid => validSid sid && ((utf8 uid).drop 3).all isTs6Char
  else some false

/-- `UidMapper::to_ts6`, where the check of the UID may panic. -/
def UidMapper.toTs6? (mapper : UidMapper) (uid : String) : Option (Option String × UidMapper) :=
  (validUid? uid).map fun valid =>
    if valid then (some uid, mapper)
    else match mapper.aliases.lookup uid with
      | some ts6Uid => (some ts6Uid, mapper)
      | none =>
        -- this slice is a checked one
        match (sliceTo? uid 3).filter validSid with
        | some sid =>
          let ts6Uid := sid ++ encodeId mapper.next
          (some ts6Uid, {
            aliases := mapper.aliases.insert uid ts6Uid
            originals := mapper.originals.insert ts6Uid uid
            next := mapper.next + 1 })
        | none => (none, mapper)

namespace Tables

/-- The UIDs whose identifiers are asked for when a frame is translated, in order. -/
def lookedUp (t : Tables) (mapper : UidMapper) : LinkMessage → List String
  | .userMessage source target _ _ _ _ _ =>
    (t.uidOfNick (beforeChar source '!')).toList ++ (t.uidOfNick (beforeChar target '!')).toList
  | .chanMessage source _ _ _ _ _ _ => (t.uidOfNick (beforeChar source '!')).toList
  | .stopic _ source _ _ _ => if source = "*" then [] else [source]
  | .smode _ source _ flags args =>
    (if source = "*" then [] else [source]) ++
      -- without an identifier for the source, the arguments are not translated
      if (t.ts6Source mapper source).1.isSome then statusArgs flags.toList true args else []
  | .skick _ source target _ => (if source = "*" then [] else [source]) ++ [target]
  | .sumode uid _ => [uid]
  | .sknock source _ _ => [source]
  | message => message.users

/-- `encode_outbound`, which panics if a lookup does. -/
def encodeOutbound? (t : Tables) (mapper : UidMapper) (peerCaps : List String) (message : LinkMessage) :
    Option (List Bytes × UidMapper) :=
  if (t.lookedUp mapper message).all fun uid => (validUid? uid).isSome then
    some (t.encodeOutbound mapper peerCaps message)
  else none

end Tables

/-- Nine bytes, the fourth of which goes on with a character. -/
def Cut (uid : String) : Prop :=
  (utf8 uid).length = 9 ∧ isCharBoundary uid 3 = false

instance (uid : String) : Decidable (Cut uid) :=
  inferInstanceAs (Decidable (_ ∧ _))

/-! ## The slice -/

/-- What is sliced is a SID exactly if the first three characters are one. -/
theorem sliceTo?_validSid (uid : String) :
    (sliceTo? uid 3).filter validSid =
      if validSid (String.ofList (uid.toList.take 3)) then some (String.ofList (uid.toList.take 3)) else none := by
  by_cases valid : validSid (String.ofList (uid.toList.take 3)) = true
  · -- three characters of one byte each end at the offset
    have size := (validSid_bytes valid).1
    rw [utf8_eq, String.toList_ofList] at size
    have taken := takeBytes?_append (uid.toList.take 3) (uid.toList.drop 3)
    rw [size, List.take_append_drop] at taken
    rw [sliceTo?, taken, Option.map_some, Option.filter_some, valid, if_pos rfl]
  · rw [if_neg valid, Option.filter_eq_none_iff]
    intro sid sliced validSlice
    obtain ⟨chars, taken, rfl⟩ := Option.map_eq_some_iff.mp sliced
    obtain ⟨size, bytes⟩ := validSid_bytes validSlice
    have three : chars.length = 3 := by
      rw [length_utf8_ascii fun b member => (isTs6Char_plain (bytes b member)).1, String.toList_ofList] at size
      exact size
    have lead := List.prefix_iff_eq_take.mp (takeBytes?_initial taken)
    rw [three] at lead
    rw [lead] at validSlice
    exact valid validSlice

/-- The check of a UID panics for those that are cut, and otherwise has the result it should. -/
theorem validUid?_eq (uid : String) : validUid? uid = if Cut uid then none else some (validUid uid) := by
  rw [validUid?]
  by_cases nine : (utf8 uid).length = 9
  · rw [if_pos (beq_iff_eq.mpr nine)]
    cases sliced : sliceTo? uid 3 with
    | none =>
      have cut : Cut uid := ⟨nine, by rw [← sliceTo?_isSome, sliced]; rfl⟩
      rw [if_pos cut]
      rfl
    | some sid =>
      have whole : ¬ Cut uid := by
        intro cut
        rw [Cut, ← sliceTo?_isSome, sliced] at cut
        cases cut.2
      have same := sliceTo?_validSid uid
      rw [sliced, Option.filter_some] at same
      have valid : validSid sid = validSid (String.ofList (uid.toList.take 3)) := by
        cases lead : validSid (String.ofList (uid.toList.take 3)) <;> cases slice : validSid sid <;>
          simp [lead, slice] at same ⊢
      rw [if_neg whole, Option.map_some, validUid, beq_iff_eq.mpr nine, valid, Bool.true_and]
  · have whole : ¬ Cut uid := fun cut => nine cut.1
    rw [if_neg (by simpa using nine), if_neg whole, validUid, beq_eq_false_iff_ne.mpr nine, Bool.false_and,
      Bool.false_and]

theorem UidMapper.toTs6?_eq (mapper : UidMapper) (uid : String) :
    mapper.toTs6? uid = if Cut uid then none else some (mapper.toTs6 uid) := by
  rw [toTs6?, validUid?_eq]
  by_cases cut : Cut uid
  · rw [if_pos cut, if_pos cut]
    rfl
  · rw [if_neg cut, if_neg cut, Option.map_some, toTs6, sliceTo?_validSid]
    cases mapper.aliases.lookup uid with
    | some ts6Uid => rfl
    | none => by_cases sid : validSid (String.ofList (uid.toList.take 3)) = true <;> simp only [sid] <;> rfl

/-! ## The lookups of the writer -/

theorem modeArgsToTs6_asked (flags : List Char) (adding : Bool) (args : List String) (mapper : UidMapper) :
    (translateModeArgs true (fun uid mapper => mapper.toTs6 uid) flags adding args mapper).2 =
      mapper.asked (statusArgs flags adding args) := by
  induction flags generalizing adding args mapper with
  | nil => rfl
  | cons c flags ih =>
    rw [translateModeArgs.eq_def, statusArgs]
    dsimp only
    by_cases plus : c = '+'
    · rw [if_pos plus, if_pos plus]
      exact ih _ _ _
    rw [if_neg plus, if_neg plus]
    by_cases minus : c = '-'
    · rw [if_pos minus, if_pos minus]
      exact ih _ _ _
    rw [if_neg minus, if_neg minus]
    by_cases status : c = 'o' ∨ c = 'v'
    · have takes : takesArgument c adding = true := by
        rcases status with same | same <;> rw [same] <;> rfl
      rw [if_pos status, if_pos takes, if_pos status]
      cases args with
      | nil => exact ih _ _ _
      | cons arg args => exact ih _ _ _
    rw [if_neg status, if_neg status, List.nil_append]
    -- no other argument is looked up, whether the flag takes one or not
    by_cases key : c = 'k'
    · rw [if_pos key, key]
      cases adding with
      | true => cases args with
        | nil => exact ih _ _ _
        | cons arg args => exact ih _ _ _
      | false => exact ih _ _ _
    rw [if_neg key]
    by_cases other : (c = 'l' ∧ adding = true) ∨ c = 'b' ∨ c = 'e' ∨ c = 'I'
    · have takes : takesArgument c adding = true := by
        rcases other with ⟨same, adds⟩ | same | same | same
        · rw [same, adds]
          rfl
        all_goals
          rw [same]
          rfl
      rw [if_pos other, if_pos takes]
      cases args with
      | nil => exact ih _ _ _
      | cons arg args => exact ih _ _ _
    · have plain : takesArgument c adding = false := by
        grind [takesArgument]
      rw [if_neg other, plain, if_neg Bool.false_ne_true]
      exact ih _ _ _

namespace Tables

theorem fromUser_asked (mapper : UidMapper) (uid : String) (line : String → Line) :
    (fromUser mapper uid line).2 = mapper.asked [uid] := rfl

theorem ts6Source_asked (t : Tables) (mapper : UidMapper) (source : String) :
    (t.ts6Source mapper source).2 = mapper.asked (if source = "*" then [] else [source]) := by
  rw [ts6Source]
  split <;> rfl

theorem uidForSource_asked (t : Tables) (mapper : UidMapper) (source : String) :
    (t.uidForSource mapper source).2 = mapper.asked (t.uidOfNick (beforeChar source '!')).toList := by
  rw [uidForSource]
  cases t.uidOfNick (beforeChar source '!') with
  | none => rfl
  | some uid => rfl

/-- Translating a frame does to the aliases what the lookups of the frame do. -/
theorem encodeOutbound_asked (t : Tables) (mapper : UidMapper) (peerCaps : List String) (message : LinkMessage) :
    (t.encodeOutbound mapper peerCaps message).2 = mapper.asked (t.lookedUp mapper message) := by
  cases message with
  | userMessage source target notice msgid timeMs tags text =>
    rw [encodeOutbound, encodeMessage, lookedUp, UidMapper.asked_append, ← uidForSource_asked,
      ← uidForSource_asked]
    dsimp only
    split <;> rfl
  | chanMessage source channel notice msgid timeMs tags text =>
    rw [encodeOutbound, encodeMessage, lookedUp, ← uidForSource_asked]
    dsimp only
    split <;> rfl
  | stopic channel source setBy setAt text =>
    rw [encodeOutbound, lookedUp]
    by_cases burst : source = "*"
    · rw [if_pos burst, if_pos burst]
      split <;> rfl
    · rw [if_neg burst, if_neg burst]
      rfl
  | smode channel source ts flags args =>
    rw [encodeOutbound, lookedUp, UidMapper.asked_append, ← ts6Source_asked t mapper source]
    -- without a source the arguments are never looked at
    cases found : (t.ts6Source mapper source).1 with
    | none =>
      simp only [found]
      rfl
    | some src =>
      simp only [found, Option.isSome_some, if_true, modeArgsToTs6, modeArgsToTs6_asked]
  | skick channel source target reason =>
    rw [encodeOutbound, lookedUp, UidMapper.asked_append, ← ts6Source_asked t mapper source]
    dsimp only
    split <;> rfl
  | sinvite source target channel =>
    have looked : t.lookedUp mapper (.sinvite source target channel) = [source, target] := rfl
    rw [looked, encodeOutbound]
    dsimp only
    split <;> rfl
  | _ => rfl

end Tables

/-! ## When the writer panics -/

theorem validUid?_isSome_iff (uid : String) : (validUid? uid).isSome = true ↔ ¬ Cut uid := by
  rw [validUid?_eq]
  split <;> simp_all

theorem UidMapper.toTs6?_isSome_iff (mapper : UidMapper) (uid : String) :
    (mapper.toTs6? uid).isSome = true ↔ ¬ Cut uid := by
  rw [toTs6?_eq]
  split <;> simp_all

/-- The helpers panic for the UIDs that are cut and no others, and the writer panics for the frames that look
one of these up. -/
theorem slices_iff (t : Tables) (mapper : UidMapper) (peerCaps : List String) (message : LinkMessage)
    (uid : String) :
    ((validUid? uid).isSome = true ↔ ¬ Cut uid) ∧ ((mapper.toTs6? uid).isSome = true ↔ ¬ Cut uid) ∧
      ((t.encodeOutbound? mapper peerCaps message).isSome = true ↔
        ∀ uid ∈ t.lookedUp mapper message, ¬ Cut uid) := by
  refine ⟨validUid?_isSome_iff uid, mapper.toTs6?_isSome_iff uid, ?_⟩
  have looked : ((t.lookedUp mapper message).all fun uid => (validUid? uid).isSome) = true ↔
      ∀ uid ∈ t.lookedUp mapper message, ¬ Cut uid := by
    rw [List.all_eq_true]
    exact forall₂_congr fun uid _ => validUid?_isSome_iff uid
  rw [← looked, Tables.encodeOutbound?]
  split <;> simp_all

/-- `two.example` introduces a user whose UID is cut. -/
def introduceCut : LinkMessage :=
  .uid "00é" "00éAAAAA" 0 "eve" "ident" "host.example" "*" "Eve"

/-- A peer's introduction is forwarded to the next link, whose writer panics over it. -/
theorem cutUid_panics :
    (¬ ∀ (mapper : UidMapper) (uid : String),
        (validUid? uid).isSome = true ∧ (mapper.toTs6? uid).isSome = true) ∧
      ¬ ∀ s, LinkEvent.machine.Reachable s → ∀ peerSid ∈ s.links, ∀ message,
        ∀ queued ∈ (s.receive peerSid message).fx.frames, ∀ mapper peerCaps,
          ((s.receive peerSid message).encodeOutbound? mapper peerCaps queued.2).isSome = true := by
  have cut : validUid? "00éAAAAA" = none := by decide
  constructor
  · intro holds
    have evaluates := (holds {} "00éAAAAA").1
    rw [cut] at evaluates
    cases evaluates
  · intro holds
    have forwarded : ("2BB", introduceCut) ∈ (LinkEvent.twoPeers.receive "2" introduceCut).fx.frames := by decide
    have encodes := holds _ LinkEvent.run_twoPeers.reachable "2" (by decide) introduceCut _ forwarded {} []
    have panics : (LinkEvent.twoPeers.receive "2" introduceCut).encodeOutbound? {} [] introduceCut = none := by
      rw [Tables.encodeOutbound?, if_neg]
      show ¬ (["00éAAAAA"].all fun uid => (validUid? uid).isSome) = true
      rw [List.all_cons, cut]
      decide
    rw [panics] at encodes
    cases encodes

end Ferrixd
