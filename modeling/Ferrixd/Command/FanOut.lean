import Ferrixd.Command.Multiline
import Ferrixd.Data.Memo

/-! # Fan-out to a channel

Members that agree on the capabilities an event depends on get the same bytes, which are rendered once. -/

namespace Ferrixd

/-! ## Capability bits -/

theorem or_and_distrib (a b c : UInt32) : (a ||| b) &&& c = (a &&& c) ||| (b &&& c) := by
  apply UInt32.toBitVec_inj.mp
  ext i
  simp only [UInt32.toBitVec_and, UInt32.toBitVec_or, BitVec.getElem_and, BitVec.getElem_or,
    Bool.and_or_distrib_right]

namespace Cap

/-- Every capability, in the order of their bits. -/
def all : List Cap :=
  [.sasl, .messageTags, .serverTime, .echoMessage, .accountTag, .awayNotify, .extendedJoin, .chgHost, .setName,
    .multiPrefix, .userhostInNames, .capNotify, .inviteNotify, .batch, .chatHistory, .standardReplies, .metadata,
    .labeledResponse, .multiline, .accountRegistration, .accountNotify, .extendedMonitor, .readMarker,
    .eventPlayback, .messageRedaction, .channelRename, .noImplicitNames, .preAway, .extendedIsupport]

def bit (cap : Cap) : UInt32 :=
  1 <<< UInt32.ofNat cap.ctorIdx

theorem mem_all (cap : Cap) : cap ∈ all := by
  cases cap <;> decide

/-- No two capabilities share a bit. -/
theorem bit_and_bit (cap other : Cap) : cap.bit &&& other.bit ≠ 0 ↔ cap = other := by
  have checked : (all.all fun cap => all.all fun other =>
      (cap.bit &&& other.bit != 0) == decide (cap = other)) = true := by decide +kernel
  have here := List.all_eq_true.mp (List.all_eq_true.mp checked cap (mem_all cap)) other (mem_all other)
  rw [beq_iff_eq] at here
  rw [← decide_eq_true_iff (p := cap = other), ← here, bne_iff_ne]

end Cap

namespace CapSet

/-- A set that is given by its bits. -/
def fromBits (bits : UInt32) : CapSet :=
  Cap.all.filter fun cap => bits &&& cap.bit != 0

def bits (caps : CapSet) : UInt32 :=
  caps.foldr (fun cap bits => cap.bit ||| bits) 0

theorem has_fromBits (bits : UInt32) (cap : Cap) : (fromBits bits).has cap = (bits &&& cap.bit != 0) := by
  rw [has, fromBits, Bool.eq_iff_iff, List.contains_iff_mem, List.mem_filter]
  exact and_iff_right (Cap.mem_all cap)

theorem and_bits (caps : CapSet) (cap : Cap) : caps.bits &&& cap.bit ≠ 0 ↔ cap ∈ caps := by
  induction caps with
  | nil => simp [bits]
  | cons first rest ih =>
    change (first.bit ||| bits rest) &&& cap.bit ≠ 0 ↔ _
    rw [or_and_distrib, ne_eq, UInt32.or_eq_zero_iff, not_and_or, List.mem_cons]
    exact or_congr ((Cap.bit_and_bit first cap).trans eq_comm) ih

/-- The bits of a set say what it has. -/
theorem has_eq (caps : CapSet) (cap : Cap) : caps.has cap = (caps.bits &&& cap.bit != 0) := by
  rw [has, Bool.eq_iff_iff, List.contains_iff_mem, ← and_bits, bne_iff_ne]

end CapSet

namespace Event

/-- The bits of the capabilities that the bytes of an event depend on. -/
def variantMask (event : Event) : UInt32 :=
  let mask := if event.time.isSome then Cap.bit .serverTime else 0
  let mask := if event.account.isSome then mask ||| Cap.bit .accountTag else mask
  let mask := if event.msgid.isSome || event.clientTags.isSome || event.bot then mask ||| Cap.bit .messageTags else mask
  let mask := event.suffix.elim mask fun (cap, _) => mask ||| cap.bit
  event.batch.elim mask fun (cap, _) => mask ||| cap.bit

end Event

/-- A mask has the bit of a capability. -/
def Covers (mask : UInt32) (cap : Cap) : Prop :=
  mask &&& cap.bit = cap.bit

theorem Covers.bit (mask : UInt32) (cap : Cap) : Covers (mask ||| cap.bit) cap := by
  rw [Covers, or_and_distrib, UInt32.and_self]
  apply UInt32.toBitVec_inj.mp
  ext i
  simp only [UInt32.toBitVec_and, UInt32.toBitVec_or, BitVec.getElem_and, BitVec.getElem_or]
  cases mask.toBitVec[i] <;> cases cap.bit.toBitVec[i] <;> rfl

theorem Covers.more {mask : UInt32} {cap : Cap} (covers : Covers mask cap) (bits : UInt32) :
    Covers (mask ||| bits) cap := by
  rw [Covers, or_and_distrib, covers]
  apply UInt32.toBitVec_inj.mp
  ext i
  simp only [UInt32.toBitVec_and, UInt32.toBitVec_or, BitVec.getElem_and, BitVec.getElem_or]
  cases bits.toBitVec[i] <;> cases cap.bit.toBitVec[i] <;> rfl

/-- Bits that agree on a mask agree on every capability it has. -/
theorem Covers.agree {mask first second : UInt32} {cap : Cap} (covers : Covers mask cap)
    (agree : first &&& mask = second &&& mask) : first &&& cap.bit = second &&& cap.bit := by
  rw [← covers, ← UInt32.and_assoc, ← UInt32.and_assoc, agree]

theorem Covers.ite {mask : UInt32} {cap : Cap} (covers : Covers mask cap) (added : Bool) (bits : UInt32) :
    Covers (if added then mask ||| bits else mask) cap := by
  split
  · exact covers.more bits
  · exact covers

theorem Covers.elim {mask : UInt32} {cap : Cap} (covers : Covers mask cap) (added : Option (Cap × String)) :
    Covers (added.elim mask fun (cap, _) => mask ||| cap.bit) cap := by
  cases added with
  | none => exact covers
  | some entry => exact covers.more entry.1.bit

namespace Event

variable {event : Event}

/-- Two sets have the same of the capabilities that the bytes of an event depend on. -/
structure Alike (event : Event) (first second : CapSet) : Prop where
  batch : ∀ entry, event.batch = some entry → first.has entry.1 = second.has entry.1
  tags : event.clientTags.isSome ∨ event.msgid.isSome ∨ event.bot →
    first.has .messageTags = second.has .messageTags
  time : event.time.isSome → first.has .serverTime = second.has .serverTime
  account : event.account.isSome → first.has .accountTag = second.has .accountTag
  suffix : ∀ entry, event.suffix = some entry → first.has entry.1 = second.has entry.1

theorem elim_congr {α β : Type} {given : Option α} {absent : β} {f g : α → β}
    (same : ∀ value, given = some value → f value = g value) : given.elim absent f = given.elim absent g := by
  cases given with
  | none => rfl
  | some value => exact same value rfl

variable {first second : CapSet}

theorem Alike.tagsFor (alike : Alike event first second) : event.tagsFor first = event.tagsFor second := by
  have batch : (event.batch.elim [] fun (cap, reference) => if first.has cap then ["batch=" ++ reference] else []) =
      event.batch.elim [] fun (cap, reference) => if second.has cap then ["batch=" ++ reference] else [] :=
    elim_congr fun entry given => by simp only [alike.batch entry given]
  have clientTags : (event.clientTags.elim [] fun tags => if first.has .messageTags then [tags] else []) =
      event.clientTags.elim [] fun tags => if second.has .messageTags then [tags] else [] :=
    elim_congr fun tags given => by rw [alike.tags (.inl (Option.isSome_of_mem given))]
  have time : (event.time.elim [] fun time => if first.has .serverTime then ["time=" ++ time] else []) =
      event.time.elim [] fun time => if second.has .serverTime then ["time=" ++ time] else [] :=
    elim_congr fun time given => by rw [alike.time (Option.isSome_of_mem given)]
  have msgid : (event.msgid.elim [] fun msgid => if first.has .messageTags then ["msgid=" ++ msgid] else []) =
      event.msgid.elim [] fun msgid => if second.has .messageTags then ["msgid=" ++ msgid] else [] :=
    elim_congr fun msgid given => by rw [alike.tags (.inr (.inl (Option.isSome_of_mem given)))]
  have account : (event.account.elim [] fun account =>
        if first.has .accountTag then ["account=" ++ account] else []) =
      event.account.elim [] fun account => if second.has .accountTag then ["account=" ++ account] else [] :=
    elim_congr fun account given => by rw [alike.account (Option.isSome_of_mem given)]
  have bot : (event.bot && first.has .messageTags) = (event.bot && second.has .messageTags) := by
    cases given : event.bot with
    | false => rfl
    | true => rw [alike.tags (.inr (.inr given))]
  rw [Event.tagsFor, Event.tagsFor, batch, clientTags, time, msgid, account, bot]

theorem Alike.renderFor (alike : Alike event first second) : event.renderFor first = event.renderFor second := by
  have suffix : (event.suffix.elim "" fun (cap, text) => if first.has cap then text else "") =
      event.suffix.elim "" fun (cap, text) => if second.has cap then text else "" :=
    elim_congr fun entry given => by simp only [alike.suffix entry given]
  rw [Event.renderFor, Event.renderFor, alike.tagsFor, suffix]

theorem variantMask_covers (event : Event) :
    (∀ cap reference, event.batch = some (cap, reference) → Covers event.variantMask cap) ∧
      (event.clientTags.isSome ∨ event.msgid.isSome ∨ event.bot → Covers event.variantMask .messageTags) ∧
      (event.time.isSome → Covers event.variantMask .serverTime) ∧
      (event.account.isSome → Covers event.variantMask .accountTag) ∧
      ∀ cap text, event.suffix = some (cap, text) → Covers event.variantMask cap := by
  refine ⟨?_, ?_, ?_, ?_, ?_⟩
  · intro cap reference given
    rw [variantMask, given]
    exact .bit _ cap
  · intro given
    have listed : (event.msgid.isSome || event.clientTags.isSome || event.bot) = true := by
      rw [Bool.or_eq_true, Bool.or_eq_true]
      tauto
    rw [variantMask, if_pos listed]
    exact ((Covers.bit _ .messageTags).elim _).elim _
  · intro given
    rw [variantMask, if_pos given]
    have alone : Covers (Cap.bit .serverTime) .serverTime := UInt32.and_self
    exact (((alone.ite _ _).ite _ _).elim _).elim _
  · intro given
    rw [variantMask, if_pos given]
    exact (((Covers.bit _ .accountTag).ite _ _).elim _).elim _
  · intro cap text given
    rw [variantMask, given]
    exact (Covers.bit _ cap).elim _

/-- Sets that agree on every capability of the mask get the same bytes. -/
theorem renderFor_covered (same : ∀ cap, Covers event.variantMask cap → first.has cap = second.has cap) :
    event.renderFor first = event.renderFor second := by
  obtain ⟨batch, tags, time, account, suffix⟩ := event.variantMask_covers
  apply Alike.renderFor
  constructor
  · exact fun entry given => same entry.1 (batch entry.1 entry.2 given)
  · exact fun given => same _ (tags given)
  · exact fun given => same _ (time given)
  · exact fun given => same _ (account given)
  · exact fun entry given => same entry.1 (suffix entry.1 entry.2 given)

theorem renderFor_masked (agree : first.bits &&& event.variantMask = second.bits &&& event.variantMask) :
    event.renderFor first = event.renderFor second :=
  renderFor_covered fun cap covers => by rw [CapSet.has_eq, CapSet.has_eq, covers.agree agree]

end Event

/-! ## The loop over the members -/

namespace Server

/-- Whether an event goes to a member: not to one of them, only to those with a capability, or with a status. -/
def eligible (s : Server) (except : Option UInt64) (required : Option Cap) (status : Option Bool)
    (member : Sigma fun _ : UInt64 => MemberPrefix) : Bool :=
  some member.1 != except && required.all (s.entry member.1).caps.has && member.2.holds status

/-- The bytes of an event for a set of capabilities, which are rendered if no member with these bits has been
reached. -/
def cachedRender (event : Event) (cache : List (UInt32 × Bytes)) (caps : CapSet) : Bytes × List (UInt32 × Bytes) :=
  Memo.consult (fun caps : CapSet => caps.bits &&& event.variantMask) event.renderFor cache caps

def deliverCached (event : Event) (except : Option UInt64) (required : Option Cap) (status : Option Bool)
    (sofar : Server × List (UInt32 × Bytes)) (member : Sigma fun _ : UInt64 => MemberPrefix) :
    Server × List (UInt32 × Bytes) :=
  let (s, cache) := sofar
  if some member.1 = except then (s, cache)
  else if required.any fun cap => !(s.entry member.1).caps.has cap then (s, cache)
  else if !member.2.holds status then (s, cache)
  else
    let (bytes, cache) := cachedRender event cache (s.entry member.1).caps
    (s.send member.1 bytes, cache)

/-- Deliver an event to the members of a channel. -/
def toChannelFiltered (s : Server) (channel : ChannelEntry) (event : Event) (except : Option UInt64)
    (required : Option Cap) (status : Option Bool) : Server :=
  (channel.members.entries.foldl (deliverCached event except required status) (s, [])).1

variable {s : Server} {event : Event} {except : Option UInt64} {required : Option Cap} {status : Option Bool}

/-- What is kept of a run over the members is right for every set of capabilities. -/
abbrev Kept (event : Event) (cache : List (UInt32 × Bytes)) : Prop :=
  Memo.Faithful (fun caps : CapSet => caps.bits &&& event.variantMask) event.renderFor cache

theorem cachedRender_eq {cache : List (UInt32 × Bytes)} (kept : Kept event cache) (caps : CapSet) :
    (cachedRender event cache caps).1 = event.renderFor caps :=
  kept.consult_eq (fun _ _ => Event.renderFor_masked) caps

/-- The members that are passed over are those that are not eligible. -/
theorem deliverCached_eligible (cache : List (UInt32 × Bytes)) (member : Sigma fun _ : UInt64 => MemberPrefix) :
    deliverCached event except required status (s, cache) member =
      if s.eligible except required status member then
        (s.send member.1 (cachedRender event cache (s.entry member.1).caps).1,
          (cachedRender event cache (s.entry member.1).caps).2)
      else (s, cache) := by
  have lacking : (required.any fun cap => !(s.entry member.1).caps.has cap) =
      !required.all (s.entry member.1).caps.has := by
    cases required <;> rfl
  simp only [deliverCached, eligible, lacking]
  by_cases skipped : some member.1 = except
  · simp [skipped]
  · by_cases capable : required.all (s.entry member.1).caps.has = true <;>
      by_cases holds : member.2.holds status = true <;> simp [skipped, capable, holds]

/-- An eligible member is sent the event, and no other. -/
theorem deliverCached_eq {cache : List (UInt32 × Bytes)} (kept : Kept event cache)
    (member : Sigma fun _ : UInt64 => MemberPrefix) :
    ∃ later, Kept event later ∧ deliverCached event except required status (s, cache) member =
      (if s.eligible except required status member then s.sendEvent [member.1] event else s, later) := by
  rw [deliverCached_eligible]
  split
  · refine ⟨_, kept.consult (s.entry member.1).caps, ?_⟩
    rw [cachedRender_eq kept]
    rfl
  · exact ⟨cache, kept, rfl⟩

theorem sendEvent_cons (s : Server) (id : UInt64) (ids : List UInt64) (event : Event) :
    (s.sendEvent [id] event).sendEvent ids event = s.sendEvent (id :: ids) event := by
  simp only [sendEvent, emit, List.append_assoc]
  rfl

theorem foldl_deliverCached {cache : List (UInt32 × Bytes)} (kept : Kept event cache)
    (members : List (Sigma fun _ : UInt64 => MemberPrefix)) :
    (members.foldl (deliverCached event except required status) (s, cache)).1 =
      s.sendEvent ((members.filter (s.eligible except required status)).map Sigma.fst) event := by
  induction members generalizing s cache with
  | nil => simp [sendEvent, emit]
  | cons member rest ih =>
    obtain ⟨later, kept, delivered⟩ :=
      @deliverCached_eq s event except required status cache kept member
    rw [List.foldl_cons, delivered, ih kept]
    cases fits : s.eligible except required status member with
    | false => rw [if_neg Bool.false_ne_true, List.filter_cons_of_neg (by rw [fits]; exact Bool.false_ne_true)]
    | true =>
      rw [if_pos rfl, List.filter_cons_of_pos fits, List.map_cons]
      exact sendEvent_cons s member.1 _ event

/-- The loop sends what it would without a cache. -/
theorem toChannelFiltered_eq (s : Server) (channel : ChannelEntry) (event : Event) (except : Option UInt64)
    (required : Option Cap) (status : Option Bool) :
    s.toChannelFiltered channel event except required status =
      s.sendEvent ((channel.members.entries.filter (s.eligible except required status)).map Sigma.fst) event :=
  foldl_deliverCached (fun _ member => absurd member List.not_mem_nil) _

theorem toChannel_filtered (s : Server) (channel : ChannelEntry) (event : Event) (except : Option UInt64) :
    s.toChannel channel event except = s.toChannelFiltered channel event except none none := by
  rw [toChannelFiltered_eq, toChannel, AList.keys, List.keys, List.filter_map]
  congr 3
  funext member
  rw [Bool.eq_iff_iff]
  simp [eligible, MemberPrefix.holds]

theorem toChannelCapped_filtered (s : Server) (channel : ChannelEntry) (event : Event) (required : Cap)
    (except : Option UInt64) :
    s.toChannelCapped channel event required except = s.toChannelFiltered channel event except (some required) none := by
  rw [toChannelFiltered_eq, toChannelCapped, AList.keys, List.keys, List.filter_map]
  congr 3
  funext member
  rw [Bool.eq_iff_iff]
  simp [eligible, MemberPrefix.holds]

theorem toChannelStatus_filtered (s : Server) (channel : ChannelEntry) (event : Event) (opOnly : Bool)
    (except : Option UInt64) :
    s.toChannelStatus channel event opOnly except =
      s.toChannelFiltered channel event except none (some opOnly) := by
  rw [toChannelFiltered_eq, toChannelStatus]
  congr 3
  funext member
  rw [Bool.eq_iff_iff]
  simp [eligible, MemberPrefix.holds]

/-- The copies a client gets: one if it is an eligible member, and none otherwise. -/
theorem filter_eligible (s : Server) (members : Table UInt64 MemberPrefix) (id : UInt64) :
    ((members.entries.filter (s.eligible except required status)).map Sigma.fst).filter (fun other => other == id) =
      if (members.lookup id).any fun holding => s.eligible except required status ⟨id, holding⟩ then [id] else [] := by
  have distinct : ((members.entries.filter (s.eligible except required status)).map Sigma.fst).Nodup :=
    List.Nodup.sublist (List.filter_sublist.map Sigma.fst) members.nodupKeys
  have listed : id ∈ (members.entries.filter (s.eligible except required status)).map Sigma.fst ↔
      (members.lookup id).any (fun holding => s.eligible except required status ⟨id, holding⟩) = true := by
    rw [List.mem_map, Option.any_eq_true]
    constructor
    · rintro ⟨⟨other, holding⟩, member, rfl⟩
      rw [List.mem_filter, Table.mem_entries_iff] at member
      exact ⟨holding, member⟩
    · rintro ⟨holding, found, fits⟩
      exact ⟨⟨id, holding⟩, List.mem_filter.mpr ⟨Table.mem_entries_iff.mpr found, fits⟩, rfl⟩
  rw [List.filter_beq]
  split
  · rename_i fits
    rw [List.count_eq_one_of_mem distinct (listed.mpr fits)]
    rfl
  · rename_i skipped
    rw [List.count_eq_zero_of_not_mem fun member => skipped (listed.mp member)]
    rfl

/-- Events are rendered alike for sets of capabilities that agree on the mask, and every eligible member is sent
an event once, rendered for its own capabilities, and nobody else is sent anything. -/
theorem fanOut_exact (s : Server) (channel : ChannelEntry) (event : Event) (except : Option UInt64)
    (required : Option Cap) (status : Option Bool) :
    (∀ first second : UInt32, first &&& event.variantMask = second &&& event.variantMask →
      event.renderFor (CapSet.fromBits first) = event.renderFor (CapSet.fromBits second)) ∧
      ∃ sent : List (UInt64 × Bytes),
        s.toChannelFiltered channel event except required status =
          s.emit (fun fx => { fx with mail := fx.mail ++ sent }) ∧
        ∀ id, sent.filter (fun copy => copy.1 == id) =
          if (channel.members.lookup id).any fun holding =>
            some id != except && required.all (s.entry id).caps.has && holding.holds status then
            [(id, event.renderFor (s.entry id).caps)] else [] := by
  constructor
  · intro first second agree
    have same (cap : Cap) (covers : Covers event.variantMask cap) :
        (CapSet.fromBits first).has cap = (CapSet.fromBits second).has cap := by
      rw [CapSet.has_fromBits, CapSet.has_fromBits, covers.agree agree]
    exact Event.renderFor_covered same
  · refine ⟨_, toChannelFiltered_eq s channel event except required status, fun id => ?_⟩
    rw [List.filter_map]
    change (List.filter (fun other => other == id) _).map _ = _
    rw [filter_eligible, apply_ite (List.map _)]
    rfl

end Server

end Ferrixd
