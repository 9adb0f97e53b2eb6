import Ferrixd.Command.Listing
import Ferrixd.Invariant.Commands

/-! # Secret channels

To a client that is no operator the listings show what they would show if the secret channels that it is not in did
not exist. -/

namespace Ferrixd

/-- Whether a client may know of a channel. -/
def ChannelEntry.shownTo (channel : ChannelEntry) (id : UInt64) : Bool :=
  !channel.modes.secret || decide (id ∈ channel.members)

namespace Tables

def knows (t : Tables) (id : UInt64) (folded : String) : Bool :=
  (t.findChannel folded).any fun channel => channel.shownTo id

/-- The tables without the channels that a client may not know of. -/
def withoutSecrets (t : Tables) (id : UInt64) : Tables :=
  { t with
    channels := t.channels.retain fun _ channel => channel.shownTo id
    entries := t.entries.mapVal fun _ entry => { entry with channels := entry.channels.filter (t.knows id) } }

/-- The client is no operator, and knows its own channels. -/
structure Commoner (t : Tables) (id : UInt64) : Prop where
  plain : (t.entry id).oper = false
  own : ∀ folded ∈ (t.entry id).channels, t.knows id folded = true

variable {t : Tables} {id : UInt64}

theorem withoutSecrets_entry (t : Tables) (id other : UInt64) :
    (t.withoutSecrets id).entry other =
      { t.entry other with channels := (t.entry other).channels.filter (t.knows id) } := by
  rw [entry, withoutSecrets, Table.lookup_mapVal, entry]
  cases t.entries.lookup other with
  | none => rfl
  | some stored => rfl

theorem withoutSecrets_findChannel (t : Tables) (id : UInt64) (folded : String) :
    (t.withoutSecrets id).findChannel folded = (t.findChannel folded).filter fun channel => channel.shownTo id := by
  rw [findChannel, withoutSecrets, Table.lookup_retain, findChannel]

theorem Commoner.mayListChannel (commoner : t.Commoner id) (channel : ChannelEntry) :
    t.mayListChannel id channel = channel.shownTo id := by
  rw [Tables.mayListChannel, commoner.plain, Bool.or_false, ChannelEntry.shownTo]

theorem Commoner.mayListChannel_withoutSecrets (commoner : t.Commoner id) (channel : ChannelEntry) :
    (t.withoutSecrets id).mayListChannel id channel = channel.shownTo id := by
  rw [Tables.mayListChannel, withoutSecrets_entry, commoner.plain, Bool.or_false, ChannelEntry.shownTo]

theorem Commoner.listedChannel (commoner : t.Commoner id) (name : String) :
    (t.withoutSecrets id).listedChannel id name = t.listedChannel id name := by
  have may : (t.withoutSecrets id).mayListChannel id = fun channel => channel.shownTo id :=
    funext commoner.mayListChannel_withoutSecrets
  have might : t.mayListChannel id = fun channel => channel.shownTo id := funext commoner.mayListChannel
  have fold : (t.withoutSecrets id).fold name = t.fold name := rfl
  rw [Tables.listedChannel, Tables.listedChannel, may, might, fold, withoutSecrets_findChannel]
  cases t.findChannel (t.fold name) with
  | none => rfl
  | some channel =>
    cases seen : channel.shownTo id with
    | true => simp
    | false => simp

/-! ## The four listings -/

theorem withoutSecrets_namesReplies (t : Tables) (id : UInt64) (channel : ChannelEntry) :
    (t.withoutSecrets id).namesReplies id channel = t.namesReplies id channel := by
  simp only [namesReplies, withoutSecrets_entry]

theorem Commoner.answerNames (commoner : t.Commoner id) (params : List String) :
    (t.withoutSecrets id).answerNames id params = t.answerNames id params := by
  cases params with
  | nil => rfl
  | cons target rest =>
    simp only [Tables.answerNames, commoner.listedChannel, withoutSecrets_namesReplies]

theorem withoutSecrets_whoRowLocal (t : Tables) (about : About) (id other : UInt64) (status : MemberPrefix) :
    (t.withoutSecrets id).whoRowLocal about id other status = t.whoRowLocal about id other status := by
  simp only [whoRowLocal, withoutSecrets_entry]
  rfl

theorem withoutSecrets_whoChannel (t : Tables) (about : About) (id : UInt64) (channel : ChannelEntry) :
    (t.withoutSecrets id).whoChannel about id channel = t.whoChannel about id channel := by
  simp only [whoChannel, withoutSecrets_whoRowLocal]
  rfl

theorem withoutSecrets_whoNick (t : Tables) (about : About) (id : UInt64) (nick : String) :
    (t.withoutSecrets id).whoNick about id nick = t.whoNick about id nick := by
  simp only [whoNick, withoutSecrets_whoRowLocal]
  rfl

/-- A channel that two clients share is one that the client knows. -/
theorem Commoner.isVisible (commoner : t.Commoner id) (other : UInt64) :
    (t.withoutSecrets id).isVisible id other = t.isVisible id other := by
  have shared : ((t.entry other).channels.filter (t.knows id)).any
        (fun folded => ((t.entry id).channels.filter (t.knows id)).contains folded) =
      (t.entry other).channels.any fun folded => (t.entry id).channels.contains folded := by
    rw [Bool.eq_iff_iff, List.any_eq_true, List.any_eq_true]
    constructor
    · rintro ⟨folded, there, here⟩
      have here := List.contains_iff_mem.mp here
      exact ⟨folded, (List.mem_filter.mp there).1, List.contains_iff_mem.mpr (List.mem_filter.mp here).1⟩
    · rintro ⟨folded, there, here⟩
      have here := List.contains_iff_mem.mp here
      have known := commoner.own folded here
      have kept := List.contains_iff_mem.mpr (List.mem_filter.mpr ⟨here, known⟩)
      exact ⟨folded, List.mem_filter.mpr ⟨there, known⟩, kept⟩
  simp only [Tables.isVisible, withoutSecrets_entry, shared]

theorem Commoner.whoMask (commoner : t.Commoner id) (about : About) (mask : String) :
    (t.withoutSecrets id).whoMask about id mask = t.whoMask about id mask := by
  simp only [Tables.whoMask, withoutSecrets_whoRowLocal, withoutSecrets_entry, commoner.isVisible]
  rfl

theorem Commoner.whoRows (commoner : t.Commoner id) (about : About) (target : String) :
    (t.withoutSecrets id).whoRows about id target = t.whoRows about id target := by
  simp only [Tables.whoRows, commoner.listedChannel, withoutSecrets_whoChannel, withoutSecrets_whoNick,
    commoner.whoMask]

theorem Commoner.answerWho (commoner : t.Commoner id) (about : About) (params : List String) :
    (t.withoutSecrets id).answerWho about id params = t.answerWho about id params := by
  simp only [Tables.answerWho, commoner.whoRows, withoutSecrets_entry]

/-- Of a user's channels those that are left out are not shown anyway. -/
theorem Commoner.whoisChannels (commoner : t.Commoner id) (other : UInt64) :
    (t.withoutSecrets id).whoisChannels id other = t.whoisChannels id other := by
  have plain : ((t.withoutSecrets id).entry id).oper = (t.entry id).oper := by
    rw [withoutSecrets_entry]
  have channels : ((t.withoutSecrets id).entry other).channels = (t.entry other).channels.filter (t.knows id) := by
    rw [withoutSecrets_entry]
  rw [Tables.whoisChannels, Tables.whoisChannels, plain, channels, List.filterMap_filter]
  congr 1
  funext folded
  rw [withoutSecrets_findChannel, knows]
  cases t.findChannel folded with
  | none => rfl
  | some channel =>
    rw [Option.any_some, Option.filter_some, Option.bind_some]
    cases seen : channel.shownTo id with
    | true => rfl
    | false =>
      obtain ⟨secret, outside⟩ : channel.modes.secret = true ∧ id ∉ channel.members := by
        simpa [ChannelEntry.shownTo] using seen
      rw [if_neg Bool.false_ne_true, secret, commoner.plain]
      by_cases self : other = id
      · -- a client is not shown as a member where it is none
        subst self
        have absent : channel.members.lookup other = none := AList.lookup_eq_none.mpr outside
        simp [absent]
      · simp [self, outside]

theorem Commoner.answerWhois (commoner : t.Commoner id) (about : About) (params : List String) :
    (t.withoutSecrets id).answerWhois about id params = t.answerWhois about id params := by
  have whois (target : String) : (t.withoutSecrets id).whoisOne about id target = t.whoisOne about id target := by
    have users : (t.withoutSecrets id).whoisLocal about id = t.whoisLocal about id := by
      funext other
      simp only [Tables.whoisLocal, commoner.whoisChannels, withoutSecrets_entry]
      rfl
    simp only [Tables.whoisOne, users]
    rfl
  have same : (t.withoutSecrets id).whoisOne about id = t.whoisOne about id := funext whois
  rw [Tables.answerWhois, Tables.answerWhois, same]

theorem withoutSecrets_answerList (t : Tables) (id : UInt64) (params : List String) :
    (t.withoutSecrets id).answerList id params = t.answerList id params := by
  have listed (filters : List ListFilter) :
      (t.withoutSecrets id).channels.values.filter (fun channel =>
        (!channel.modes.secret || decide (id ∈ channel.members)) &&
          filters.all fun filter => filter.admits t.nowUnix channel) =
      t.channels.values.filter fun channel =>
        (!channel.modes.secret || decide (id ∈ channel.members)) &&
          filters.all fun filter => filter.admits t.nowUnix channel := by
    simp only [withoutSecrets, Table.values, Table.retain, List.filter_map, List.filter_filter]
    congr 1
    refine List.filter_congr fun entry _ => ?_
    simp only [Function.comp_def, ChannelEntry.shownTo]
    cases (!entry.2.modes.secret || decide (id ∈ entry.2.members)) with
    | true => simp
    | false => simp
  have now : (t.withoutSecrets id).nowUnix = t.nowUnix := rfl
  simp only [answerList, now, listed]

end Tables

/-! ## Whole conversations -/

/-- A listing that a client asks for. -/
inductive Listing where
  | names (params : List String)
  | who (params : List String)
  | whois (params : List String)
  | list (params : List String)

namespace Server

variable {s : Server} {about : About} {id : UInt64}

def ask (about : About) (id : UInt64) (s : Server) : Listing → Server
  | .names params => s.cmdNames id params
  | .who params => s.cmdWho about id params
  | .whois params => s.cmdWhois about id params
  | .list params => s.cmdList id params

/-- The server without the channels that a client may not know of. -/
def withoutSecrets (s : Server) (id : UInt64) : Server :=
  { s with toTables := s.toTables.withoutSecrets id }

theorem replyAll_toTables (s : Server) (id : UInt64) (replies : List Reply) :
    (s.replyAll id replies).toTables = s.toTables := by
  refine foldl_invariant (I := fun later => later.toTables = s.toTables) _ replies (fun later reply _ same => ?_) s rfl
  exact same

theorem replyAll_withoutSecrets (s : Server) (id : UInt64) (replies : List Reply) :
    (s.withoutSecrets id).replyAll id replies = (s.replyAll id replies).withoutSecrets id := by
  induction replies generalizing s with
  | nil => rfl
  | cons reply rest ih =>
    have head : (s.withoutSecrets id).numeric id reply.code reply.params reply.text =
        (s.numeric id reply.code reply.params reply.text).withoutSecrets id := by
      have nick : ((s.withoutSecrets id).entry id).nick = (s.entry id).nick := by
        rw [withoutSecrets, Tables.withoutSecrets_entry]
      rw [numeric, numeric, nick]
      rfl
    rw [replyAll, replyAll, List.foldl_cons, List.foldl_cons, head]
    exact ih _

theorem ask_withoutSecrets (commoner : s.Commoner id) (listing : Listing) :
    ask about id (s.withoutSecrets id) listing = (ask about id s listing).withoutSecrets id := by
  cases listing with
  | names params =>
    rw [ask, ask, cmdNames, cmdNames, ← replyAll_withoutSecrets]
    exact congrArg _ (commoner.answerNames params)
  | who params =>
    rw [ask, ask, cmdWho, cmdWho, ← replyAll_withoutSecrets]
    exact congrArg _ (commoner.answerWho about params)
  | whois params =>
    rw [ask, ask, cmdWhois, cmdWhois, ← replyAll_withoutSecrets]
    exact congrArg _ (commoner.answerWhois about params)
  | list params =>
    rw [ask, ask, cmdList, cmdList, ← replyAll_withoutSecrets]
    exact congrArg _ (Tables.withoutSecrets_answerList s.toTables id params)

theorem ask_toTables (about : About) (id : UInt64) (s : Server) (listing : Listing) :
    (ask about id s listing).toTables = s.toTables := by
  cases listing <;> exact replyAll_toTables s id _

theorem askAll_withoutSecrets (commoner : s.Commoner id) (listings : List Listing) :
    listings.foldl (ask about id) (s.withoutSecrets id) = (listings.foldl (ask about id) s).withoutSecrets id := by
  induction listings generalizing s with
  | nil => rfl
  | cons listing rest ih =>
    rw [List.foldl_cons, List.foldl_cons, ask_withoutSecrets commoner]
    refine ih ?_
    rw [ask_toTables]
    exact commoner

end Server

/-- Clients know the channels that they are in. -/
theorem LocalConsistent.commoner {t : Tables} {connected : List UInt64} (locals : LocalConsistent t connected)
    {id : UInt64} (isOpen : id ∈ connected) (plain : (t.entry id).oper = false) : t.Commoner id := by
  refine ⟨plain, fun folded listed => ?_⟩
  have member := (locals.memberOf folded id).mpr ⟨isOpen, listed⟩
  rw [isMember, Option.any_eq_true] at member
  obtain ⟨channel, found, inside⟩ := member
  rw [Tables.knows, Tables.findChannel, found, Option.any_some, ChannelEntry.shownTo, inside, Bool.or_true]

namespace SessionCall

/-- In every state that is reached, the listings that a client asks for, one after the other, are those of a server
without the secret channels that the client is not in. -/
theorem run_listings_secret {node : Node} (run : machine.Reachable node) {id : UInt64} (isOpen : id ∈ node.connected)
    (plain : (node.server.entry id).oper = false) (about : About) (listings : List Listing) :
    (listings.foldl (Server.ask about id) node.server).fx =
      (listings.foldl (Server.ask about id) (node.server.withoutSecrets id)).fx := by
  have commoner := (run_localConsistent run).commoner isOpen plain
  rw [Server.askAll_withoutSecrets commoner]
  rfl

/-- A new server. -/
def aboutAlpha : About :=
  ⟨"ferrixd", fun _ => ⟨0, 0, false⟩⟩

/-- A peer makes the channel of Alice secret. -/
def aliceSecret : Server :=
  aliceOnline.receive "2BB" (.smode "#lean" "*" 0 "+s" [])

/-- Bob connects. -/
def bobLooks : Node :=
  ⟨aliceSecret.connect "b.example", aliceSecret.nextId :: [1]⟩

theorem run_listings_secret_bob :
    bobLooks.server.knows 2 "#lean" = false ∧
      ([.list [], .names ["#lean"], .who ["*"], .whois ["Alice"]].foldl (Server.ask aboutAlpha 2) bobLooks.server).fx =
        ([.list [], .names ["#lean"], .who ["*"], .whois ["Alice"]].foldl (Server.ask aboutAlpha 2)
          (bobLooks.server.withoutSecrets 2)).fx := by
  have started : machine.Reachable ⟨Server.alpha, []⟩ := .start ⟨rfl, rfl, rfl⟩
  have connected : machine.Reachable ⟨Server.alpha.connect "host.example", [1]⟩ :=
    .step (e := connect "host.example") started trivial ⟨by decide, rfl⟩
  have nicked : machine.Reachable ⟨(Server.alpha.connect "host.example").cmdNick 1 "Alice", [1]⟩ :=
    .step (e := cmdNick 1 "Alice") connected trivial ⟨by decide, rfl⟩
  have named : machine.Reachable ⟨aliceNamed, [1]⟩ :=
    .step (e := cmdUser 1 aliceData) nicked trivial ⟨by decide, rfl⟩
  have registered : machine.Reachable ⟨aliceNamed.completeRegistration 1 "cloak.example", [1]⟩ := by
    have unbanned : (aliceNamed.matchesKline (aliceNamed.entry 1).realHostmask).isSome = false := by decide
    refine .step (e := completeRegistration 1 "cloak.example") named trivial ⟨by decide, by decide, ?_⟩
    simp only [unbanned, Bool.false_eq_true, if_false]
  have joined : machine.Reachable ⟨aliceOnline, [1]⟩ :=
    .step (e := joinOne 1 "#Lean" none) registered trivial ⟨by decide, by decide, rfl⟩
  have secret : machine.Reachable ⟨aliceSecret, [1]⟩ :=
    .step (e := receive "2BB" (.smode "#lean" "*" 0 "+s" [])) joined trivial rfl
  have run : machine.Reachable bobLooks :=
    .step (e := connect "b.example") secret trivial ⟨by decide +kernel, rfl⟩
  exact ⟨by decide +kernel, run_listings_secret run (by decide +kernel) (by decide +kernel) aboutAlpha _⟩

end SessionCall

end Ferrixd
