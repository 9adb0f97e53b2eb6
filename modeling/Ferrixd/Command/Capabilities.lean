import Ferrixd.Command.FanOut

/-! # Capabilities

The wire names of the capabilities, and the lists of them that `CAP` requests and replies carry.  What a list says is
read back as what it was written for. -/

namespace Ferrixd

/-! ## Names -/

namespace Cap

def name : Cap → String
  | sasl => "sasl"
  | messageTags => "message-tags"
  | serverTime => "server-time"
  | echoMessage => "echo-message"
  | accountTag => "account-tag"
  | awayNotify => "away-notify"
  | extendedJoin => "extended-join"
  | chgHost => "chghost"
  | setName => "setname"
  | multiPrefix => "multi-prefix"
  | userhostInNames => "userhost-in-names"
  | capNotify => "cap-notify"
  | inviteNotify => "invite-notify"
  | batch => "batch"
  | chatHistory => "draft/chathistory"
  | standardReplies => "standard-replies"
  | metadata => "draft/metadata-2"
  | labeledResponse => "labeled-response"
  | multiline => "draft/multiline"
  | accountRegistration => "draft/account-registration"
  | accountNotify => "account-notify"
  | extendedMonitor => "extended-monitor"
  | readMarker => "draft/read-marker"
  | eventPlayback => "draft/event-playback"
  | messageRedaction => "draft/message-redaction"
  | channelRename => "draft/channel-rename"
  | noImplicitNames => "no-implicit-names"
  | preAway => "draft/pre-away"
  | extendedIsupport => "draft/extended-isupport"

def fromName (text : String) : Option Cap :=
  all.find? fun cap => cap.name = text

/-- What `CAP LS` says of a capability. -/
def lsToken : Cap → String
  | sasl => "sasl=PLAIN,EXTERNAL,SCRAM-SHA-256"
  | multiline =>
    "draft/multiline=max-bytes=" ++ toString multilineMaxBytes ++ ",max-lines=" ++ toString multilineMaxLines
  | accountRegistration => "draft/account-registration=before-connect,custom-account-name"
  | other => other.name

end Cap

namespace CapSet

def insert (caps : CapSet) (cap : Cap) : CapSet :=
  if caps.has cap then caps else caps ++ [cap]

def remove (caps : CapSet) (cap : Cap) : CapSet :=
  caps.filter fun other => other ≠ cap

/-- Enable or disable capabilities, one after the other. -/
def change (caps : CapSet) (changes : List (Cap × Bool)) : CapSet :=
  changes.foldl (fun caps change => if change.2 then caps.insert change.1 else caps.remove change.1) caps

/-- The enabled capabilities, for `CAP LIST`. -/
def listLine (caps : CapSet) : String :=
  " ".intercalate ((Cap.all.filter fun cap => caps.has cap).map Cap.name)

end CapSet

/-- The full list of `CAP LS`, with a token for strict transport security if there is one. -/
def lsLine (stsToken : Option String) : String :=
  " ".intercalate (Cap.all.map Cap.lsToken ++ stsToken.toList)

/-- One word of a `CAP REQ`. -/
def parseReqToken (token : String) : Option (Cap × Bool) :=
  match stripLead? token "-" with
  | some rest => (Cap.fromName rest).map fun cap => (cap, false)
  | none => (Cap.fromName token).map fun cap => (cap, true)

/-- The changes that a `CAP REQ` asks for; none if one of its words names no capability. -/
def parseReq (arg : String) : Option (List (Cap × Bool)) :=
  (splitWhitespace arg).mapM parseReqToken

/-! ## Sets -/

namespace CapSet

variable (caps : CapSet) (cap other : Cap)

@[simp]
theorem has_insert : (caps.insert cap).has other = (caps.has other || decide (other = cap)) := by
  rw [insert]
  split
  · rename_i present
    by_cases same : other = cap
    · rw [same, present, Bool.true_or]
    · rw [decide_eq_false same, Bool.or_false]
  · simp [has]

@[simp]
theorem has_remove : (caps.remove cap).has other = (caps.has other && decide (other ≠ cap)) := by
  simp only [remove, has, List.contains_eq_mem, List.mem_filter, decide_eq_true_eq, Bool.decide_and]

/-- Changes do to two sets alike what they do to one capability. -/
theorem has_change {caps caps' : CapSet} (same : ∀ cap, caps.has cap = caps'.has cap) (changes : List (Cap × Bool)) :
    ∀ cap, (caps.change changes).has cap = (caps'.change changes).has cap := by
  induction changes generalizing caps caps' with
  | nil => exact same
  | cons change rest ih =>
    refine ih fun cap => ?_
    dsimp only
    split
    · rw [has_insert, has_insert, same]
    · rw [has_remove, has_remove, same]

/-- Enabling a list of capabilities adds just these. -/
theorem has_change_enable (added : List Cap) (caps : CapSet) :
    (caps.change (added.map fun cap => (cap, true))).has other = (caps.has other || decide (other ∈ added)) := by
  induction added generalizing caps with
  | nil => simp [change]
  | cons first rest ih =>
    have stepped := ih (caps.insert first)
    rw [change] at stepped ⊢
    rw [List.map_cons, List.foldl_cons, if_pos rfl, stepped, has_insert, Bool.or_assoc]
    congr 1
    simp [List.mem_cons]

end CapSet

/-! ## Reading what was written -/

theorem Cap.fromName_name (cap : Cap) : Cap.fromName cap.name = some cap := by
  cases cap <;> rfl

/-- A name is one word. -/
theorem Cap.name_solid (cap : Cap) : cap.name.toList ≠ [] ∧ ∀ c ∈ cap.name.toList, isWhitespace c = false := by
  have word : (!cap.name.toList.isEmpty && cap.name.toList.all fun c => !isWhitespace c) = true := by
    cases cap <;> rfl
  simpa [List.all_eq_true] using word

/-- No name asks to disable a capability. -/
theorem Cap.stripLead_name (cap : Cap) : stripLead? cap.name "-" = none := by
  cases cap <;> rfl

theorem parseReqToken_name (cap : Cap) : parseReqToken cap.name = some (cap, true) := by
  rw [parseReqToken, cap.stripLead_name]
  simp only [Cap.fromName_name, Option.map_some]

/-- Words joined by blanks are found again. -/
theorem splitWhitespace_intercalate {words : List String}
    (solid : ∀ word ∈ words, word.toList ≠ [] ∧ ∀ c ∈ word.toList, isWhitespace c = false) :
    splitWhitespace (" ".intercalate words) = words := by
  induction words with
  | nil => decide
  | cons word rest ih =>
    obtain ⟨nonempty, black⟩ := solid word List.mem_cons_self
    have kept (others : List (List Char)) : (word.toList :: others).filter (fun word => !word.isEmpty) =
        word.toList :: others.filter fun word => !word.isEmpty :=
      List.filter_cons_of_pos (by simpa using nonempty)
    cases rest with
    | nil =>
      rw [String.intercalate_singleton, splitWhitespace, List.splitOnP_eq_singleton black, kept,
        List.filter_nil, List.map_singleton, String.ofList_toList]
    | cons next others =>
      have rest := ih fun word member => solid word (List.mem_cons_of_mem _ member)
      have blank : isWhitespace ' ' = true := by decide
      rw [splitWhitespace] at rest ⊢
      rw [String.intercalate_cons_cons, String.toList_append, String.toList_append, List.append_assoc,
        show " ".toList = [' '] from rfl, List.singleton_append,
        List.splitOnP_append_cons_of_forall_mem black _ blank, kept, List.map_cons, rest,
        String.ofList_toList]

/-- `CAP LIST` shows the enabled capabilities to a reader of `CAP REQ`. -/
theorem parseReq_listLine (caps : CapSet) :
    parseReq caps.listLine = some ((Cap.all.filter fun cap => caps.has cap).map fun cap => (cap, true)) := by
  have solid : ∀ word ∈ (Cap.all.filter fun cap => caps.has cap).map Cap.name,
      word.toList ≠ [] ∧ ∀ c ∈ word.toList, isWhitespace c = false := by
    intro word member
    obtain ⟨cap, -, rfl⟩ := List.mem_map.mp member
    exact cap.name_solid
  rw [parseReq, CapSet.listLine, splitWhitespace_intercalate solid]
  induction Cap.all.filter fun cap => caps.has cap with
  | nil => rfl
  | cons cap rest ih =>
    rw [List.map_cons, List.mapM_cons, parseReqToken_name, ih]
    rfl

end Ferrixd
