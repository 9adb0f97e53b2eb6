import Ferrixd.Persist

/-! # The rings under the operations of the history -/

namespace Ferrixd.History

/-! ## Eviction -/

theorem lookup_foldl_erase (victims : List (String × UInt64)) (log : Table String (List StoredMessage)) (folded : String) :
    (victims.foldl (fun log victim => log.erase victim.1) log).lookup folded = log.lookup folded ∨
      (victims.foldl (fun log victim => log.erase victim.1) log).lookup folded = none := by
  induction victims generalizing log with
  | nil => exact .inl rfl
  | cons victim rest ih =>
    rw [List.foldl_cons]
    rcases ih (log.erase victim.1) with same | gone
    · rw [same, Table.lookup_erase_if]
      split
      · exact .inr rfl
      · exact .inl rfl
    · exact .inr gone

theorem ring_evictOldest (history : History) (folded : String) :
    history.evictOldest.ring folded = history.ring folded ∨ history.evictOldest.ring folded = [] := by
  rcases lookup_foldl_erase _ history.log folded with same | gone
  · exact .inl (congrArg (Option.getD · []) same)
  · exact .inr (congrArg (Option.getD · []) gone)

/-- Whether a message for a target evicts rings. -/
def Evicts (history : History) (folded : String) : Prop :=
  history.maxTargets ≤ history.log.keys.length ∧ folded ∉ history.log

instance (history : History) (folded : String) : Decidable (history.Evicts folded) :=
  inferInstanceAs (Decidable (_ ∧ _))

/-- The history with room for a target. -/
def withRoom (history : History) (folded : String) : History :=
  if history.Evicts folded then history.evictOldest else history

theorem withRoom_maxPerTarget (history : History) (folded : String) :
    (history.withRoom folded).maxPerTarget = history.maxPerTarget := by
  rw [withRoom]
  split <;> rfl

theorem ring_withRoom (history : History) (target folded : String) :
    (history.withRoom target).ring folded = history.ring folded ∨ (history.withRoom target).ring folded = [] := by
  rw [withRoom]
  split
  · exact history.ring_evictOldest folded
  · exact .inl rfl

/-! ## Recording -/

theorem push_eq (history : History) (target : String) (message : StoredMessage) :
    history.push target message =
      { history.withRoom target with
        log := (history.withRoom target).log.insert target
          (((history.withRoom target).ring target ++ [message]).rtake history.maxPerTarget) } := by
  rw [push, ← withRoom_maxPerTarget history target]
  rfl

theorem ring_push (history : History) (target folded : String) (message : StoredMessage) :
    (history.push target message).ring folded =
      if folded = target then ((history.withRoom target).ring target ++ [message]).rtake history.maxPerTarget
      else (history.withRoom target).ring folded := by
  rw [push_eq, ring, Table.lookup_insert_if]
  split
  · rfl
  · rfl

theorem push_maxPerTarget (history : History) (target : String) (message : StoredMessage) :
    (history.push target message).maxPerTarget = history.maxPerTarget := by
  rw [push_eq]
  exact history.withRoom_maxPerTarget target

theorem push_persist (history : History) (target : String) (message : StoredMessage) :
    (history.push target message).persist = history.persist := by
  rw [push_eq, withRoom]
  split <;> rfl

/-! ## Rings as the ends of longer lists -/

/-- Every ring is the end of the list of its target, and within its bound. -/
structure Tails (history : History) (whole : String → List StoredMessage) : Prop where
  suffix : ∀ folded, history.ring folded <:+ whole folded
  short : ∀ folded, (history.ring folded).length ≤ history.maxPerTarget

theorem rtake_suffix {α : Type} (n : Nat) (items : List α) : items.rtake n <:+ items :=
  List.drop_suffix _ _

theorem length_rtake {α : Type} (n : Nat) (items : List α) : (items.rtake n).length = min n items.length := by
  rw [List.rtake, List.length_drop]
  omega

theorem rtake_rtake_append {α : Type} (n : Nat) (items : List α) (last : α) :
    (items.rtake n ++ [last]).rtake n = (items ++ [last]).rtake n := by
  cases n with
  | zero => simp [List.rtake_zero]
  | succ n =>
    have shorter : (items.rtake (n + 1)).rtake n = items.rtake n := by
      refine List.IsSuffix.eq_of_length (List.suffix_of_suffix_length_le
        ((rtake_suffix n _).trans (rtake_suffix (n + 1) items)) (rtake_suffix n items) ?_) ?_
      · simp only [length_rtake]
        omega
      · simp only [length_rtake]
        omega
    rw [List.rtake_concat_succ, List.rtake_concat_succ, shorter]

theorem Tails.push {history : History} {whole : String → List StoredMessage} (tails : history.Tails whole)
    (target : String) (message : StoredMessage) :
    (history.push target message).Tails fun folded =>
      whole folded ++ if folded = target then [message] else [] where
  suffix folded := by
    have room : (history.withRoom target).ring folded <:+ whole folded := by
      -- making room leaves a ring or empties it
      rcases history.ring_withRoom target folded with same | empty
      · exact same ▸ tails.suffix folded
      · exact empty ▸ List.nil_suffix
    rw [ring_push]
    split
    · rename_i same
      subst same
      exact (rtake_suffix _ _).trans ((List.suffix_append_inj_of_length_eq rfl).mpr ⟨room, rfl⟩)
    · rw [List.append_nil]
      exact room
  short folded := by
    rw [ring_push, push_maxPerTarget]
    split
    · rw [length_rtake]
      exact Nat.min_le_left _ _
    · rcases history.ring_withRoom target folded with same | empty
      · exact same ▸ tails.short folded
      · rw [empty]
        exact Nat.zero_le _

theorem eraseP_eq_filter {α : Type} {test : α → Bool} {items : List α} (single : items.countP test ≤ 1) :
    items.eraseP test = items.filter fun item => !test item := by
  induction items with
  | nil => rfl
  | cons first rest ih =>
    rw [List.countP_cons] at single
    cases found : test first with
    | true =>
      rw [found, if_pos rfl] at single
      have none : rest.countP test = 0 := by omega
      rw [List.eraseP_cons_of_pos found, List.filter_cons_of_neg (by simp [found])]
      refine (List.filter_eq_self.mpr fun item member => ?_).symm
      simpa using List.countP_eq_zero.mp none item member
    | false =>
      rw [found] at single
      rw [List.eraseP_cons_of_neg (by simp [found]), List.filter_cons_of_pos (by simp [found]), ih (by simpa using single)]

theorem redact_maxPerTarget (history : History) (target msgid : String) :
    (history.redact target msgid).maxPerTarget = history.maxPerTarget := by
  rw [redact]
  split
  · rfl
  · split <;> rfl

/-- Whether a redaction finds its message. -/
def Finds (history : History) (target msgid : String) : Prop :=
  (history.ring target).any fun message => message.msgid == msgid

instance (history : History) (target msgid : String) : Decidable (history.Finds target msgid) :=
  inferInstanceAs (Decidable (_ = true))

theorem ring_redact (history : History) (target msgid folded : String) :
    (history.redact target msgid).ring folded =
      if folded = target then (history.ring target).eraseP fun message => message.msgid == msgid
      else history.ring folded := by
  -- erasing what is not there changes nothing
  have unchanged : (∀ message ∈ history.ring target, ¬ (message.msgid == msgid) = true) →
      history.ring folded = if folded = target then (history.ring target).eraseP fun message => message.msgid == msgid
        else history.ring folded := by
    intro absent
    split
    · rename_i same
      rw [same, List.eraseP_of_forall_not absent]
    · rfl
  rw [History.redact]
  split
  · rename_i unheld
    refine unchanged ?_
    rw [ring, unheld]
    exact fun message member => absurd member List.not_mem_nil
  · rename_i held stored
    have same : history.ring target = held := by rw [ring, stored]; rfl
    split
    · rw [same, ring, enqueue, Table.lookup_insert_if]
      split <;> rfl
    · rename_i absent
      refine unchanged ?_
      rw [same]
      simpa using absent

theorem redact_of_lost {history : History} {target msgid : String} (lost : ¬ history.Finds target msgid) :
    history.redact target msgid = history := by
  rw [Finds, ring] at lost
  rw [History.redact]
  split
  · rfl
  · rename_i held stored
    rw [stored] at lost
    exact if_neg lost

/-- Redacting a message that its ring holds once removes it from the ring as from the whole list. -/
theorem Tails.redact {history : History} {whole : String → List StoredMessage} (tails : history.Tails whole)
    {target msgid : String} (single : (history.ring target).countP (fun message => message.msgid == msgid) ≤ 1) :
    (history.redact target msgid).Tails fun folded =>
      if folded = target then (whole folded).filter fun message => !(message.msgid == msgid) else whole folded where
  suffix folded := by
    rw [ring_redact]
    split
    · rename_i same
      subst same
      rw [eraseP_eq_filter single]
      exact (tails.suffix folded).filter _
    · exact tails.suffix folded
  short folded := by
    rw [ring_redact, redact_maxPerTarget]
    split
    · exact (List.eraseP_sublist).length_le.trans (tails.short target)
    · exact tails.short folded

/-! ## Renaming -/

/-- The target whose ring a rename leaves under the new name. -/
def keptBy (history : History) (old new : String) : String :=
  if old ∈ history.log then old else new

theorem ring_renameTarget (history : History) (old new folded : String) :
    (history.renameTarget old new).ring folded =
      if folded = new then history.ring (history.keptBy old new)
      else if folded = old then [] else history.ring folded := by
  rw [renameTarget, ring, enqueue]
  dsimp only
  cases stored : history.log.lookup old with
  | none =>
    have absent : old ∉ history.log := AList.lookup_eq_none.mp stored
    dsimp only
    rw [keptBy, if_neg absent]
    split
    · rename_i same
      rw [same]
      rfl
    · split
      · rename_i same
        rw [same, stored]
        rfl
      · rfl
  | some held =>
    have present : old ∈ history.log := AList.lookup_isSome.mp (by rw [stored]; rfl)
    dsimp only
    rw [keptBy, if_pos present, Table.lookup_insert_if, Table.lookup_erase_if]
    split
    · rw [ring, stored]
    · split
      · rfl
      · rfl

theorem renameTarget_maxPerTarget (history : History) (old new : String) :
    (history.renameTarget old new).maxPerTarget = history.maxPerTarget :=
  rfl

end Ferrixd.History
