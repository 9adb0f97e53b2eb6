import Mathlib.Data.Set.Insert
import Mathlib.Logic.Function.Basic

/-! # Notices to subscribers

A log of what subscribers were told about topics.  Subscribers are informed when the last thing that
each was told about its topic is right. -/

namespace Ferrixd

universe u v w

/-- What one subscriber was told about a topic. -/
structure Notice (σ : Type u) (κ : Type v) (β : Type w) where
  subscriber : σ
  topic : κ
  value : β
  deriving DecidableEq

variable {σ : Type u} {κ : Type v} {β : Type w}

/-- Tell several subscribers the same. -/
def announce (receivers : List σ) (topic : κ) (value : β) : List (Notice σ κ β) :=
  receivers.map fun subscriber => ⟨subscriber, topic, value⟩

theorem mem_announce {receivers : List σ} {topic : κ} {value : β} {notice : Notice σ κ β} :
    notice ∈ announce receivers topic value ↔
      notice.subscriber ∈ receivers ∧ notice.topic = topic ∧ notice.value = value := by
  simp only [announce, List.mem_map]
  constructor
  · rintro ⟨subscriber, member, rfl⟩
    exact ⟨member, rfl, rfl⟩
  · rintro ⟨member, rfl, rfl⟩
    exact ⟨notice.subscriber, member, rfl⟩

variable [DecidableEq σ] [DecidableEq κ]

/-- The last value a subscriber was told of a topic, the oldest notice being the first. -/
def latest (log : List (Notice σ κ β)) (subscriber : σ) (topic : κ) : Option β :=
  (log.filter fun notice => notice.subscriber = subscriber ∧ notice.topic = topic).getLast?.map (·.value)

/-- Later notices go before earlier ones. -/
theorem latest_append (log more : List (Notice σ κ β)) (subscriber : σ) (topic : κ) :
    latest (log ++ more) subscriber topic =
      (latest more subscriber topic).or (latest log subscriber topic) := by
  rw [latest, List.filter_append, List.getLast?_append]
  simp only [latest]
  cases (more.filter fun notice => notice.subscriber = subscriber ∧ notice.topic = topic).getLast? with
  | none => rfl
  | some notice => rfl

/-- What somebody was told last, somebody was told. -/
theorem mem_of_latest {log : List (Notice σ κ β)} {subscriber : σ} {topic : κ} {value : β}
    (told : latest log subscriber topic = some value) : ⟨subscriber, topic, value⟩ ∈ log := by
  obtain ⟨notice, last, rfl⟩ := Option.map_eq_some_iff.mp told
  have member := List.mem_of_getLast? last
  rw [List.mem_filter, decide_eq_true_eq] at member
  obtain ⟨isIn, rfl, rfl⟩ := member
  exact isIn

theorem latest_isSome_of_mem {log : List (Notice σ κ β)} {notice : Notice σ κ β} (member : notice ∈ log) :
    ∃ value, latest log notice.subscriber notice.topic = some value := by
  have filtered : notice ∈ log.filter fun other =>
      other.subscriber = notice.subscriber ∧ other.topic = notice.topic := by
    rw [List.mem_filter]
    simp [member]
  rw [latest]
  cases last : (log.filter fun other =>
      other.subscriber = notice.subscriber ∧ other.topic = notice.topic).getLast? with
  | none =>
    rw [List.getLast?_eq_none_iff.mp last] at filtered
    cases filtered
  | some other => exact ⟨other.value, rfl⟩

/-- The values of the topics after some of them were set, one after the other. -/
def revised (state : κ → β) (changes : List (κ × β)) : κ → β :=
  changes.foldl (fun state change => Function.update state change.1 change.2) state

theorem revised_append (state : κ → β) (changes more : List (κ × β)) :
    revised state (changes ++ more) = revised (revised state changes) more :=
  List.foldl_append

theorem revised_of_notMem {state : κ → β} {changes : List (κ × β)} {topic : κ}
    (untouched : ∀ change ∈ changes, change.1 ≠ topic) : revised state changes topic = state topic := by
  induction changes generalizing state with
  | nil => rfl
  | cons change rest ih =>
    have later : revised (Function.update state change.1 change.2) rest topic =
        Function.update state change.1 change.2 topic :=
      ih fun other member => untouched other (List.mem_cons_of_mem _ member)
    exact later.trans (Function.update_of_ne (untouched change List.mem_cons_self).symm _ _)

/-- What is set does not depend on what was there, where something is set. -/
theorem revised_congr {state state' : κ → β} {changes : List (κ × β)} {topic : κ}
    (same : state topic = state' topic ∨ ∃ change ∈ changes, change.1 = topic) :
    revised state changes topic = revised state' changes topic := by
  induction changes generalizing state state' with
  | nil =>
    rcases same with same | ⟨change, member, -⟩
    · exact same
    · cases member
  | cons change rest ih =>
    refine ih ?_
    by_cases here : change.1 = topic
    · subst here
      exact .inl (by simp)
    · rcases same with same | ⟨other, member, isTopic⟩
      · left
        dsimp only
        rw [Function.update_of_ne (Ne.symm here), Function.update_of_ne (Ne.symm here), same]
      · rcases List.mem_cons.mp member with rfl | member
        · exact absurd isTopic here
        · exact .inr ⟨other, member, isTopic⟩

/-- Every subscriber of a topic outside `unsettled` was last told a value that is right. -/
def Informed (subscribes : κ → σ → Prop) (right : κ → β → Prop) (log : List (Notice σ κ β))
    (unsettled : Set κ) : Prop :=
  ∀ topic, topic ∉ unsettled → ∀ subscriber, subscribes topic subscriber →
    ∃ value, latest log subscriber topic = some value ∧ right topic value

namespace Informed

variable {subscribes subscribes' : κ → σ → Prop} {right right' : κ → β → Prop}
variable {log more : List (Notice σ κ β)} {unsettled unsettled' : Set κ}

/-- The subscriptions and what is right may change, if what was told stays right. -/
theorem change (informed : Informed subscribes right log unsettled)
    (kept : ∀ topic, topic ∉ unsettled' → topic ∉ unsettled ∧
      ∀ subscriber, subscribes' topic subscriber → subscribes topic subscriber ∧
        ∀ value, latest log subscriber topic = some value → right topic value → right' topic value) :
    Informed subscribes' right' log unsettled' := by
  intro topic settled subscriber subscribed
  obtain ⟨wasSettled, still⟩ := kept topic settled
  obtain ⟨wasSubscribed, stillRight⟩ := still subscriber subscribed
  obtain ⟨value, told, isRight⟩ := informed topic wasSettled subscriber wasSubscribed
  exact ⟨value, told, stillRight value told isRight⟩

/-- Right notices settle the topics they are about and may begin subscriptions. -/
theorem tell (informed : Informed subscribes right log unsettled)
    (correct : ∀ notice ∈ more, notice.topic ∉ unsettled' → right notice.topic notice.value)
    (covers : ∀ topic, topic ∉ unsettled' → ∀ subscriber, subscribes' topic subscriber →
      (∃ notice ∈ more, notice.subscriber = subscriber ∧ notice.topic = topic) ∨
        (topic ∉ unsettled ∧ subscribes topic subscriber)) :
    Informed subscribes' right (log ++ more) unsettled' := by
  intro topic settled subscriber subscribed
  rw [latest_append]
  cases told : latest more subscriber topic with
  | some value => exact ⟨value, rfl, correct _ (mem_of_latest told) settled⟩
  | none =>
    obtain ⟨notice, member, rfl, rfl⟩ | ⟨wasSettled, wasSubscribed⟩ := covers topic settled subscriber subscribed
    · obtain ⟨value, isTold⟩ := latest_isSome_of_mem member
      rw [told] at isTold
      cases isTold
    · exact informed topic wasSettled subscriber wasSubscribed

/-- Telling all subscribers of a topic settles it. -/
theorem announce (informed : Informed subscribes right log unsettled) {receivers : List σ} {topic : κ}
    {value : β} (reaches : ∀ subscriber, subscribes topic subscriber → subscriber ∈ receivers)
    (correct : topic ∉ unsettled' → right topic value)
    (others : ∀ other, other ∈ unsettled → other ≠ topic → other ∈ unsettled') :
    Informed subscribes right (log ++ announce receivers topic value) unsettled' := by
  refine informed.tell ?_ ?_
  · intro notice member settled
    obtain ⟨-, same, isValue⟩ := mem_announce.mp member
    rw [same] at settled ⊢
    rw [isValue]
    exact correct settled
  · intro other settled subscriber subscribed
    by_cases same : other = topic
    · rw [same] at subscribed ⊢
      exact .inl ⟨⟨subscriber, topic, value⟩, mem_announce.mpr ⟨reaches subscriber subscribed, rfl, rfl⟩, rfl, rfl⟩
    · exact .inr ⟨fun was => settled (others other was same), subscribed⟩

/-- Where everything that is set is told to all who subscribe to it, everybody stays informed. -/
theorem announceAll {state : κ → β} (informed : Informed subscribes (fun topic value => value = state topic) log ∅)
    {receivers : κ → List σ} (reaches : ∀ topic subscriber, subscribes topic subscriber → subscriber ∈ receivers topic)
    (changes : List (κ × β)) :
    Informed subscribes (fun topic value => value = revised state changes topic)
      (log ++ changes.flatMap fun change => Ferrixd.announce (receivers change.1) change.1 change.2) ∅ := by
  induction changes generalizing state log with
  | nil => simpa [revised] using informed
  | cons change rest ih =>
    obtain ⟨topic, value⟩ := change
    have others : Informed subscribes (fun other told => told = Function.update state topic value other) log {topic} := by
      refine informed.change fun other apart => ⟨Set.notMem_empty other, fun subscriber subscribed => ⟨subscribed, ?_⟩⟩
      intro told _ right
      rw [Function.update_of_ne apart, right]
    have told : Informed subscribes (fun other told => told = Function.update state topic value other)
        (log ++ Ferrixd.announce (receivers topic) topic value) ∅ :=
      others.announce (reaches topic) (fun _ => (Function.update_self topic value state).symm)
        fun other only apart => absurd only apart
    rw [List.flatMap_cons, ← List.append_assoc]
    exact ih told

end Informed

end Ferrixd
