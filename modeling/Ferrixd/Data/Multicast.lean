import Ferrixd.Data.Forest

/-! # One message to many members of a forest

A message starts at its origin and is passed on along every edge behind which a member lies,
except back along the edge it came by.  In whatever order the copies arrive, every member gets
one and no edge carries two. -/

namespace Ferrixd

universe u

variable {V : Type u} {graph : SimpleGraph V} {member : V → Prop} {origin here next far : V}
  {arrived : List (V × V)}

/-- A member lies behind this neighbour. -/
def Wanted (graph : SimpleGraph V) (member : V → Prop) (here next : V) : Prop :=
  ∃ far, member far ∧ Behind graph here next far

theorem Wanted.adj (wanted : Wanted graph member here next) : graph.Adj here next :=
  wanted.choose_spec.2.adj

/-- A copy was sent along an edge, when the message has arrived along others. -/
def Copied (graph : SimpleGraph V) (member : V → Prop) (origin : V) (arrived : List (V × V)) (here next : V) : Prop :=
  Wanted graph member here next ∧ (here = origin ∨ ∃ before, (before, here) ∈ arrived ∧ next ≠ before)

theorem Copied.more (copied : Copied graph member origin arrived here next) (more : List (V × V)) :
    Copied graph member origin (arrived ++ more) here next := by
  refine ⟨copied.1, copied.2.imp_right ?_⟩
  rintro ⟨before, isArrived, apart⟩
  exact ⟨before, List.mem_append_left _ isArrived, apart⟩

/-- What the arrival of a copy adds are the copies that are passed on. -/
theorem copied_arrive_iff {sender receiver : V} :
    Copied graph member origin (arrived ++ [(here, next)]) sender receiver ↔
      Copied graph member origin arrived sender receiver ∨
        sender = next ∧ receiver ≠ here ∧ Wanted graph member sender receiver := by
  constructor
  · rintro ⟨wanted, own | ⟨before, isArrived, apart⟩⟩
    · exact .inl ⟨wanted, .inl own⟩
    · rw [List.mem_append, List.mem_singleton] at isArrived
      obtain earlier | now := isArrived
      · exact .inl ⟨wanted, .inr ⟨before, earlier, apart⟩⟩
      · cases now
        exact .inr ⟨rfl, apart, wanted⟩
  · rintro (earlier | ⟨rfl, apart, wanted⟩)
    · exact earlier.more _
    · exact ⟨wanted, .inr ⟨here, by simp, apart⟩⟩

/-- When every copy has arrived, one was sent along each edge between the origin and a member. -/
theorem Copied.towards (acyclic : graph.IsAcyclic)
    (settled : ∀ here next, Copied graph member origin arrived here next → (here, next) ∈ arrived)
    (isMember : member far) (outward : Behind graph next here origin) (inward : Behind graph here next far) :
    Copied graph member origin arrived here next := by
  -- by induction on the way that the message has come
  induction steps : graph.dist here origin using Nat.strong_induction_on generalizing here next with
  | h distance ih =>
    refine ⟨⟨far, isMember, inward⟩, ?_⟩
    obtain own | ⟨before, apart, outward'⟩ := outward.step acyclic
    · exact .inl own.symm
    · have closer := outward'.closer acyclic
      have inward' : Behind graph before here far :=
        inward.extend acyclic outward'.adj.symm (Ne.symm apart)
      exact .inr ⟨before, settled _ _ (ih _ (steps ▸ closer) outward' inward' rfl), Ne.symm apart⟩

/-- When every copy has arrived, every member but the origin has got one. -/
theorem Copied.complete (acyclic : graph.IsAcyclic)
    (settled : ∀ here next, Copied graph member origin arrived here next → (here, next) ∈ arrived)
    (isMember : member far) (reachable : graph.Reachable origin far) (apart : far ≠ origin) :
    ∃ before, (before, far) ∈ arrived := by
  obtain ⟨before, outward⟩ := exists_behind reachable.symm (Ne.symm apart)
  have inward := behind_self outward.adj.symm
  exact ⟨before, settled _ _ (Copied.towards acyclic settled isMember outward inward)⟩

/-- The edges along which a message has arrived so far. -/
structure Spread (graph : SimpleGraph V) (member : V → Prop) (origin : V) (arrived : List (V × V)) : Prop where
  once : arrived.Nodup
  copied : ∀ here next, (here, next) ∈ arrived → Copied graph member origin arrived here next
  outward : ∀ here next, (here, next) ∈ arrived → Behind graph next here origin

namespace Spread

theorem start : Spread graph member origin [] where
  once := .nil
  copied _ _ isArrived := absurd isArrived List.not_mem_nil
  outward _ _ isArrived := absurd isArrived List.not_mem_nil

section Acyclic

variable (acyclic : graph.IsAcyclic) (spread : Spread graph member origin arrived)
include acyclic spread

/-- Copies lead away from the origin. -/
theorem copied_outward (copied : Copied graph member origin arrived here next) : Behind graph next here origin := by
  obtain ⟨wanted, rfl | ⟨before, isArrived, apart⟩⟩ := copied
  · exact behind_self wanted.adj.symm
  · exact (spread.outward before here isArrived).extend acyclic wanted.adj.symm (Ne.symm apart)

/-- The message does not come back to its origin. -/
theorem not_copied_origin : ¬ Copied graph member origin arrived here origin :=
  fun copied => (spread.copied_outward acyclic copied).ne rfl

/-- A copy arrives along an edge where none has arrived before. -/
theorem arrive (copied : Copied graph member origin arrived here next) (pending : (here, next) ∉ arrived) :
    Spread graph member origin (arrived ++ [(here, next)]) where
  once := by
    rw [List.nodup_append']
    refine ⟨spread.once, List.nodup_singleton _, ?_⟩
    intro edge before now
    rw [List.mem_singleton] at now
    exact pending (now ▸ before)
  copied := by
    intro sender receiver isArrived
    rw [List.mem_append, List.mem_singleton] at isArrived
    obtain before | now := isArrived
    · exact (spread.copied sender receiver before).more _
    · cases now
      exact copied.more _
  outward := by
    intro sender receiver isArrived
    rw [List.mem_append, List.mem_singleton] at isArrived
    obtain before | now := isArrived
    · exact spread.outward sender receiver before
    · cases now
      exact spread.copied_outward acyclic copied

/-- Nothing has come to a vertex before the first copy for it arrives. -/
theorem unheard (copied : Copied graph member origin arrived here next) (pending : (here, next) ∉ arrived)
    (before : V) : (before, next) ∉ arrived := by
  intro isArrived
  have same := (spread.outward before next isArrived).unique acyclic (spread.copied_outward acyclic copied)
  exact pending (same ▸ isArrived)

/-- The vertex that a copy is about to reach has sent none. -/
theorem silent (copied : Copied graph member origin arrived here next) (pending : (here, next) ∉ arrived)
    (receiver : V) : ¬ Copied graph member origin arrived next receiver := by
  rintro ⟨-, own | ⟨before, isArrived, -⟩⟩
  · exact (spread.copied_outward acyclic copied).ne own.symm
  · exact spread.unheard acyclic copied pending before isArrived

end Acyclic

end Spread

end Ferrixd
