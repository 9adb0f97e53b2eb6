import Mathlib.Combinatorics.SimpleGraph.Acyclic
import Mathlib.Combinatorics.SimpleGraph.Metric

/-! # Branches of a forest

Between two vertices of an acyclic graph there is at most one path, so that a vertex reaches
every other one through one of its neighbours only.  The vertices behind a neighbour are the
branch that is lost when the edge to it is cut. -/

namespace Ferrixd

universe u

variable {V : Type u} {graph : SimpleGraph V} {here next other far : V}

/-- The path from `here` to `far` starts with the neighbour `next`. -/
def Behind (graph : SimpleGraph V) (here next far : V) : Prop :=
  ∃ (edge : graph.Adj here next) (rest : graph.Walk next far), (SimpleGraph.Walk.cons edge rest).IsPath

theorem Behind.adj (behind : Behind graph here next far) : graph.Adj here next :=
  behind.choose

theorem Behind.reachable (behind : Behind graph here next far) : graph.Reachable here far := by
  obtain ⟨edge, rest, -⟩ := behind
  exact ⟨.cons edge rest⟩

theorem Behind.ne (behind : Behind graph here next far) : far ≠ here := by
  obtain ⟨edge, rest, path⟩ := behind
  rw [SimpleGraph.Walk.cons_isPath_iff] at path
  intro same
  subst same
  exact path.2 rest.end_mem_support

theorem behind_self (edge : graph.Adj here next) : Behind graph here next next := by
  refine ⟨edge, .nil, ?_⟩
  rw [SimpleGraph.Walk.cons_isPath_iff]
  exact ⟨.nil, by simpa using edge.ne⟩

/-- Whatever can be reached lies behind a neighbour. -/
theorem exists_behind (reachable : graph.Reachable here far) (apart : far ≠ here) :
    ∃ next, Behind graph here next far := by
  obtain ⟨path, isPath, -⟩ := reachable.exists_path_of_dist
  cases path with
  | nil => exact absurd rfl apart
  | cons edge rest => exact ⟨_, edge, rest, isPath⟩

section Acyclic

variable (acyclic : graph.IsAcyclic)
include acyclic

theorem Behind.unique (behind : Behind graph here next far) (also : Behind graph here other far) :
    next = other := by
  obtain ⟨edge, rest, path⟩ := behind
  obtain ⟨edge', rest', path'⟩ := also
  have same := (acyclic.subsingleton_path here far).elim ⟨_, path⟩ ⟨_, path'⟩
  have start : (SimpleGraph.Walk.cons edge rest).snd = (SimpleGraph.Walk.cons edge' rest').snd := by
    rw [Subtype.mk.inj same]
  simpa using start

/-- One hop on the way: the branch behind a neighbour is that neighbour and its other branches. -/
theorem behind_iff : Behind graph here next far ↔
    graph.Adj here next ∧ (far = next ∨ ∃ later, later ≠ here ∧ Behind graph next later far) := by
  constructor
  · rintro ⟨edge, rest, path⟩
    refine ⟨edge, ?_⟩
    rw [SimpleGraph.Walk.cons_isPath_iff] at path
    obtain ⟨path, outside⟩ := path
    cases rest with
    | nil => exact .inl rfl
    | cons edge' rest =>
      refine .inr ⟨_, ?_, edge', rest, path⟩
      intro same
      subst same
      exact outside (by simp)
  · rintro ⟨edge, rfl | ⟨later, onward, edge', rest, path⟩⟩
    · exact behind_self edge
    · refine ⟨edge, .cons edge' rest, ?_⟩
      rw [SimpleGraph.Walk.cons_isPath_iff]
      refine ⟨path, fun inside => onward ?_⟩
      -- a path that comes back to `here` starts with the edge it would come back on
      have back := acyclic.eq_snd_of_adj_start path edge.symm inside
      simpa using back.symm

theorem Behind.step (behind : Behind graph here next far) :
    far = next ∨ ∃ later, later ≠ here ∧ Behind graph next later far :=
  ((behind_iff acyclic).mp behind).2

theorem Behind.extend (edge : graph.Adj here next) (behind : Behind graph next other far)
    (onward : other ≠ here) : Behind graph here next far :=
  (behind_iff acyclic).mpr ⟨edge, .inr ⟨other, onward, behind⟩⟩

theorem Behind.closer (behind : Behind graph here next far) : graph.dist next far < graph.dist here far := by
  obtain ⟨path, isPath, length⟩ := behind.reachable.exists_path_of_dist
  obtain ⟨edge, rest, isPath'⟩ := behind
  have same : path = .cons edge rest := 
    Subtype.mk.inj ((acyclic.subsingleton_path here far).elim ⟨_, isPath⟩ ⟨_, isPath'⟩)
  rw [same, SimpleGraph.Walk.length_cons] at length
  have short := SimpleGraph.dist_le rest
  omega

/-- The ends of an edge divide what they reach among them. -/
theorem behind_or_behind (edge : graph.Adj here next) (reachable : graph.Reachable here far) :
    Behind graph here next far ∨ Behind graph next here far := by
  by_cases own : far = here
  · rw [own]
    exact .inr (behind_self edge.symm)
  · obtain ⟨first, behind⟩ := exists_behind reachable own
    by_cases same : first = next
    · exact .inl (same ▸ behind)
    · exact .inr (behind.extend acyclic edge.symm same)

theorem Behind.not_back (behind : Behind graph here next far) : ¬ Behind graph next here far := by
  intro back
  have forth := behind.closer acyclic
  have again := back.closer acyclic
  omega

/-- Towards `far` from both sides of an edge: `next` is beyond `here`, or on its way. -/
theorem Behind.onward (behind : Behind graph next here far) (away : Behind graph here next other) :
    other ≠ far := by
  intro same
  subst same
  exact away.not_back acyclic behind

end Acyclic

/-! ## Cutting an edge -/

/-- The graph without one of its edges. -/
def cutEdge (graph : SimpleGraph V) (left right : V) : SimpleGraph V :=
  graph.deleteEdges {s(left, right)}

section Cut

variable {left right : V}

theorem cutEdge_comm (graph : SimpleGraph V) (left right : V) : cutEdge graph left right = cutEdge graph right left := by
  rw [cutEdge, cutEdge, Sym2.eq_swap]

theorem cutEdge_le (graph : SimpleGraph V) (left right : V) : cutEdge graph left right ≤ graph :=
  SimpleGraph.deleteEdges_le _

theorem cutEdge_adj : (cutEdge graph left right).Adj here next ↔
    graph.Adj here next ∧ ¬ (here = left ∧ next = right ∨ here = right ∧ next = left) := by
  simp [cutEdge]

theorem Behind.of_cut (behind : Behind (cutEdge graph left right) here next far) : Behind graph here next far := by
  obtain ⟨edge, rest, path⟩ := behind
  exact ⟨cutEdge_le graph left right edge, rest.mapLe (cutEdge_le graph left right), path.mapLe _⟩

/-- Behind the edge nothing leads back over it. -/
theorem Behind.reachable_cut (behind : Behind graph left right far) :
    (cutEdge graph left right).Reachable right far := by
  obtain ⟨edge, rest, path⟩ := behind
  rw [SimpleGraph.Walk.cons_isPath_iff] at path
  exact SimpleGraph.reachable_deleteEdges_iff_exists_walk.mpr
    ⟨rest, fun used => path.2 (rest.fst_mem_support_of_mem_edges used)⟩

/-- The way to what lies behind another neighbour does not use the edge. -/
theorem Behind.reachable_cut_of_ne (behind : Behind graph left next far) (other : next ≠ right) :
    (cutEdge graph left right).Reachable left far := by
  obtain ⟨edge, rest, path⟩ := behind
  rw [SimpleGraph.Walk.cons_isPath_iff] at path
  refine SimpleGraph.reachable_deleteEdges_iff_exists_walk.mpr ⟨.cons edge rest, fun used => ?_⟩
  rw [SimpleGraph.Walk.edges_cons, List.mem_cons] at used
  obtain same | used := used
  · rw [Sym2.eq_iff] at same
    obtain ⟨-, same⟩ | ⟨loop, -⟩ := same
    · exact other same.symm
    · exact edge.ne loop
  · exact path.2 (rest.fst_mem_support_of_mem_edges used)

section Acyclic

variable (acyclic : graph.IsAcyclic)
include acyclic

theorem cutEdge_acyclic : (cutEdge graph left right).IsAcyclic :=
  acyclic.anti (cutEdge_le graph left right)

/-- The ends of the edge are in different parts. -/
theorem cut_apart (edge : graph.Adj left right) : ¬ (cutEdge graph left right).Reachable left right := by
  have bridge := SimpleGraph.isAcyclic_iff_forall_adj_isBridge.mp acyclic edge
  exact (SimpleGraph.isBridge_iff.mp bridge)

/-- Within a part the paths are what they were. -/
theorem behind_cut_iff : Behind (cutEdge graph left right) here next far ↔
    Behind graph here next far ∧ (cutEdge graph left right).Reachable here far := by
  constructor
  · exact fun behind => ⟨behind.of_cut, behind.reachable⟩
  · rintro ⟨behind, reachable⟩
    obtain ⟨other, within⟩ := exists_behind reachable behind.ne
    rwa [behind.unique acyclic within.of_cut]

/-- What lies behind the edge is the part that is lost with it. -/
theorem behind_edge_iff (edge : graph.Adj left right) :
    Behind graph left right far ↔ (cutEdge graph left right).Reachable right far := by
  constructor
  · exact Behind.reachable_cut
  · intro reachable
    have apart : far ≠ left := by
      rintro rfl
      exact cut_apart acyclic edge reachable.symm
    have joined : graph.Reachable left far := edge.reachable.trans (reachable.mono (cutEdge_le graph left right))
    obtain ⟨next, behind⟩ := exists_behind joined apart
    by_cases same : next = right
    · exact same ▸ behind
    · -- another way to `far` would join the two parts
      have around := behind.reachable_cut_of_ne same
      exact absurd (around.trans reachable.symm) (cut_apart acyclic edge)

/-- A vertex is in one part or the other. -/
theorem reachable_cut (edge : graph.Adj left right) (reachable : graph.Reachable left far) :
    (cutEdge graph left right).Reachable left far ∨ (cutEdge graph left right).Reachable right far := by
  obtain behind | behind := behind_or_behind acyclic edge reachable
  · exact .inr ((behind_edge_iff acyclic edge).mp behind)
  · rw [behind_edge_iff acyclic edge.symm, cutEdge_comm] at behind
    exact .inl behind

/-- From the part behind the edge, the way to the other part leads to the edge and over it. -/
theorem behind_over_iff (edge : graph.Adj left right) (lost : (cutEdge graph left right).Reachable right here)
    (kept : (cutEdge graph left right).Reachable left far) : Behind graph here next far ↔
      here = right ∧ next = left ∨ Behind (cutEdge graph left right) here next right := by
  have across : Behind graph right left far := by
    rw [behind_edge_iff acyclic edge.symm, cutEdge_comm]
    exact kept
  have cutAcyclic : (cutEdge graph left right).IsAcyclic := cutEdge_acyclic acyclic
  -- by induction on the way to the edge
  induction steps : graph.dist here right using Nat.strong_induction_on generalizing here next with
  | h distance ih =>
    by_cases arrived : here = right
    · subst arrived
      have still : ¬ Behind (cutEdge graph left here) here next here := fun behind => behind.ne rfl
      simp only [still, or_false, true_and]
      exact ⟨fun behind => behind.unique acyclic across, fun same => same ▸ across⟩
    · obtain ⟨first, within⟩ := exists_behind lost.symm (Ne.symm arrived)
      have onward : Behind graph here first far := by
        obtain same | ⟨later, apart, rest⟩ := within.step cutAcyclic
        · subst same
          have notBack : left ≠ here := by
            rintro rfl
            exact cut_apart acyclic edge lost.symm
          exact across.extend acyclic within.of_cut.adj notBack
        · have closer := within.of_cut.closer acyclic
          have rest' := (ih _ (steps ▸ closer) (lost.trans within.adj.reachable) rfl).mpr (.inr rest)
          exact rest'.extend acyclic within.of_cut.adj apart
      simp only [arrived, false_and, false_or]
      constructor
      · intro behind
        rwa [behind.unique acyclic onward]
      · intro behind
        rwa [behind.unique cutAcyclic within]

end Acyclic

end Cut

end Ferrixd
