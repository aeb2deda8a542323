import Mathlib.Combinatorics.SimpleGraph.Acyclic

/-!
# Next hops in a tree

In a tree the neighbours of `v` are told apart by what lies behind them: every other vertex `x` is behind exactly one, the
next hop of `v` to `x`. `Toward` says it by distances, so that a step towards `x` can be used as an induction.
-/

namespace Ns3Fancy.NextHop
set_option autoImplicit false

variable {V : Type} {G : SimpleGraph V} {x u v w : V}

/-- `w` is a neighbour of `v` and closer to `x`. -/
def Toward (G : SimpleGraph V) (x v w : V) : Prop := G.Adj v w ∧ G.dist x w < G.dist x v

theorem Toward.adj (h : Toward G x v w) : G.Adj v w := h.1

theorem Toward.lt (h : Toward G x v w) : G.dist x w < G.dist x v := h.2

theorem Toward.asymm (h : Toward G x v w) : ¬Toward G x w v := fun back => Nat.lt_asymm h.lt back.lt

theorem Toward.ne (h : Toward G x v w) : v ≠ x := by
  rintro rfl
  have less := h.lt
  rw [SimpleGraph.dist_self] at less
  exact Nat.not_lt_zero _ less

/-- A neighbour that is the destination is the next hop. -/
theorem toward_self (adj : G.Adj v x) : Toward G x v x := by
  refine ⟨adj, ?_⟩
  rw [SimpleGraph.dist_self, SimpleGraph.dist_eq_one_iff_adj.2 adj.symm]
  exact Nat.one_pos

section
variable (tree : G.IsTree)
include tree

theorem Toward.dist (h : Toward G x v w) : G.dist x v = G.dist x w + 1 := by
  have less := h.lt
  rcases tree.dist_eq_dist_add_one_of_adj x h.adj with further | closer
  · exact further
  · omega

/-- Of the two ends of an edge one is closer. -/
theorem toward_or (x : V) (adj : G.Adj v w) : Toward G x v w ∨ Toward G x w v := by
  rcases tree.dist_eq_dist_add_one_of_adj x adj with further | closer
  · exact Or.inl ⟨adj, by omega⟩
  · exact Or.inr ⟨adj.symm, by omega⟩

theorem toward_of_not (adj : G.Adj v w) (away : ¬Toward G x v w) : Toward G x w v :=
  (toward_or tree x adj).resolve_left away

/-- There is a next hop to everything else. -/
theorem exists_toward (ne : v ≠ x) : ∃ w, Toward G x v w := by
  obtain ⟨p, length⟩ := tree.connected.exists_walk_length_eq_dist v x
  cases p with
  | nil => exact absurd rfl ne
  | @cons _ w _ adj rest =>
    refine ⟨w, adj, ?_⟩
    have bound := SimpleGraph.dist_le rest
    rw [SimpleGraph.Walk.length_cons] at length
    rw [SimpleGraph.dist_comm (u := x) (v := w), SimpleGraph.dist_comm (u := x) (v := v)]
    omega

/-- **There is only one next hop**: two would be the ends of two different paths. -/
theorem Toward.unique (h : Toward G x v w) (h' : Toward G x v u) : w = u := by
  have shortest : ∀ {y : V}, Toward G x v y → ∃ p : G.Walk x v, p.IsPath ∧ y = p.penultimate := by
    intro y toward
    obtain ⟨q, length⟩ := tree.connected.exists_walk_length_eq_dist x y
    refine ⟨q.concat toward.adj.symm, ?_, by simp⟩
    apply SimpleGraph.Walk.isPath_of_length_eq_dist
    rw [SimpleGraph.Walk.length_concat, length, toward.dist tree]
  obtain ⟨p, path, rfl⟩ := shortest h
  obtain ⟨q, path', rfl⟩ := shortest h'
  have same : (⟨p, path⟩ : G.Path x v) = ⟨q, path'⟩ := (tree.isAcyclic.subsingleton_path x v).elim _ _
  rw [Subtype.mk.inj same]

end

/-- `w` lies on the path from `v` to `x`. -/
def Between (G : SimpleGraph V) (v x w : V) : Prop := G.dist v w + G.dist w x = G.dist v x

theorem between_self (G : SimpleGraph V) (v x : V) : Between G v x v := by
  rw [Between, SimpleGraph.dist_self, Nat.zero_add]

/-- A step from a vertex of the path towards its end stays on the path. -/
theorem Between.step (tree : G.IsTree) (on : Between G v x u) (h : Toward G x u w) : Between G v x w := by
  have closer := h.dist tree
  have near := tree.connected.dist_triangle (u := v) (v := u) (w := w)
  have far := tree.connected.dist_triangle (u := v) (v := w) (w := x)
  have one := SimpleGraph.dist_eq_one_iff_adj.2 h.adj
  rw [SimpleGraph.dist_comm (u := x) (v := u), SimpleGraph.dist_comm (u := x) (v := w)] at closer
  rw [Between] at on ⊢
  omega

end Ns3Fancy.NextHop
