import Mathlib.Data.List.Nodup
import Mathlib.Logic.Relation

/-!
# Lineages in a forest

A forest is given by its roots and its parent relation.  The lineage of a node
is the path from its root down to it, root first.  When every node has at most
one parent, and roots have none, the lineage lists exactly the ancestors.
-/

universe u

/-- `path` leads from a root to `node`, root first. -/
inductive Lineage {Node : Type u} (root : Node → Prop)
    (parent : Node → Node → Prop) : Node → List Node → Prop
  | root {node : Node} : root node → Lineage root parent node [node]
  | child {above node : Node} {path : List Node} :
      Lineage root parent above path → parent above node →
      Lineage root parent node (path ++ [node])

/-- Every node has at most one parent, and a root has none. -/
structure Forest {Node : Type u} (root : Node → Prop)
    (parent : Node → Node → Prop) : Prop where
  oneParent : ∀ {first second node : Node},
    parent first node → parent second node → first = second
  rootless : ∀ {above node : Node}, parent above node → ¬ root node

namespace Lineage

variable {Node : Type u} {root wider : Node → Prop}
  {parent larger : Node → Node → Prop} {node other : Node}
  {path second : List Node}

theorem self_mem (lineage : Lineage root parent node path) : node ∈ path := by
  cases lineage with
  | root _ => exact List.mem_singleton_self node
  | child _ _ => simp

theorem mono (lineage : Lineage root parent node path)
    (roots : ∀ node, root node → wider node)
    (parents : ∀ above node, parent above node → larger above node) :
    Lineage wider larger node path := by
  induction lineage with
  | root isRoot => exact .root (roots _ isRoot)
  | child _ link ih => exact .child ih (parents _ _ link)

/-- A node of the path is an ancestor of the node the path leads to. -/
theorem reflTransGen_of_mem (lineage : Lineage root parent node path)
    (member : other ∈ path) : Relation.ReflTransGen parent other node := by
  induction lineage with
  | root _ =>
      rw [List.mem_singleton.mp member]
  | child _ link ih =>
      rcases List.mem_append.mp member with earlier | last
      · exact (ih earlier).tail link
      · rw [List.mem_singleton.mp last]

theorem mem_of_reflTransGen (forest : Forest root parent)
    (lineage : Lineage root parent node path)
    (descends : Relation.ReflTransGen parent other node) : other ∈ path := by
  induction lineage with
  | root isRoot =>
      rcases Relation.ReflTransGen.cases_tail descends with
        same | ⟨middle, _, link⟩
      · exact List.mem_singleton.mpr same.symm
      · exact absurd isRoot (forest.rootless link)
  | @child above node path _ link ih =>
      rcases Relation.ReflTransGen.cases_tail descends with
        same | ⟨middle, toMiddle, lastLink⟩
      · simp [same]
      · rw [forest.oneParent lastLink link] at toMiddle
        exact List.mem_append_left [node] (ih toMiddle)

/-- The lineage lists the node and its ancestors. -/
theorem mem_iff (forest : Forest root parent)
    (lineage : Lineage root parent node path) :
    other ∈ path ↔ Relation.ReflTransGen parent other node :=
  ⟨lineage.reflTransGen_of_mem, lineage.mem_of_reflTransGen forest⟩

theorem unique (forest : Forest root parent)
    (lineage : Lineage root parent node path)
    (another : Lineage root parent node second) : path = second := by
  induction lineage generalizing second with
  | root isRoot =>
      cases another with
      | root _ => rfl
      | child _ link => exact absurd isRoot (forest.rootless link)
  | child _ link ih =>
      cases another with
      | root isRoot => exact absurd isRoot (forest.rootless link)
      | child upper otherLink =>
          rw [forest.oneParent otherLink link] at upper
          rw [ih upper]

section Ranked

variable (rank : Node → Nat)

/-- A node whose known ancestors reach down to a root has a lineage. -/
theorem exists_of_rank (known : Node → Prop)
    (step : ∀ node, known node →
      root node ∨ ∃ above, known above ∧ parent above node ∧
        rank above < rank node)
    (isKnown : known node) : ∃ path, Lineage root parent node path := by
  induction bound : rank node using Nat.strongRecOn generalizing node with
  | ind value ih =>
      rcases step node isKnown with isRoot | ⟨above, aboveKnown, link, lower⟩
      · exact ⟨[node], .root isRoot⟩
      · obtain ⟨path, upper⟩ := ih (rank above) (bound ▸ lower) aboveKnown rfl
        exact ⟨path ++ [node], upper.child link⟩

variable (rootRank : ∀ node, root node → rank node = 0)
  (childRank : ∀ above node, parent above node → rank node = rank above + 1)

include rootRank childRank

theorem length_eq (lineage : Lineage root parent node path) :
    path.length = rank node + 1 := by
  induction lineage with
  | root isRoot => simp [rootRank _ isRoot]
  | child _ link ih => simp [ih, childRank _ _ link]

/-- The rank of a node is its position in the path. -/
theorem map_rank (lineage : Lineage root parent node path) :
    path.map rank = List.range path.length := by
  induction lineage with
  | root isRoot => simp [rootRank _ isRoot, List.range_succ]
  | child upper link ih =>
      have above := upper.length_eq rank rootRank childRank
      simp [ih, List.range_succ, childRank _ _ link, above]

theorem pairwise_rank (lineage : Lineage root parent node path) :
    path.Pairwise fun first second => rank first < rank second := by
  rw [← List.pairwise_map (f := rank) (R := (· < ·)),
    lineage.map_rank rank rootRank childRank]
  exact List.pairwise_lt_range

theorem nodup (lineage : Lineage root parent node path) : path.Nodup :=
  (lineage.pairwise_rank rank rootRank childRank).imp fun lower equal =>
    absurd (congrArg rank equal) (Nat.ne_of_lt lower)

end Ranked

/-- A transitive relation that every link respects relates the node to each of
its ancestors. -/
theorem relates_of_mem (bound : Node → Node → Prop)
    (transitive : ∀ {first second third : Node},
      bound first second → bound second third → bound first third)
    (linked : ∀ {above node : Node}, parent above node → bound node above)
    (lineage : Lineage root parent node path) (reflexive : bound node node)
    (member : other ∈ path) : bound node other := by
  have descends := lineage.reflTransGen_of_mem member
  clear lineage member
  induction descends using Relation.ReflTransGen.head_induction_on with
  | refl => exact reflexive
  | head link _ ih => exact transitive ih (linked link)

end Lineage

/-- With a rank that grows along every link no node descends from itself. -/
theorem not_transGen_self {Node : Type u} {parent : Node → Node → Prop}
    (rank : Node → Nat)
    (childRank : ∀ above node, parent above node → rank node = rank above + 1)
    (node : Node) : ¬ Relation.TransGen parent node node := by
  have grows : ∀ {first last : Node}, Relation.TransGen parent first last →
      rank first < rank last := by
    intro first last descends
    induction descends with
    | single link =>
        rw [childRank _ _ link]
        exact Nat.lt_succ_self _
    | tail _ link ih =>
        rw [childRank _ _ link]
        exact Nat.lt_succ_of_lt ih
  intro cycle
  exact absurd (grows cycle) (Nat.lt_irrefl _)
