import Mathlib.Algebra.Order.Ring.Int
import Mathlib.Logic.Basic
import Mathlib.Tactic.Basic

/-! Graphs in which every node that can be reached from a root has one way to it. -/

namespace Pocky

variable {Node Label : Type} {edge edge' : Node → Label → Node → Prop} {root : Node}

/-- The nodes that can be reached from a root, with the length of the way. -/
inductive Reach (edge : Node → Label → Node → Prop) (root : Node) : Node → Nat → Prop where
  /-- The root is there already. -/
  | root : Reach edge root root 0
  /-- An edge leads one step further. -/
  | child {node target : Node} {label : Label} {depth : Nat} (above : Reach edge root node depth)
      (leads : edge node label target) : Reach edge root target (depth + 1)

/-- No edge leads to the root, and only one to any other node. -/
structure Rooted (edge : Node → Label → Node → Prop) (root : Node) : Prop where
  /-- No edge leads to the root. -/
  rootless : ∀ {node label depth}, Reach edge root node depth → ¬ edge node label root
  /-- An edge is known by the node it leads to. -/
  unique : ∀ {node node' label label' target depth depth'}, Reach edge root node depth →
    Reach edge root node' depth' → edge node label target → edge node' label' target →
    node = node' ∧ label = label'

namespace Reach

/-- The start of a way of length zero. -/
theorem eq_root {node : Node} (reach : Reach edge root node 0) : node = root := by
  cases reach
  rfl

/-- Ways can be put together. -/
theorem trans {node target : Node} {depth more : Nat} (reach : Reach edge root node depth)
    (further : Reach edge node target more) : Reach edge root target (depth + more) := by
  -- By induction on the second way.
  induction further with
  | root => exact reach
  | child above leads ih => exact ih.child leads

/-- What can be reached with fewer edges can be reached with all. -/
theorem mono {node : Node} {depth : Nat} (reach : Reach edge' root node depth)
    (fewer : ∀ {node label target depth}, Reach edge root node depth → edge' node label target →
      edge node label target) : Reach edge root node depth := by
  -- By induction on the way.
  induction reach with
  | root => exact .root
  | child above leads ih => exact ih.child (fewer ih leads)

/-- A node can still be reached if the edges in less depth have stayed. -/
theorem shallow {node : Node} {depth : Nat} (reach : Reach edge root node depth)
    (stays : ∀ {node label target above}, above < depth → Reach edge root node above →
      edge node label target → edge' node label target) : Reach edge' root node depth := by
  -- By induction on the way, all of whose edges are less deep than its end.
  induction reach with
  | root => exact .root
  | child above leads ih =>
    have way := ih fun below reach leads => stays (Nat.lt_succ_of_lt below) reach leads
    exact way.child (stays (Nat.lt_succ_self _) above leads)

/-- A node to which only edges from itself lead cannot be reached. -/
theorem not_of_self_edge {target : Node} (other : target ≠ root)
    (self : ∀ {node label depth}, Reach edge root node depth → edge node label target →
      node = target) (depth : Nat) : ¬ Reach edge root target depth := by
  -- By induction on the length, since every way would contain a shorter one.
  induction depth with
  | zero => exact fun reach => other reach.eq_root
  | succ depth ih =>
    rintro (_ | ⟨above, leads⟩)
    rw [self above leads] at above
    exact ih above

end Reach

namespace Rooted

/-- A node has one depth. -/
theorem depth_unique (rooted : Rooted edge root) {node : Node} {depth depth' : Nat}
    (reach : Reach edge root node depth) (reach' : Reach edge root node depth') :
    depth = depth' := by
  -- By induction on one way; the last steps of both are the same edge.
  induction reach generalizing depth' with
  | root =>
    cases reach' with
    | root => rfl
    | child above leads => exact absurd leads (rooted.rootless above)
  | child above leads ih =>
    cases reach' with
    | root => exact absurd leads (rooted.rootless above)
    | child above' leads' =>
      obtain ⟨rfl, -⟩ := rooted.unique above above' leads leads'
      rw [ih above']

/-- A child is deeper than its parent. -/
theorem child_depth (rooted : Rooted edge root) {node target : Node} {label : Label}
    {depth depth' : Nat} (reach : Reach edge root node depth) (leads : edge node label target)
    (reach' : Reach edge root target depth') : depth' = depth + 1 :=
  rooted.depth_unique reach' (reach.child leads)

end Rooted

end Pocky
