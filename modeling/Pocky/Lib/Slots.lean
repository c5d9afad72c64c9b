import Mathlib.Logic.Function.Basic
import Pocky.Lib.Rooted

/-! Graphs whose edges are the slots of their nodes, and what a change of slots does to them. -/

namespace Pocky

variable {Node Label : Type}

/-- The edges of nodes that own slots, each of which leads somewhere or nowhere. -/
def SlotEdge (owns : Node → Label → Prop) (leads : Label → Option Node) (node : Node)
    (label : Label) (target : Node) : Prop :=
  owns node label ∧ leads label = some target

/-- A node to which exactly one edge leads from nodes that can be reached. -/
def OneEdge (edge : Node → Label → Node → Prop) (root node : Node) : Prop :=
  ∃ parent label, (∃ above, Reach edge root parent above) ∧ edge parent label node ∧
    ∀ other place, (∃ above, Reach edge root other above) → edge other place node →
      other = parent ∧ place = label

/-- Every node that could be reached has exactly one edge to it. -/
def KeepsNodes (edge edge' : Node → Label → Node → Prop) (root : Node) : Prop :=
  ∀ node depth, Reach edge root node depth → node ≠ root → OneEdge edge' root node

/-- A node other than the root has an edge from a node that can be reached. -/
theorem Reach.above {edge : Node → Label → Node → Prop} {root node : Node} {depth : Nat}
    (reach : Reach edge root node depth) (other : node ≠ root) :
    ∃ parent label above, Reach edge root parent above ∧ edge parent label node := by
  cases reach with
  | root => exact absurd rfl other
  | child above leads => exact ⟨_, _, _, above, leads⟩

/-- A rooted graph that does not change keeps its nodes. -/
theorem Rooted.keepsNodes {edge : Node → Label → Node → Prop} {root : Node}
    (rooted : Rooted edge root) : KeepsNodes edge edge root := by
  intro node depth reach other
  obtain ⟨parent, label, above, way, leads⟩ := reach.above other
  refine ⟨parent, label, ⟨above, way⟩, leads, ?_⟩
  rintro parent' label' ⟨above', way'⟩ leads'
  exact rooted.unique way' way leads' leads

section Changes

variable {owns : Node → Label → Prop} {leads leads' : Label → Option Node} {root : Node}

/-- If what slots lead to was known before, so is all that can be reached. -/
theorem Reach.within {node : Node} {depth : Nat}
    (reach : Reach (SlotEdge owns leads') root node depth)
    (known : ∀ label target, leads' label = some target → leads label = some target ∨
      ∃ above, Reach (SlotEdge owns leads) root target above) :
    ∃ above, Reach (SlotEdge owns leads) root node above := by
  -- By induction on the way.
  induction reach with
  | root => exact ⟨0, .root⟩
  | child _ step ih =>
    obtain ⟨above, way⟩ := ih
    rcases known _ _ step.2 with same | target
    · exact ⟨_, way.child ⟨step.1, same⟩⟩
    · exact target

/-- A node is lost when the slot that led to it does not, and no other one does that had not. -/
theorem Rooted.not_keepsNodes_of_lost (rooted : Rooted (SlotEdge owns leads) root)
    {parent target : Node} {place : Label} {depth : Nat}
    (above : Reach (SlotEdge owns leads) root parent depth)
    (step : SlotEdge owns leads parent place target)
    (known : ∀ label target, leads' label = some target → leads label = some target ∨
      ∃ above, Reach (SlotEdge owns leads) root target above)
    (lost : ∀ label, leads' label = some target → label ≠ place ∧ leads label = some target) :
    ¬ KeepsNodes (SlotEdge owns leads) (SlotEdge owns leads') root := by
  intro keeps
  have notRoot : target ≠ root := by
    rintro rfl
    exact rooted.rootless above step
  obtain ⟨other, label, ⟨depth', reach'⟩, ⟨own, led⟩, -⟩ := keeps target _ (above.child step) notRoot
  obtain ⟨different, same⟩ := lost label led
  obtain ⟨_, way⟩ := reach'.within known
  exact different (rooted.unique way above ⟨own, same⟩ step).2

variable [DecidableEq Label] {place : Label} {target : Node}

/-- Filling a slot that led nowhere keeps the edges. -/
theorem SlotEdge.filled {node goal : Node} {label : Label} (step : SlotEdge owns leads node label goal)
    (free : leads place = none) (new : Option Node) :
    SlotEdge owns (Function.update leads place new) node label goal := by
  refine ⟨step.1, ?_⟩
  rw [Function.update_of_ne, step.2]
  rintro rfl
  have nowhere := step.2
  rw [free] at nowhere
  cases nowhere

/-- What a slot leads to after another one has been filled. -/
theorem update_eq_some {label : Label} {new : Option Node} {goal : Node}
    (led : Function.update leads place new label = some goal) :
    (label = place ∧ new = some goal) ∨ (label ≠ place ∧ leads label = some goal) := by
  by_cases here : label = place
  · rw [here, Function.update_self] at led
    exact Or.inl ⟨here, led⟩
  · rw [Function.update_of_ne here] at led
    exact Or.inr ⟨here, led⟩

/-- A node has two edges when a slot that led nowhere leads to it too. -/
theorem Reach.not_keepsNodes_of_doubled {other : Node} {depth depth' : Nat}
    (reach : Reach (SlotEdge owns leads) root target depth) (notRoot : target ≠ root)
    (reach' : Reach (SlotEdge owns leads) root other depth') (own : owns other place)
    (free : leads place = none) :
    ¬ KeepsNodes (SlotEdge owns leads)
      (SlotEdge owns (Function.update leads place (some target))) root := by
  intro keeps
  obtain ⟨parent, label, above, way, step⟩ := reach.above notRoot
  obtain ⟨node, here, -, -, only⟩ := keeps target _ reach notRoot
  obtain ⟨-, first⟩ :=
    only parent label ⟨_, way.mono fun _ step => step.filled free _⟩ (step.filled free _)
  obtain ⟨-, second⟩ := only other place ⟨_, reach'.mono fun _ step => step.filled free _⟩
    ⟨own, Function.update_self _ _ _⟩
  have led := step.2
  rw [first, ← second, free] at led
  cases led

/-- Slots of which one has been emptied after another one has been filled. -/
def moved (leads : Label → Option Node) (place slot : Label) (new : Option Node) :
    Label → Option Node :=
  Function.update (Function.update leads slot new) place none

/-- What a slot leads to after a move. -/
theorem moved_eq_some {slot label : Label} {new : Option Node} {goal : Node}
    (led : moved leads place slot new label = some goal) :
    label ≠ place ∧ ((label = slot ∧ new = some goal) ∨ leads label = some goal) := by
  rcases update_eq_some led with ⟨-, wrong⟩ | ⟨different, inner⟩
  · cases wrong
  · exact ⟨different, (update_eq_some inner).imp_right And.right⟩

/-- After a move of a node only what could be reached before can be. -/
theorem Reach.of_moved {node parent : Node} {slot : Label} {depth depth' : Nat}
    (reach : Reach (SlotEdge owns (moved leads place slot (some target))) root node depth')
    (above : Reach (SlotEdge owns leads) root parent depth)
    (step : SlotEdge owns leads parent place target) :
    ∃ above, Reach (SlotEdge owns leads) root node above := by
  refine reach.within fun label goal led => ?_
  obtain ⟨-, ⟨-, same⟩ | same⟩ := moved_eq_some led
  · exact Or.inr ⟨_, Option.some.inj same ▸ above.child step⟩
  · exact Or.inl same

/-- A move to a slot that led to another node loses that one. -/
theorem Rooted.not_keepsNodes_of_overwritten (rooted : Rooted (SlotEdge owns leads) root)
    {parent victim : Node} {slot : Label} {depth : Nat} {new : Option Node}
    (above : Reach (SlotEdge owns leads) root parent depth)
    (step : SlotEdge owns leads parent slot victim) (other : new ≠ some victim)
    (known : ∀ node, new = some node → ∃ above, Reach (SlotEdge owns leads) root node above) :
    ¬ KeepsNodes (SlotEdge owns leads) (SlotEdge owns (moved leads place slot new)) root := by
  refine rooted.not_keepsNodes_of_lost above step (fun label node led => ?_) fun label led => ?_
  · obtain ⟨-, ⟨-, same⟩ | same⟩ := moved_eq_some led
    · exact Or.inr (known node same)
    · exact Or.inl same
  · rcases update_eq_some led with ⟨-, wrong⟩ | ⟨-, inner⟩
    · cases wrong
    · rcases update_eq_some inner with ⟨-, same⟩ | kept
      · exact absurd same other
      · exact kept

/-- One more edge to the root does no harm. -/
theorem Rooted.keepsNodes_root (rooted : Rooted (SlotEdge owns leads) root) (free : leads place = none) :
    KeepsNodes (SlotEdge owns leads) (SlotEdge owns (Function.update leads place (some root))) root := by
  intro node depth reach other
  obtain ⟨parent, label, above, way, step⟩ := reach.above other
  refine ⟨parent, label, ⟨above, way.mono fun _ step => step.filled free _⟩, step.filled free _, ?_⟩
  rintro parent' label' ⟨above', way'⟩ ⟨own, led⟩
  have known : ∃ above, Reach (SlotEdge owns leads) root parent' above :=
    way'.within fun label target led => by
      rcases update_eq_some led with ⟨-, same⟩ | ⟨-, same⟩
      · exact Or.inr ⟨0, Option.some.inj same ▸ .root⟩
      · exact Or.inl same
  obtain ⟨_, known⟩ := known
  rcases update_eq_some led with ⟨-, same⟩ | ⟨-, same⟩
  · exact absurd (Option.some.inj same).symm other
  · exact rooted.unique known way ⟨own, same⟩ step

section Moving

variable (rooted : Rooted (SlotEdge owns leads) root) {parent goal : Node} {depth : Nat} {slot : Label}
  (above : Reach (SlotEdge owns leads) root parent depth)
  (step : SlotEdge owns leads parent place target)
include rooted above step

/-- What can be reached without a slot, that of a node that lies at least as deep. -/
theorem Rooted.reach_without (owner : ∀ {node depth}, Reach (SlotEdge owns leads) root node depth →
      owns node place → node = parent) {node : Node} {depth' : Nat}
    (reach : Reach (SlotEdge owns leads) root node depth') (less : depth' ≤ depth) :
    Reach (SlotEdge owns (Function.update leads place none)) root node depth' := by
  refine reach.shallow fun {node label target above'} below way led => ⟨led.1, ?_⟩
  rw [Function.update_of_ne, led.2]
  rintro rfl
  -- The slot belongs to a deeper node.
  obtain rfl := owner way led.1
  have depths := rooted.depth_unique way above
  omega

/-- Moving a node to a free slot of a node that can be reached without it keeps all nodes. -/
theorem Rooted.keepsNodes_moved (own : owns goal slot) (free : leads slot = none)
    (owner : ∀ {node depth}, Reach (SlotEdge owns leads) root node depth → owns node slot →
      node = goal)
    {depth' : Nat}
    (reach : Reach (SlotEdge owns (Function.update leads place none)) root goal depth') :
    KeepsNodes (SlotEdge owns leads) (SlotEdge owns (moved leads place slot (some target))) root := by
  have apart : slot ≠ place := by
    rintro rfl
    have led := step.2
    rw [free] at led
    cases led
  have new : moved leads place slot (some target) slot = some target := by
    rw [moved, Function.update_of_ne apart, Function.update_self]
  -- Slots other than the one emptied lead where they led.
  have kept : ∀ {node label goal}, label ≠ place → SlotEdge owns leads node label goal →
      SlotEdge owns (moved leads place slot (some target)) node label goal := by
    intro node label goal different step
    obtain ⟨own, led⟩ := step.filled free (some target)
    exact ⟨own, by rw [moved, Function.update_of_ne different, led]⟩
  have goalReach : Reach (SlotEdge owns (moved leads place slot (some target))) root goal depth' :=
    reach.mono fun _ led => by
      rcases update_eq_some led.2 with ⟨-, wrong⟩ | ⟨different, same⟩
      · cases wrong
      · exact kept different ⟨led.1, same⟩
  have unplaced : ∀ {node label goal}, SlotEdge owns leads node label goal → label = place →
      goal = target := by
    rintro node label goal led rfl
    exact Option.some.inj (led.2.symm.trans step.2)
  -- All that could be reached still can, by induction on the way.
  have reaches : ∀ {node depth}, Reach (SlotEdge owns leads) root node depth →
      ∃ above, Reach (SlotEdge owns (moved leads place slot (some target))) root node above := by
    intro node depth way
    induction way with
    | root => exact ⟨0, .root⟩
    | @child _ _ label _ above' led ih =>
      by_cases here : label = place
      · rw [unplaced led here]
        exact ⟨_, goalReach.child ⟨own, new⟩⟩
      · obtain ⟨_, way'⟩ := ih
        exact ⟨_, way'.child (kept here led)⟩
  intro node depth way other
  obtain ⟨node', label, above', way', led⟩ := way.above other
  by_cases here : label = place
  · -- The node moved is reached through its new slot only.
    obtain rfl := unplaced led here
    refine ⟨goal, slot, ⟨_, goalReach⟩, ⟨own, new⟩, ?_⟩
    rintro second label' ⟨_, reach'⟩ ⟨own', led'⟩
    obtain ⟨_, back⟩ := reach'.of_moved above step
    obtain ⟨different, ⟨rfl, -⟩ | same⟩ := moved_eq_some led'
    · exact ⟨owner back own', rfl⟩
    · exact absurd (rooted.unique back above ⟨own', same⟩ step).2 different
  · -- The others are reached as before.
    obtain ⟨_, reach'⟩ := reaches way'
    refine ⟨node', label, ⟨_, reach'⟩, kept here led, ?_⟩
    rintro second label' ⟨_, reach''⟩ ⟨own', led'⟩
    obtain ⟨_, back⟩ := reach''.of_moved above step
    obtain ⟨-, ⟨-, same⟩ | same⟩ := moved_eq_some led'
    · cases same
      exact absurd (rooted.unique way' above led step).2 here
    · exact rooted.unique back way' ⟨own', same⟩ led

/-- A node moved to a slot of its own is lost. -/
theorem Rooted.not_keepsNodes_of_self
    (owner : ∀ {node depth}, Reach (SlotEdge owns leads) root node depth → owns node slot →
      node = target) :
    ¬ KeepsNodes (SlotEdge owns leads) (SlotEdge owns (moved leads place slot (some target))) root := by
  intro keeps
  have notRoot : target ≠ root := by
    rintro rfl
    exact rooted.rootless above step
  obtain ⟨node, label, ⟨_, reach⟩, led, -⟩ := keeps target _ (above.child step) notRoot
  -- Every edge to the node starts at the node itself.
  refine Reach.not_of_self_edge notRoot ?_ _ (reach.child led)
  intro node label depth reach led
  obtain ⟨_, back⟩ := reach.of_moved above step
  obtain ⟨different, ⟨rfl, -⟩ | same⟩ := moved_eq_some led.2
  · exact owner back led.1
  · exact absurd (rooted.unique back above ⟨led.1, same⟩ step).2 different

end Moving

end Changes

end Pocky
