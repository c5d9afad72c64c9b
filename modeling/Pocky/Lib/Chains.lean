import Mathlib.Algebra.Order.Ring.Int
import Mathlib.Data.List.Nodup
import Mathlib.Data.List.Perm.Subperm
import Mathlib.Logic.Function.Basic

/-! Chains of cells linked by a successor function, ended by a mark. -/

namespace Pocky

variable {α : Type} {next next' : α → α} {ends : α → Prop}

/-- Each cell leads to the one behind it, and the last one to a mark. -/
def Linked (next : α → α) (ends : α → Prop) : List α → Prop
  | [] => False
  | [cell] => ends (next cell)
  | cell :: second :: rest => next cell = second ∧ Linked next ends (second :: rest)

/-- A chain from a start cell, without repetition and inside a domain. -/
structure ChainFrom (next : α → α) (ends : α → Prop) (valid : α → Prop) (start : α)
    (cells : List α) : Prop where
  /-- The cells are linked. -/
  linked : Linked next ends cells
  /-- The first cell is the start. -/
  head : cells.head? = some start
  /-- No cell comes twice. -/
  nodup : cells.Nodup
  /-- Every cell lies in the domain. -/
  valid : ∀ cell ∈ cells, valid cell

namespace Linked

/-- A chain has a cell. -/
theorem ne_nil {cells : List α} (linked : Linked next ends cells) : cells ≠ [] := by
  -- The empty list is no chain.
  rintro rfl
  exact linked

/-- The rest of a chain is a chain. -/
theorem drop {front rest : List α} {cell : α} (linked : Linked next ends (front ++ cell :: rest)) :
    Linked next ends (cell :: rest) := by
  -- By induction on the cells in front.
  induction front with
  | nil => exact linked
  | cons first front ih =>
    cases front with
    | nil => exact linked.2
    | cons second front => exact ih linked.2

/-- A cell leads to a mark or to another cell. -/
theorem next_cases {cells : List α} (linked : Linked next ends cells) {cell : α}
    (member : cell ∈ cells) : ends (next cell) ∨ next cell ∈ cells := by
  -- By induction along the chain; only the last cell leads to a mark.
  induction cells with
  | nil => exact linked.elim
  | cons first rest ih =>
    cases rest with
    | nil =>
      obtain rfl := List.mem_singleton.mp member
      exact Or.inl linked
    | cons second rest =>
      rcases List.mem_cons.mp member with rfl | later
      · right
        rw [linked.1]
        simp
      · exact (ih linked.2 later).imp_right (List.mem_cons_of_mem _)

/-- A chain depends only on the links of its own cells. -/
theorem congr {cells : List α} (linked : Linked next ends cells)
    (same : ∀ cell ∈ cells, next' cell = next cell) : Linked next' ends cells := by
  -- By induction along the chain.
  induction cells with
  | nil => exact linked
  | cons cell rest ih =>
    have here := same cell List.mem_cons_self
    cases rest with
    | nil =>
      have last : ends (next cell) := linked
      rw [← here] at last
      exact last
    | cons second rest =>
      exact ⟨here.trans linked.1, ih linked.2 fun other member =>
        same other (List.mem_cons_of_mem _ member)⟩

/-- The start of a chain determines it, as long as no cell is a mark. -/
theorem unique {cells others : List α} (linked : Linked next ends cells)
    (linked' : Linked next ends others) (head : cells.head? = others.head?)
    (inside : ∀ cell ∈ cells, ¬ ends cell) (inside' : ∀ cell ∈ others, ¬ ends cell) :
    cells = others := by
  -- By induction on the first chain, comparing where both cells lead.
  induction cells generalizing others with
  | nil => exact linked.elim
  | cons cell rest ih =>
    cases others with
    | nil => exact linked'.elim
    | cons other rest' =>
      obtain rfl : cell = other := Option.some.inj head
      cases rest with
      | nil =>
        cases rest' with
        | nil => rfl
        | cons second rest' =>
          have last : ends (next cell) := linked
          rw [linked'.1] at last
          exact absurd last (inside' second (by simp))
      | cons second rest =>
        cases rest' with
        | nil =>
          have last : ends (next cell) := linked'
          rw [linked.1] at last
          exact absurd last (inside second (by simp))
        | cons second' rest' =>
          have same : second = second' := linked.1.symm.trans linked'.1
          subst same
          rw [ih linked.2 linked'.2 rfl (fun other member => inside other (by simp_all))
            fun other member => inside' other (by simp_all)]

/-- Ending a chain at one of its cells. -/
theorem truncate {front rest : List α} {cell : α} (linked : Linked next ends (front ++ cell :: rest))
    (same : ∀ other ∈ front, next' other = next other) (last : ends (next' cell)) :
    Linked next' ends (front ++ [cell]) := by
  -- By induction on the cells in front, which keep their links.
  induction front with
  | nil => exact last
  | cons first front ih =>
    have here := same first List.mem_cons_self
    cases front with
    | nil => exact ⟨here.trans linked.1, last⟩
    | cons second front =>
      exact ⟨here.trans linked.1, ih linked.2 fun other member =>
        same other (List.mem_cons_of_mem _ member)⟩

/-- Replacing what follows a cell of a chain. -/
theorem splice {front rest : List α} {cell second : α} {others : List α}
    (linked : Linked next ends (front ++ cell :: rest))
    (same : ∀ other ∈ front, next' other = next other) (link : next' cell = second)
    (tail : Linked next' ends (second :: others)) :
    Linked next' ends (front ++ cell :: second :: others) := by
  -- By induction on the cells in front, which keep their links.
  induction front with
  | nil => exact ⟨link, tail⟩
  | cons first front ih =>
    have here := same first List.mem_cons_self
    cases front with
    | nil => exact ⟨here.trans linked.1, link, tail⟩
    | cons between front =>
      exact ⟨here.trans linked.1, ih linked.2 fun other member =>
        same other (List.mem_cons_of_mem _ member)⟩

end Linked

namespace ChainFrom

variable {valid : α → Prop} {start : α} {cells : List α}

/-- A chain begins with its start. -/
theorem exists_cons (chain : ChainFrom next ends valid start cells) :
    ∃ rest, cells = start :: rest := by
  -- The head of the list is known.
  cases cells with
  | nil => exact absurd rfl chain.linked.ne_nil
  | cons cell rest =>
    obtain rfl : cell = start := Option.some.inj chain.head
    exact ⟨rest, rfl⟩

/-- The start belongs to the chain. -/
theorem start_mem (chain : ChainFrom next ends valid start cells) : start ∈ cells := by
  -- It is the first cell.
  obtain ⟨rest, rfl⟩ := chain.exists_cons
  exact List.mem_cons_self

/-- A chain survives changes of links outside it. -/
theorem congr (chain : ChainFrom next ends valid start cells)
    (same : ∀ cell ∈ cells, next' cell = next cell) : ChainFrom next' ends valid start cells :=
  ⟨chain.linked.congr same, chain.head, chain.nodup, chain.valid⟩

/-- A chain is no longer than the numbers it can use. -/
theorem length_le {next : Nat → Nat} {ends valid : Nat → Prop} {start bound : Nat}
    {cells : List Nat} (chain : ChainFrom next ends valid start cells)
    (bounded : ∀ cell, valid cell → cell < bound) : cells.length ≤ bound := by
  -- Its cells are different numbers below the bound.
  have within : cells ⊆ List.range bound := fun cell member =>
    List.mem_range.mpr (bounded cell (chain.valid cell member))
  simpa using (List.subperm_of_subset chain.nodup within).length_le

/-- There is only one chain from a start. -/
theorem unique {others : List α} (chain : ChainFrom next ends valid start cells)
    (chain' : ChainFrom next ends valid start others) (inside : ∀ cell, valid cell → ¬ ends cell) :
    cells = others :=
  chain.linked.unique chain'.linked (chain.head.trans chain'.head.symm)
    (fun cell member => inside cell (chain.valid cell member))
    fun cell member => inside cell (chain'.valid cell member)

end ChainFrom

end Pocky
