import Pocky.Lib.Chains

/-! Owners of disjoint chains, and what replacing the chain of one of them requires. -/

namespace Pocky

variable {ι α : Type} {next next' : α → α} {ends valid : α → Prop} {owns owns' : ι → α → Prop}

/-- Every owner's start leads to a chain, and the chains of different owners share no cell. -/
structure Owned (next : α → α) (ends valid : α → Prop) (owns : ι → α → Prop) : Prop where
  /-- Starts lead to chains. -/
  chained : ∀ owner start, owns owner start → ∃ cells, ChainFrom next ends valid start cells
  /-- Different owners have different cells. -/
  disjoint : ∀ owner other start start' cells cells', owner ≠ other → owns owner start →
    owns other start' → ChainFrom next ends valid start cells →
    ChainFrom next ends valid start' cells' → ∀ cell ∈ cells, cell ∉ cells'

namespace Owned

/--
Replacing the chain of one owner.

The new chain uses cells of the old one and cells that were free.
Cells in use outside the old chain keep their links.
-/
theorem replace (owned : Owned next ends valid owns) (inside : ∀ cell, valid cell → ¬ ends cell)
    (used : α → Prop) (linkUsed : ∀ cell, ends (next cell) ∨ valid (next cell) → used cell)
    (owner : ι) {old new : List α}
    (kept : ∀ other start, other ≠ owner → owns' other start → owns other start)
    (was : old = [] ∨ ∃ start, owns owner start ∧ ChainFrom next ends valid start old)
    (frame : ∀ cell, valid cell → cell ∉ old → used cell → next' cell = next cell)
    (fresh : ∀ cell ∈ new, cell ∈ old ∨ ¬ used cell)
    (becomes : ∀ start, owns' owner start → ChainFrom next' ends valid start new) :
    Owned next' ends valid owns' := by
  -- The chains of other owners are outside the old one and in use, so they stay.
  have cellsUsed : ∀ {start cells}, ChainFrom next ends valid start cells → ∀ cell ∈ cells,
      used cell := by
    intro start cells chain cell member
    apply linkUsed
    exact (chain.linked.next_cases member).imp_right (chain.valid _)
  have others : ∀ other start cells, other ≠ owner → owns' other start →
      ChainFrom next ends valid start cells → ∀ cell ∈ cells, cell ∉ old := by
    intro other start cells different has chain cell member
    rcases was with rfl | ⟨start', has', chain'⟩
    · simp
    · exact owned.disjoint other owner start start' cells old different
        (kept other start different has) has' chain chain' cell member
  have stays : ∀ other start, other ≠ owner → owns' other start →
      ∃ cells, ChainFrom next ends valid start cells ∧ ChainFrom next' ends valid start cells := by
    intro other start different has
    obtain ⟨cells, chain⟩ := owned.chained other start (kept other start different has)
    refine ⟨cells, chain, chain.congr fun cell member => ?_⟩
    exact frame cell (chain.valid cell member)
      (others other start cells different has chain cell member) (cellsUsed chain cell member)
  -- Such a chain and the new one have nothing in common.
  have apart : ∀ other start cells, other ≠ owner → owns' other start →
      ChainFrom next' ends valid start cells → ∀ cell ∈ cells, cell ∉ new := by
    intro other start cells different has chain cell member here
    obtain ⟨before, chain', after⟩ := stays other start different has
    obtain rfl := chain.unique after inside
    rcases fresh cell here with reused | free
    · exact others other start cells different has chain' cell member reused
    · exact free (cellsUsed chain' cell member)
  refine ⟨?_, ?_⟩
  · intro other start has
    by_cases same : other = owner
    · subst same
      exact ⟨new, becomes start has⟩
    · obtain ⟨cells, -, after⟩ := stays other start same has
      exact ⟨cells, after⟩
  · intro first second start start' cells cells' different has has' chain chain' cell here there
    by_cases isFirst : first = owner
    · have isSecond : second ≠ owner := fun same => different (isFirst.trans same.symm)
      subst isFirst
      obtain rfl := chain.unique (becomes start has) inside
      exact apart second start' cells' isSecond has' chain' cell there here
    · by_cases isSecond : second = owner
      · subst isSecond
        obtain rfl := chain'.unique (becomes start' has') inside
        exact apart first start cells isFirst has chain cell here there
      · obtain ⟨cells₁, before, after⟩ := stays first start isFirst has
        obtain ⟨cells₂, before', after'⟩ := stays second start' isSecond has'
        obtain rfl := chain.unique after inside
        obtain rfl := chain'.unique after' inside
        exact owned.disjoint first second start start' cells cells' different
          (kept first start isFirst has) (kept second start' isSecond has') before before' cell here
          there

end Owned

end Pocky
