import Mathlib.Algebra.Order.Ring.Int
import Mathlib.Data.List.Basic

/-! Intervals of addresses cut into consecutive records, each described by a local condition. -/

namespace Pocky

variable {β : Type}

/-- The records fill the interval from the first address up to the last, without gap or overlap. -/
def Tiles (holds : Nat → β → Prop) (width : β → Nat) : Nat → List β → Nat → Prop
  | low, [], high => low = high
  | low, record :: rest, high => holds low record ∧ Tiles holds width (low + width record) rest high

/-- The address at which each record of a tiling starts. -/
def located (width : β → Nat) : Nat → List β → List (Nat × β)
  | _, [] => []
  | low, record :: rest => (low, record) :: located width (low + width record) rest

variable {holds : Nat → β → Prop} {width : β → Nat}

/-- A tiling of two runs is a tiling of each, meeting at one address. -/
theorem Tiles.append {left right : List β} {low high : Nat} :
    Tiles holds width low (left ++ right) high ↔
      ∃ middle, Tiles holds width low left middle ∧ Tiles holds width middle right high := by
  induction left generalizing low with
  | nil =>
    constructor
    · intro tiles
      exact ⟨low, rfl, tiles⟩
    · rintro ⟨middle, same, tiles⟩
      exact (show low = middle from same) ▸ tiles
  | cons record rest ih =>
    simp only [List.cons_append, Tiles, ih]
    constructor
    · rintro ⟨here, middle, before, after⟩
      exact ⟨middle, ⟨here, before⟩, after⟩
    · rintro ⟨middle, ⟨here, before⟩, after⟩
      exact ⟨here, middle, before, after⟩

/-- A tiling never runs backwards. -/
theorem Tiles.le {records : List β} {low high : Nat} (tiles : Tiles holds width low records high) :
    low ≤ high := by
  induction records generalizing low with
  | nil => exact Nat.le_of_eq tiles
  | cons record rest ih =>
    have := ih tiles.2
    omega

/-- Records at least one address wide are fewer than the addresses they fill. -/
theorem Tiles.length_le {records : List β} {low high : Nat}
    (tiles : Tiles holds width low records high) (wide : ∀ record, 0 < width record) :
    records.length ≤ high - low := by
  induction records generalizing low with
  | nil => simp
  | cons record rest ih =>
    have room := tiles.2.le
    have shorter := ih tiles.2
    have := wide record
    simp only [List.length_cons]
    omega

/-- A tiling survives any change that keeps the local condition inside its own interval. -/
theorem Tiles.imp {holds' : Nat → β → Prop} {records : List β} {low high : Nat}
    (tiles : Tiles holds width low records high)
    (kept : ∀ addr record, low ≤ addr → addr + width record ≤ high → holds addr record →
      holds' addr record) :
    Tiles holds' width low records high := by
  induction records generalizing low with
  | nil => exact tiles
  | cons record rest ih =>
    exact ⟨kept low record (Nat.le_refl _) tiles.2.le tiles.1,
      ih tiles.2 fun addr other above below => kept addr other (by omega) below⟩

/-- Every located record lies inside the interval. -/
theorem Tiles.located_bounds {records : List β} {low high addr : Nat} {record : β}
    (tiles : Tiles holds width low records high) (member : (addr, record) ∈ located width low records) :
    low ≤ addr ∧ addr + width record ≤ high ∧ holds addr record := by
  induction records generalizing low with
  | nil => simp [located] at member
  | cons head rest ih =>
    rcases List.mem_cons.mp member with same | member
    · obtain ⟨rfl, rfl⟩ := Prod.mk.inj same
      exact ⟨Nat.le_refl _, tiles.2.le, tiles.1⟩
    · obtain ⟨above, below, here⟩ := ih tiles.2 member
      exact ⟨by omega, below, here⟩

/-- Locations of an appended run continue where the first run ends. -/
theorem Tiles.located_append {left right : List β} {low middle : Nat}
    (tiles : Tiles holds width low left middle) :
    located width low (left ++ right) = located width low left ++ located width middle right := by
  induction left generalizing low with
  | nil => exact congrArg (located width · right) tiles
  | cons record rest ih => simp only [List.cons_append, located, ih tiles.2]

/-- A tiling can be cut in front of any record it holds. -/
theorem Tiles.cut {records : List β} {low high addr : Nat} {record : β}
    (tiles : Tiles holds width low records high) (member : (addr, record) ∈ located width low records) :
    ∃ before after, records = before ++ record :: after ∧
      Tiles holds width low before addr ∧ Tiles holds width addr (record :: after) high := by
  induction records generalizing low with
  | nil => simp [located] at member
  | cons head rest ih =>
    rcases List.mem_cons.mp member with same | member
    · obtain ⟨rfl, rfl⟩ := Prod.mk.inj same
      exact ⟨[], rest, rfl, rfl, tiles⟩
    · obtain ⟨before, after, rfl, front, back⟩ := ih tiles.2 member
      exact ⟨head :: before, after, rfl, ⟨tiles.1, front⟩, back⟩

/-- Locations before an address stay strictly clear of those at or after it. -/
theorem Tiles.located_disjoint {records : List β} {low high : Nat}
    (tiles : Tiles holds width low records high) {a b : Nat} {x y : β}
    (first : (a, x) ∈ located width low records) (second : (b, y) ∈ located width low records) :
    (a = b ∧ x = y) ∨ a + width x ≤ b ∨ b + width y ≤ a := by
  induction records generalizing low with
  | nil => simp [located] at first
  | cons head rest ih =>
    rcases List.mem_cons.mp first with same | later
    · obtain ⟨rfl, rfl⟩ := Prod.mk.inj same
      rcases List.mem_cons.mp second with same' | later'
      · obtain ⟨rfl, rfl⟩ := Prod.mk.inj same'
        exact Or.inl ⟨rfl, rfl⟩
      · exact Or.inr (Or.inl (tiles.2.located_bounds later').1)
    · rcases List.mem_cons.mp second with same' | later'
      · obtain ⟨rfl, rfl⟩ := Prod.mk.inj same'
        exact Or.inr (Or.inr (tiles.2.located_bounds later).1)
      · exact ih tiles.2 later later'

end Pocky
