import Pocky.Shell.CommandLine

/-! The file of the aliases, and the table that is made of it. -/

namespace Pocky

/-- The character between a word and the text it stands for. -/
def equalsSign : UInt8 := 0x3D

/-- The rows of the table. -/
def maxAliases : Nat := 100

/-- The bytes of a word in the table, and those of its text; the last one is a zero. -/
def aliasNameSize : Nat := 64
def aliasValueSize : Nat := 256

/-- A row of the table. -/
structure SAlias where
  /-- The word. -/
  name : Nat → UInt8
  /-- The text it stands for. -/
  value : Nat → UInt8

/-- The table of the aliases. -/
structure AliasTable where
  /-- Its rows. -/
  aliases : Nat → SAlias
  /-- How many of them are in use. -/
  aliasCount : Nat

namespace AliasTable

/-- A line with the sign in it goes to the next row. -/
def addLine (table : AliasTable) (line : Name) : AliasTable :=
  if equalsSign ∈ line then
    let name := line.takeWhile (· ≠ equalsSign)
    let value := line.drop (name.length + 1)
    let row := table.aliases table.aliasCount
    { aliases := Function.update table.aliases table.aliasCount
        ⟨strncpy row.name 0 name (aliasNameSize - 1),
          strncpy row.value 0 value (aliasValueSize - 1)⟩
      aliasCount := table.aliasCount + 1 }
  else table

/-- The lines of a text, until the table is full. -/
def loadLines : Nat → Name → AliasTable → AliasTable
  | 0, _, table => table
  | steps + 1, text, table =>
    if text ≠ [] ∧ table.aliasCount < maxAliases then
      let line := text.takeWhile (· ≠ newline)
      let table := table.addLine line
      -- A line without a newline is the last one.
      if newline ∈ text then loadLines steps (text.drop (line.length + 1)) table else table
    else table

/-- The table that is made of the text of the file. -/
def loadAliases (table : AliasTable) (content : Name) : AliasTable :=
  loadLines (content.length + 1) content { table with aliasCount := 0 }

/-- The rows from one on, looked through for a word. -/
def lookUp (table : AliasTable) (word : Name) : Nat → Nat → Option Name
  | 0, _ => none
  | left + 1, index =>
    if stringIn (table.aliases index).name aliasNameSize = word then
      some (stringIn (table.aliases index).value aliasValueSize)
    else table.lookUp word left (index + 1)

/-- The text of the first row with a word. -/
def getAlias (table : AliasTable) (word : Name) : Option Name :=
  table.lookUp word table.aliasCount 0

end AliasTable

/-- What a line says: a word and the text behind the first sign, as far as the table has room. -/
def aliasOf (line : Name) : Option (Name × Name) :=
  if equalsSign ∈ line then
    let name := line.takeWhile (· ≠ equalsSign)
    some (name.take (aliasNameSize - 1), (line.drop (name.length + 1)).take (aliasValueSize - 1))
  else none

/-- The line of an alias. -/
def Alias.line (entry : Alias) : Name := entry.name ++ equalsSign :: entry.value ++ [newline]

/-- An alias that a line can say. -/
structure Alias.Writable (entry : Alias) : Prop where
  /-- The word is a string. -/
  string : 0 ∉ entry.name
  /-- The word ends where the first sign is. -/
  sign : equalsSign ∉ entry.name
  /-- It is on one line. -/
  name : newline ∉ entry.name
  /-- So is its text. -/
  value : newline ∉ entry.value

/-- The text in front of something that it does not have in it. -/
theorem takeWhile_front {char : UInt8} {front : Name} (plain : char ∉ front) (rest : Name) :
    (front ++ char :: rest).takeWhile (· ≠ char) = front := by
  have others : ∀ other ∈ front, (decide (other ≠ char)) = true := fun other member =>
    decide_eq_true fun same => plain (same ▸ member)
  rw [List.takeWhile_append_of_pos others, List.takeWhile_cons_of_neg (by simp), List.append_nil]

/-- The text behind it. -/
theorem drop_front (char : UInt8) (front rest : Name) :
    (front ++ char :: rest).drop (front.length + 1) = rest := by
  simp [List.drop_append]

/-- A line says the alias that it is the line of. -/
theorem aliasOf_line {entry : Alias} (writable : entry.Writable) :
    aliasOf (entry.name ++ equalsSign :: entry.value) = some (entry.name, entry.value) := by
  have inside : equalsSign ∈ entry.name ++ equalsSign :: entry.value :=
    List.mem_append_right _ List.mem_cons_self
  have named := entry.named
  have short := entry.short
  rw [aliasOf, if_pos inside, takeWhile_front writable.sign]
  dsimp only
  rw [drop_front, List.take_of_length_le (by simp only [aliasNameSize]; omega),
    List.take_of_length_le (by simp only [aliasValueSize]; omega)]

/-- The lines of aliases say these aliases, and nothing else. -/
theorem filterMap_lines (aliases : List Alias) (writable : ∀ entry ∈ aliases, entry.Writable) :
    ((aliases.flatMap Alias.line).splitOn newline).filterMap aliasOf =
      aliases.map fun entry => (entry.name, entry.value) := by
  -- By induction on the aliases; behind the last line there is an empty one.
  induction aliases with
  | nil => rfl
  | cons entry aliases ih =>
    have here := writable entry List.mem_cons_self
    have whole : newline ∉ entry.name ++ equalsSign :: entry.value := by
      rw [List.mem_append, List.mem_cons, not_or, not_or]
      exact ⟨here.name, by decide, here.value⟩
    rw [List.flatMap_cons, Alias.line, List.append_assoc (_ ++ _), List.singleton_append,
      List.splitOn_append_cons_self_of_not_mem whole,
      List.filterMap_cons_some (aliasOf_line here),
      ih fun other member => writable other (List.mem_cons_of_mem _ member), List.map_cons]

/-- A copy in front of a zero is a string. -/
theorem strncpy_holds {str : Nat → UInt8} {count : Nat} (ends : str count = 0) (text : Name) :
    HoldsString (strncpy str 0 text count) (text.take count) := by
  constructor
  · intro index inside
    rw [List.length_take] at inside
    rw [strncpy_apply, if_pos (by omega), Nat.sub_zero, List.getD_eq_getElem _ _ (by omega),
      List.getD_eq_getElem _ _ (by simpa using inside), List.getElem_take]
  · rw [List.length_take, strncpy_apply]
    -- A text that is cut ends at the zero, and behind a shorter one the copy has put zeros.
    by_cases cut : count ≤ text.length
    · rw [min_eq_left cut, if_neg (by omega), ends]
    · rw [min_eq_right (by omega), if_pos (by omega), List.getD_eq_default _ _ (by omega)]

/-- The last byte of a string in the table is never written. -/
def AliasTable.Ends (table : AliasTable) : Prop :=
  ∀ index, (table.aliases index).name (aliasNameSize - 1) = 0 ∧
    (table.aliases index).value (aliasValueSize - 1) = 0

/-- The rows of a table hold words and the texts they stand for. -/
structure AliasTable.Stores (table : AliasTable) (entries : List (Name × Name)) : Prop where
  /-- There is a row for each. -/
  count : table.aliasCount = entries.length
  /-- The words. -/
  names : ∀ index (inside : index < entries.length),
    HoldsString (table.aliases index).name entries[index].1
  /-- The texts. -/
  values : ∀ index (inside : index < entries.length),
    HoldsString (table.aliases index).value entries[index].2
  /-- All rows end. -/
  ends : table.Ends

namespace AliasTable

variable {table : AliasTable} {entries : List (Name × Name)}

/-- A line adds what it says. -/
theorem Stores.addLine (stores : table.Stores entries) (line : Name) :
    (table.addLine line).Stores (entries ++ (aliasOf line).toList) := by
  rw [AliasTable.addLine, aliasOf]
  by_cases signed : equalsSign ∈ line
  · rw [if_pos signed, if_pos signed]
    have ends := stores.ends table.aliasCount
    have count := stores.count
    have name := strncpy_holds ends.1 (line.takeWhile (· ≠ equalsSign))
    have value := strncpy_holds ends.2
      (line.drop ((line.takeWhile (· ≠ equalsSign)).length + 1))
    -- Only the row behind those in use is written.
    have earlier {index : Nat} {added : Name × Name} (other : index ≠ table.aliasCount)
        (inside : index < (entries ++ (some added).toList).length) : index < entries.length := by
      rw [List.length_append, Option.toList_some, List.length_singleton] at inside
      omega
    refine ⟨by simp [count], fun index inside => ?_, fun index inside => ?_, fun index => ?_⟩
    · by_cases last : index = table.aliasCount
      · subst last
        simpa [count] using name
      · have before := earlier last inside
        rw [List.getElem_append_left before]
        simpa [Function.update_of_ne last] using stores.names index before
    · by_cases last : index = table.aliasCount
      · subst last
        simpa [count] using value
      · have before := earlier last inside
        rw [List.getElem_append_left before]
        simpa [Function.update_of_ne last] using stores.values index before
    · by_cases last : index = table.aliasCount
      · subst last
        simpa [strncpy_apply] using ends
      · simpa [Function.update_of_ne last] using stores.ends index
  · rw [if_neg signed, if_neg signed]
    simpa using stores

/-- Lines add what they say, until the table is full. -/
theorem Stores.loadLines {steps : Nat} {text : Name} (stores : table.Stores entries)
    (room : entries.length ≤ maxAliases) (enough : text.length < steps) :
    (AliasTable.loadLines steps text table).Stores
      ((entries ++ (text.splitOn newline).filterMap aliasOf).take maxAliases) := by
  -- By induction on the steps, with the lines that are left.
  induction steps generalizing text table entries with
  | zero => omega
  | succ steps ih =>
    have count := stores.count
    rw [AliasTable.loadLines]
    by_cases free : table.aliasCount < maxAliases
    · have split (line : Name) (others : List Name) : (line :: others).filterMap aliasOf =
          (aliasOf line).toList ++ others.filterMap aliasOf := by
        cases said : aliasOf line <;> simp [said]
      have room' (line : Name) : (entries ++ (aliasOf line).toList).length ≤ maxAliases := by
        cases aliasOf line <;> simp <;> omega
      by_cases empty : text = []
      · subst empty
        rw [if_neg fun both => both.1 rfl, List.splitOn_nil, split, show aliasOf [] = none from rfl]
        simpa [List.take_of_length_le room] using stores
      · rw [if_pos ⟨empty, free⟩]
        dsimp only
        by_cases more : newline ∈ text
        · obtain ⟨front, rest, rfl, plain⟩ := List.eq_append_cons_of_mem more
          rw [if_pos more, takeWhile_front plain, drop_front,
            List.splitOn_append_cons_self_of_not_mem plain, split, ← List.append_assoc]
          rw [List.length_append, List.length_cons] at enough
          exact ih (stores.addLine front) (room' front) (by omega)
        · have whole : text.takeWhile (· ≠ newline) = text :=
            List.takeWhile_eq_self_iff.mpr fun other member =>
              decide_eq_true fun same => more (same ▸ member)
          rw [if_neg more, whole, List.splitOn_eq_singleton more, split, List.filterMap_nil,
            List.append_nil, List.take_of_length_le (room' text)]
          exact stores.addLine text
    · -- The table is full, and what is left of the text is not read.
      rw [if_neg fun both => free both.2, List.take_append_of_le_length (by omega),
        List.take_of_length_le room]
      exact stores

/-- The rows of aliases are looked through like the aliases. -/
theorem lookUp_eq {word : Name} {rest : List Alias} {index : Nat}
    (strings : ∀ entry ∈ rest, 0 ∉ entry.name)
    (names : ∀ offset (inside : offset < rest.length),
      HoldsString (table.aliases (index + offset)).name rest[offset].name)
    (values : ∀ offset (inside : offset < rest.length),
      HoldsString (table.aliases (index + offset)).value rest[offset].value) :
    table.lookUp word rest.length index = Pocky.getAlias rest word := by
  -- By induction on the aliases, with the row of the first one.
  induction rest generalizing index with
  | nil => rfl
  | cons entry rest ih =>
    have name : stringIn (table.aliases index).name aliasNameSize = entry.name :=
      (names 0 (Nat.succ_pos _)).stringIn entry.named (strings entry List.mem_cons_self)
    have value : stringIn (table.aliases index).value aliasValueSize = entry.value :=
      (values 0 (Nat.succ_pos _)).stringIn entry.short entry.string
    have next (offset : Nat) : index + 1 + offset = index + (offset + 1) := by omega
    have others : table.lookUp word rest.length (index + 1) = Pocky.getAlias rest word := by
      refine ih (fun other member => strings other (List.mem_cons_of_mem _ member)) ?_ ?_
      · intro offset inside
        rw [next]
        exact names (offset + 1) (Nat.succ_lt_succ inside)
      · intro offset inside
        rw [next]
        exact values (offset + 1) (Nat.succ_lt_succ inside)
    rw [List.length_cons, lookUp, name, value, others, Pocky.getAlias, Pocky.getAlias,
      List.find?_cons]
    by_cases same : entry.name = word
    · rw [if_pos same, decide_eq_true same]
      rfl
    · rw [if_neg same, decide_eq_false same]

/-- A table that stores aliases finds what the aliases say. -/
theorem Stores.getAlias {aliases : List Alias}
    (stores : table.Stores (aliases.map fun entry => (entry.name, entry.value)))
    (strings : ∀ entry ∈ aliases, 0 ∉ entry.name) (word : Name) :
    table.getAlias word = Pocky.getAlias aliases word := by
  have count := stores.count
  rw [List.length_map] at count
  rw [AliasTable.getAlias, count]
  refine lookUp_eq strings (fun offset inside => ?_) fun offset inside => ?_
  · have held := stores.names offset (by rw [List.length_map]; exact inside)
    rw [List.getElem_map] at held
    rw [Nat.zero_add]
    exact held
  · have held := stores.values offset (by rw [List.length_map]; exact inside)
    rw [List.getElem_map] at held
    rw [Nat.zero_add]
    exact held

/-- A table whose rows have not been used. -/
def blankTable : AliasTable := ⟨fun _ => ⟨fun _ => 0, fun _ => 0⟩, 0⟩

end AliasTable

end Pocky
