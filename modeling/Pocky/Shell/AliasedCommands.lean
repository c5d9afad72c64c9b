import Pocky.Lib.Lines
import Pocky.Shell.CommandLineLaws

/-! Which aliases have the commands of a line run otherwise than they are written. -/

namespace Pocky

/-- A word that a command can have. -/
structure CommandWord (word : Name) : Prop where
  /-- It is not empty. -/
  some : word ≠ []
  /-- It has no space. -/
  noSpace : space ∉ word
  /-- Nor does it end the command. -/
  noSemicolon : semicolon ∉ word
  /-- Nor the line. -/
  noZero : 0 ∉ word
  /-- No blank is in front. -/
  noBlank : ∀ char ∈ word.head?, ¬isBlank char

/-- No text of an alias has the word that stands in the format of text and arguments. -/
def PlainAliases (aliases : List Alias) : Prop :=
  ∀ word value, getAlias aliases word = some value → (cutCommand value).word ≠ chars "%s"

/-- The aliases of a volume that has had none. -/
def defaultAliases : List Alias :=
  [⟨chars "c", chars "clear", by decide, by decide, by decide⟩,
    ⟨chars "..", chars "cd ..", by decide, by decide, by decide⟩]

/-- A command is cut at its first space. -/
theorem cutCommand_append {word args : Name} (noSpace : space ∉ word) :
    cutCommand (word ++ space :: args) = ⟨word, some args⟩ := by
  have first : (word ++ space :: args).takeWhile (· ≠ space) = word := by
    rw [List.takeWhile_append_of_pos fun char inside => by
      simpa using fun same : char = space => noSpace (same ▸ inside)]
    simp
  rw [cutCommand, if_pos (by simp)]
  dsimp only
  rw [first, List.append_cons, List.drop_left' (by simp)]

/-- A command without a space is its word. -/
theorem cutCommand_word {word : Name} (noSpace : space ∉ word) :
    cutCommand word = ⟨word, none⟩ := if_neg noSpace

/-- The word of a command does not depend on what is behind a space. -/
theorem word_append (text args : Name) :
    (cutCommand (text ++ space :: args)).word = (cutCommand text).word := by
  by_cases spaced : space ∈ text
  · obtain ⟨word, behind, rfl, noSpace⟩ := List.eq_append_cons_of_mem spaced
    rw [List.append_assoc, List.cons_append, cutCommand_append noSpace, cutCommand_append noSpace]
  · rw [cutCommand_append spaced, cutCommand_word spaced]

/-- The text that a command is cut from. -/
def Command.text (command : Command) : Name :=
  match command.args with
  | none => command.word
  | some args => command.word ++ space :: args

/-- Cutting a command loses nothing of it. -/
theorem text_cutCommand (text : Name) : (cutCommand text).text = text := by
  by_cases spaced : space ∈ text
  · obtain ⟨word, args, rfl, noSpace⟩ := List.eq_append_cons_of_mem spaced
    rw [cutCommand_append noSpace, Command.text]
  · rw [cutCommand_word spaced, Command.text]

/-- What is read is stored, and ends in the input buffer. -/
theorem readString_holds {buffer : Buffer} {steps position : Nat} {text : Name}
    (read : readString buffer steps position = .ok text) :
    HoldsString (shifted buffer position) text ∧ text.length < steps := by
  induction steps generalizing position text with
  | zero => cases read
  | succ steps ih =>
    rw [readString] at read
    by_cases ends : buffer position = 0
    · rw [if_pos ends] at read
      cases read
      exact ⟨⟨fun index inside => absurd inside (Nat.not_lt_zero _), ends⟩, Nat.zero_lt_succ _⟩
    · rw [if_neg ends] at read
      obtain ⟨rest, behind, same⟩ := Run.bind_eq_ok.mp read
      cases same
      obtain ⟨holds, room⟩ := ih behind
      refine ⟨⟨fun index inside => ?_, ?_⟩, Nat.succ_lt_succ room⟩
      · cases index with
        | zero => rfl
        | succ index =>
          rw [List.getD_cons_succ, ← holds.chars index (by simpa using inside), shifted, shifted,
            Nat.add_assoc, Nat.add_comm 1]
      · rw [List.length_cons, ← holds.terminated, shifted, shifted, Nat.add_assoc, Nat.add_comm 1]

/-- What a command with an alias is run as is read where the text was copied. -/
theorem lookUpCommand_alias {aliases : List Alias} {buffer other : Buffer} {position : Nat}
    {text value : Name} {command : Command}
    (found : getAlias aliases (cutCommand text).word = some value)
    (looked : lookUpCommand aliases buffer position text = .ok (command, other)) :
    let expanded := expandAlias value (cutCommand text).args
    ∃ read, command = cutCommand read ∧ position + read.length < inputSize ∧
      HoldsString (shifted (strncpy (cutBuffer buffer position text) position expanded
        expanded.length) position) read := by
  intro expanded
  simp only [lookUpCommand, found] at looked
  obtain ⟨copied, copies, looked⟩ := Run.bind_eq_ok.mp looked
  obtain ⟨read, reads, same⟩ := Run.bind_eq_ok.mp looked
  cases same
  rw [copyInput] at copies
  split at copies
  case isTrue => cases copies
  case isFalse =>
    cases copies
    obtain ⟨holds, room⟩ := readString_holds reads
    exact ⟨read, rfl, by omega, holds⟩

/-- A command with an alias and arguments is run as the format of the two. -/
theorem lookUpCommand_spaced {aliases : List Alias} {buffer other : Buffer} {position : Nat}
    {word args value : Name} {command : Command} (noSpace : space ∉ word)
    (found : getAlias aliases word = some value)
    (looked : lookUpCommand aliases buffer position (word ++ space :: args) =
      .ok (command, other)) :
    ∃ rest, command = ⟨chars "%s", some (chars "%s" ++ rest)⟩ ∧
      ∀ char ∈ rest, ∃ index,
        char = cutBuffer buffer position (word ++ space :: args) (position + index) := by
  have cut := @cutCommand_append word args noSpace
  obtain ⟨read, rfl, -, holds⟩ := lookUpCommand_alias (by rw [cut]; exact found) looked
  rw [cut] at holds
  change HoldsString (shifted (strncpy _ position (chars "%s %s") 5) position) read at holds
  -- The copied format has no zero, so that what is read starts with it.
  obtain ⟨rest, rfl⟩ : chars "%s %s" <+: read := by
    refine holds.starts (by decide) fun index inside => ?_
    rw [shifted, strncpy_apply, if_pos ⟨by omega, Nat.add_lt_add_left inside _⟩,
      Nat.add_sub_cancel_left]
  refine ⟨rest, @cutCommand_append (chars "%s") _ (by decide), fun char inside => ?_⟩
  obtain ⟨index, short, rfl⟩ := List.mem_iff_getElem.mp inside
  refine ⟨(chars "%s %s").length + index, ?_⟩
  have here := holds.back.chars index short
  rw [shifted, strncpy_apply, if_neg (by rw [show (chars "%s %s").length = 5 from rfl]; omega),
    List.getD_eq_getElem _ _ short, Nat.add_assoc] at here
  exact here.symm

/--
A command is run as it is expanded just when its alias is safe, if no text of an alias has the word
of the format.
-/
theorem lookUpCommand_iff {aliases : List Alias} (plain : PlainAliases aliases) {buffer : Buffer}
    {position : Nat} {text : Name} (noZero : 0 ∉ text)
    (holds : HoldsString (shifted buffer position) text)
    (room : position + text.length < inputSize) :
    (∃ other, lookUpCommand aliases buffer position text =
        .ok (cutCommand (expand aliases text), other)) ↔
      SafeAlias aliases buffer position text True := by
  refine ⟨?_, fun safe => ?_⟩
  · rintro ⟨other, looked⟩ value found
    rw [expand, found] at looked
    by_cases spaced : space ∈ text
    · obtain ⟨word, args, rfl, noSpace⟩ := List.eq_append_cons_of_mem spaced
      -- With arguments the format is run instead, whose word is that of no alias.
      rw [cutCommand_append noSpace] at found looked
      dsimp only at found looked
      rw [List.drop_left] at looked
      obtain ⟨rest, same, -⟩ := lookUpCommand_spaced noSpace found looked
      have formatted := congrArg Command.word same
      rw [word_append] at formatted
      exact absurd formatted (plain _ _ found)
    · have whole := cutCommand_word spaced
      obtain ⟨read, same, inside, stored⟩ := lookUpCommand_alias found looked
      simp only [whole, List.drop_length, List.append_nil] at same stored
      -- The command is right, so that the text is read as it is, and ends in a zero of its own.
      obtain rfl : value = read := by rw [← text_cutCommand value, same, text_cutCommand]
      have expanded : expandAlias value none = value := List.take_of_length_le (by
        rw [expandedSize]; have := getAlias_string found; omega)
      have uncut : cutBuffer buffer position text = buffer := if_neg spaced
      rw [expanded, uncut] at stored
      have zero := stored.terminated
      rw [shifted, strncpy_apply, if_neg (by omega)] at zero
      refine ⟨spaced, ?_⟩
      -- A shorter text would be followed by what is left of the word.
      rcases Nat.lt_trichotomy value.length text.length with short | same | long
      · have char := holds.chars value.length short
        rw [shifted, zero, List.getD_eq_getElem _ _ short] at char
        exact absurd (char ▸ List.getElem_mem _) noZero
      · exact Or.inl same
      · exact Or.inr ⟨long, inside, zero, Or.inl trivial⟩
  · obtain ⟨other, looked, -⟩ := lookUpCommand_eq holds room safe
    exact ⟨other, looked⟩

/-- Whether the one command of a line is run as it is written lies with its alias. -/
theorem processCommand_alone {aliases : List Alias} {line : Name} {buffer : Buffer}
    (short : line.length < inputSize) (noZero : 0 ∉ line) (holds : HoldsString buffer line)
    (alone : semicolon ∉ stripped line) (command : (stripped line).dropWhile isBlank ≠ []) :
    processCommand aliases buffer line.length =
        .ok (commandsOf aliases ((stripped line).splitOn semicolon)) ↔
      ∃ other, lookUpCommand aliases (stripInput line.length buffer).2
          ((stripped line).takeWhile isBlank).length ((stripped line).dropWhile isBlank) =
        .ok (cutCommand (expand aliases ((stripped line).dropWhile isBlank)), other) := by
  obtain ⟨room, noZeroLeft⟩ := stripped_facts short noZero
  have kept := (stripInput_eq holds).2
  rw [← shifted_first (stripInput line.length buffer).2] at kept
  have one : commandsOf aliases ((stripped line).splitOn semicolon) =
      [cutCommand (expand aliases ((stripped line).dropWhile isBlank))] := by
    rw [List.splitOn_eq_singleton alone, commandsOf, if_neg command]
    dsimp only
    split
    · rfl
    · rfl
  rw [processCommand_stripped aliases holds, if_neg fun none => command (by rw [none]; rfl), one,
    processLoop_alone noZeroLeft kept room alone, if_neg command, Nat.zero_add, Run.bind_eq_ok]
  refine ⟨?_, ?_⟩
  · rintro ⟨⟨dispatched, other⟩, looked, same⟩
    cases same
    exact ⟨other, looked⟩
  · rintro ⟨other, looked⟩
    exact ⟨_, looked, rfl⟩

/-- A line of one command is run as it is written just when its alias is safe. -/
theorem processCommand_alone_iff {aliases : List Alias} (plain : PlainAliases aliases) {line : Name}
    {buffer : Buffer} (short : line.length < inputSize) (noZero : 0 ∉ line)
    (holds : HoldsString buffer line) (alone : semicolon ∉ stripped line) :
    processCommand aliases buffer line.length =
        .ok (commandsOf aliases ((stripped line).splitOn semicolon)) ↔
      SafeFrom aliases (stripInput line.length buffer).2 0
        ((stripped line).splitOn semicolon) := by
  refine ⟨fun right => ?_, processCommand_eq short noZero holds⟩
  rw [List.splitOn_eq_singleton alone]
  refine ⟨fun command => ?_, fun _ => trivial⟩
  obtain ⟨room, noZeroLeft⟩ := stripped_facts short noZero
  have kept := (stripInput_eq holds).2
  have lengths := blanks_length (stripped line)
  have stored : HoldsString (shifted (stripInput line.length buffer).2
      (0 + ((stripped line).takeWhile isBlank).length)) ((stripped line).dropWhile isBlank) :=
    HoldsString.back (by rw [List.takeWhile_append_dropWhile, shifted_first]; exact kept)
  have looked := (processCommand_alone short noZero holds alone command).mp right
  rw [← Nat.zero_add ((stripped line).takeWhile isBlank).length] at looked
  have safe := (lookUpCommand_iff plain
    (fun inside => noZeroLeft ((List.dropWhile_sublist _).subset inside)) stored (by omega)).mp looked
  rw [eq_self]
  exact safe

/-- The word of a command is a word that a command can have. -/
theorem commandWord {segment : Name} (noSemicolon : semicolon ∉ segment) (noZero : 0 ∉ segment)
    (command : segment.dropWhile isBlank ≠ []) :
    CommandWord (cutCommand (segment.dropWhile isBlank)).word := by
  have within : ∀ char ∈ segment.dropWhile isBlank, char ∈ segment := fun char inside =>
    (List.dropWhile_sublist _).subset inside
  have notBlank : ∀ char ∈ (segment.dropWhile isBlank).head?, ¬isBlank char := by
    rintro char first
    have stops := List.head?_dropWhile_not isBlank segment
    rw [Option.mem_def.mp first] at stops
    simpa using stops
  by_cases spaced : space ∈ segment.dropWhile isBlank
  · obtain ⟨word, args, same, noSpace⟩ := List.eq_append_cons_of_mem spaced
    rw [same] at within notBlank ⊢
    rw [cutCommand_append noSpace]
    have some : word ≠ [] := by
      rintro rfl
      exact notBlank space (by simp) (by decide)
    refine ⟨some, noSpace, fun inside => noSemicolon (within _ (List.mem_append_left _ inside)),
      fun inside => noZero (within _ (List.mem_append_left _ inside)), fun char first => ?_⟩
    exact notBlank char (by rw [List.head?_append_of_ne_nil _ some]; exact first)
  · rw [cutCommand_word spaced]
    exact ⟨command, spaced, fun inside => noSemicolon (within _ inside),
      fun inside => noZero (within _ inside), notBlank⟩

/-- Where no command has an alias, all of them are safe. -/
theorem safeFrom_of_none {aliases : List Alias} (none : ∀ word, CommandWord word →
      getAlias aliases word = none) (buffer : Buffer) {segments : List Name} :
    ∀ {position : Nat}, (∀ segment ∈ segments, semicolon ∉ segment ∧ 0 ∉ segment) →
      SafeFrom aliases buffer position segments := by
  induction segments with
  | nil => exact fun _ => trivial
  | cons segment segments ih =>
    intro position apart
    obtain ⟨noSemicolon, noZero⟩ := apart segment List.mem_cons_self
    refine ⟨fun command value found => ?_, fun _ =>
      ih fun segment inside => apart segment (List.mem_cons_of_mem _ inside)⟩
    rw [none _ (commandWord noSemicolon noZero command)] at found
    cases found

/-- The word of an alias has room in the table. -/
theorem getAlias_named {aliases : List Alias} {word value : Name}
    (found : getAlias aliases word = some value) : word.length < 64 := by
  rw [getAlias, Option.map_eq_some_iff] at found
  obtain ⟨entry, first, -⟩ := found
  have same : entry.name = word := by simpa using List.find?_some first
  exact same ▸ entry.named

/-- A line with zeros behind it is a string. -/
theorem HoldsString.padded (text : Name) : HoldsString (fun index => text.getD index 0) text :=
  ⟨fun _ _ => rfl, List.getD_eq_default _ _ le_rfl⟩

/-- The characters of a line of a word and a letter. -/
theorem letter_inside {word : Name} {char : UInt8} (inside : char ∈ word ++ [space, ascii 'x']) :
    char ∈ word ∨ char = space ∨ char = ascii 'x' := by
  simpa using inside

/-- A word with a letter behind it has no blank around it. -/
theorem letter_blanks {word : Name} (usable : CommandWord word) :
    stripped (word ++ [space, ascii 'x']) = word ++ [space, ascii 'x'] ∧
      (word ++ [space, ascii 'x']).takeWhile isBlank = [] ∧
      (word ++ [space, ascii 'x']).dropWhile isBlank = word ++ [space, ascii 'x'] := by
  obtain ⟨char, rest, rfl⟩ := List.exists_cons_of_ne_nil usable.some
  have first : isBlank char = false := by
    simpa using usable.noBlank char (by simp)
  refine ⟨?_, ?_, ?_⟩
  · rw [List.append_cons, stripped, List.rdropWhile_concat_neg _ _ _ (by decide)]
  · rw [List.cons_append, List.takeWhile_cons_of_neg (by simp [first])]
  · rw [List.cons_append, List.dropWhile_cons_of_neg (by simp [first])]

/-- A word with a letter behind it is a line that ends nowhere before. -/
theorem letter_ends {word : Name} (usable : CommandWord word) :
    semicolon ∉ word ++ [space, ascii 'x'] ∧ 0 ∉ word ++ [space, ascii 'x'] := by
  refine ⟨fun ends => ?_, fun ends => ?_⟩
  · obtain early | late | late := letter_inside ends
    · exact usable.noSemicolon early
    · exact absurd late (by decide)
    · exact absurd late (by decide)
  · obtain early | late | late := letter_inside ends
    · exact usable.noZero early
    · exact absurd late (by decide)
    · exact absurd late (by decide)

/-- No space is left where a word with a letter behind it is cut. -/
theorem letter_cut {word : Name} (noSpace : space ∉ word) (index : Nat) :
    cutBuffer (fun index => (word ++ [space, ascii 'x']).getD index 0) 0
      (word ++ [space, ascii 'x']) index ≠ space := by
  have first : (word ++ [space, ascii 'x']).takeWhile (· ≠ space) = word := by
    rw [List.takeWhile_append_of_pos fun char inside => by
      simpa using fun same : char = space => noSpace (same ▸ inside)]
    simp
  rw [cutBuffer, if_pos (by simp), first, Nat.zero_add]
  by_cases cut : index = word.length
  · rw [cut, Function.update_self]
    decide
  · rw [Function.update_of_ne cut]
    rcases Nat.lt_or_ge index word.length with before | behind
    · rw [List.getD_append _ _ _ _ before, List.getD_eq_getElem _ _ before]
      exact fun same => noSpace (same ▸ List.getElem_mem _)
    · rw [List.getD_append_right _ _ _ _ behind]
      obtain ⟨more, rfl⟩ : ∃ more, index = word.length + (more + 1) :=
        ⟨index - word.length - 1, by omega⟩
      rw [Nat.add_sub_cancel_left, List.getD_cons_succ]
      cases more with
      | zero => decide
      | succ more => simp only [List.getD_cons_succ, List.getD_nil]; decide

/-- A word with an alias leaves room for a letter behind it. -/
theorem letter_short {aliases : List Alias} {word value : Name}
    (found : getAlias aliases word = some value) :
    (word ++ [space, ascii 'x']).length < inputSize := by
  have named := getAlias_named found
  rw [List.length_append, List.length_cons, List.length_singleton, inputSize]
  omega

/-- A command with an alias and a letter behind it is not run as it is written. -/
theorem processCommand_letter {aliases : List Alias} {word value : Name} (usable : CommandWord word)
    (found : getAlias aliases word = some value) :
    processCommand aliases (fun index => (word ++ [space, ascii 'x']).getD index 0)
        (word ++ [space, ascii 'x']).length ≠
      .ok (commandsOf aliases
        ((stripped (word ++ [space, ascii 'x'])).splitOn semicolon)) := by
  intro right
  obtain ⟨same, noBlanks, all⟩ := letter_blanks usable
  obtain ⟨alone, noZero⟩ := letter_ends usable
  have holds := HoldsString.padded (word ++ [space, ascii 'x'])
  obtain ⟨other, looked⟩ := (processCommand_alone (letter_short found) noZero holds (by rw [same]; exact alone)
    (by rw [same, all]; simp)).mp right
  rw [stripInput_same holds same, same, noBlanks, all, expand,
    cutCommand_append usable.noSpace] at looked
  simp only [found, List.drop_left] at looked
  obtain ⟨rest, formatted, kept⟩ := lookUpCommand_spaced usable.noSpace found looked
  -- The arguments that are run have no space, and start with a percent sign.
  have noSpaceBehind : space ∉ chars "%s" ++ rest := by
    rw [List.mem_append, not_or]
    refine ⟨by decide, fun inside => ?_⟩
    obtain ⟨index, here⟩ := kept _ inside
    exact letter_cut usable.noSpace _ here.symm
  by_cases spaced : space ∈ value
  · obtain ⟨first, args, rfl, noSpace⟩ := List.eq_append_cons_of_mem spaced
    rw [List.append_assoc, List.cons_append, cutCommand_append noSpace] at formatted
    have behind := Option.some.inj (congrArg Command.args formatted)
    exact noSpaceBehind (by rw [← behind]; simp)
  · rw [cutCommand_append spaced] at formatted
    have behind := Option.some.inj (congrArg Command.args formatted)
    exact absurd (List.cons.inj behind).1 (by decide)

/--
The commands of a line are run in order if all of its aliases are safe, and a line of one command
is so just then; all lines are so just when no word that a command can have has an alias.
-/
theorem processCommand_iff (aliases : List Alias) :
    (∀ line buffer, line.length < inputSize → 0 ∉ line → HoldsString buffer line →
        SafeFrom aliases (stripInput line.length buffer).2 0 ((stripped line).splitOn semicolon) →
        processCommand aliases buffer line.length =
          .ok (commandsOf aliases ((stripped line).splitOn semicolon))) ∧
      (PlainAliases aliases → ∀ line buffer, line.length < inputSize → 0 ∉ line →
        HoldsString buffer line → semicolon ∉ stripped line →
        (processCommand aliases buffer line.length =
            .ok (commandsOf aliases ((stripped line).splitOn semicolon)) ↔
          SafeFrom aliases (stripInput line.length buffer).2 0
            ((stripped line).splitOn semicolon))) ∧
      ((∀ line buffer, line.length < inputSize → 0 ∉ line → HoldsString buffer line →
          processCommand aliases buffer line.length =
            .ok (commandsOf aliases ((stripped line).splitOn semicolon))) ↔
        ∀ word, CommandWord word → getAlias aliases word = none) := by
  refine ⟨fun line buffer short noZero holds => processCommand_eq short noZero holds,
    fun plain line buffer short noZero holds => processCommand_alone_iff plain short noZero holds,
    fun right word usable => ?_, fun none line buffer short noZero holds => ?_⟩
  · cases found : getAlias aliases word with
    | none => rfl
    | some value =>
      exact absurd (right _ _ (letter_short found) (letter_ends usable).2 (HoldsString.padded _))
        (processCommand_letter usable found)
  · refine processCommand_eq short noZero holds (safeFrom_of_none none _ fun segment inside => ?_)
    obtain ⟨apart, within⟩ := Lines.mem_splitOn inside
    exact ⟨apart, fun zero => (stripped_facts short noZero).2 (within zero)⟩

/-- An alias alone on its line is run as its text. -/
theorem processCommand_clear :
    processCommand defaultAliases (fun index => (chars "c").getD index 0) 1 =
      .ok [⟨chars "clear", none⟩] := by
  refine (processCommand_iff defaultAliases).1 (chars "c") _ (by decide) (by decide)
    (HoldsString.padded _) ?_
  change SafeFrom _ _ 0 [chars "c"]
  refine ⟨fun _ value found => ?_, fun _ => trivial⟩
  obtain rfl : chars "clear" = value := Option.some.inj found
  exact ⟨by decide, Or.inr ⟨by decide, by decide, rfl, Or.inl rfl⟩⟩

/-- With another command behind it, it is not: the text of the alias runs over that command. -/
theorem processCommand_ear :
    processCommand defaultAliases (fun index => (chars "c;ls").getD index 0) 4 =
        .ok [⟨chars "clear", none⟩, ⟨chars "ear", none⟩] ∧
      commandsOf defaultAliases ((stripped (chars "c;ls")).splitOn semicolon) =
        [⟨chars "clear", none⟩, ⟨chars "ls", none⟩] ∧
      ¬∀ aliases line buffer, line.length < inputSize → 0 ∉ line → HoldsString buffer line →
        processCommand aliases buffer line.length =
          .ok (commandsOf aliases ((stripped line).splitOn semicolon)) := by
  have ran : processCommand defaultAliases (fun index => (chars "c;ls").getD index 0) 4 =
      .ok [⟨chars "clear", none⟩, ⟨chars "ear", none⟩] :=
    Run.toOption_eq_some.mp (by decide +kernel)
  refine ⟨ran, by decide +kernel, fun right => ?_⟩
  have same := right defaultAliases (chars "c;ls") _ (by decide) (by decide) (HoldsString.padded _)
  rw [show (chars "c;ls").length = 4 from rfl, ran] at same
  exact absurd (congrArg Except.toOption same) (by decide +kernel)

end Pocky
