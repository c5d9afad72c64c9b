import Mathlib.Data.List.DropRight
import Pocky.Shell.CommandLine

/-! Which aliases leave the commands of a line as they are to be run. -/

namespace Pocky

/-- An alias of a command in the buffer neither reaches other commands nor is cut short. -/
def SafeAlias (aliases : List Alias) (buffer : Buffer) (position : Nat) (text : Name)
    (last : Prop) : Prop :=
  ∀ value, getAlias aliases (cutCommand text).word = some value → space ∉ text ∧
    (value.length = text.length ∨
      text.length < value.length ∧ position + value.length < inputSize ∧
        buffer (position + value.length) = 0 ∧ (last ∨ (cutCommand value).word = editWord))

/-- All aliases that are reached from a place of the buffer on do so. -/
def SafeFrom (aliases : List Alias) (buffer : Buffer) : Nat → List Name → Prop
  | _, [] => True
  | position, segment :: segments =>
    let blanks := segment.takeWhile isBlank
    let text := segment.dropWhile isBlank
    (text ≠ [] → SafeAlias aliases buffer (position + blanks.length) text (segments = [])) ∧
      (text = [] ∨ (cutCommand (expand aliases text)).word ≠ editWord →
        SafeFrom aliases buffer (position + segment.length + 1) segments)

/-- Only the bytes behind a command matter for its alias. -/
theorem SafeAlias.congr {aliases : List Alias} {buffer other : Buffer} {position : Nat}
    {text : Name} {last : Prop} (safe : SafeAlias aliases buffer position text last)
    (same : ∀ index > position + text.length, other index = buffer index) :
    SafeAlias aliases other position text last := by
  intro value found
  obtain ⟨noSpace, exact' | ⟨long, room, ended, alone⟩⟩ := safe value found
  · exact ⟨noSpace, Or.inl exact'⟩
  · exact ⟨noSpace, Or.inr ⟨long, room, by rw [same _ (by omega), ended], alone⟩⟩

/-- Only the bytes from the place on matter. -/
theorem SafeFrom.congr {aliases : List Alias} {buffer other : Buffer} {segments : List Name} :
    ∀ {position : Nat}, SafeFrom aliases buffer position segments →
      (∀ index ≥ position, other index = buffer index) →
      SafeFrom aliases other position segments := by
  induction segments with
  | nil => exact fun _ _ => trivial
  | cons segment segments ih =>
    rintro position ⟨here, later⟩ same
    refine ⟨fun some => (here some).congr fun index behind => same index (by omega), ?_⟩
    exact fun goesOn => ih (later goesOn) fun index behind => same index (by omega)

/-- A string that is stored is read. -/
theorem readString_eq {text : Name} (noZero : 0 ∉ text) {buffer : Buffer} {position steps : Nat}
    (holds : HoldsString (shifted buffer position) text) (enough : text.length < steps) :
    readString buffer steps position = .ok text := by
  induction text generalizing position steps with
  | nil =>
    obtain ⟨steps, rfl⟩ : ∃ more, steps = more + 1 := ⟨steps - 1, by omega⟩
    have zero : buffer position = 0 := holds.terminated
    rw [readString, if_pos zero]
  | cons char text ih =>
    obtain ⟨steps, rfl⟩ : ∃ more, steps = more + 1 := ⟨steps - 1, by omega⟩
    rw [List.mem_cons, not_or] at noZero
    have first : buffer position = char := holds.chars 0 (by simp)
    have rest : HoldsString (shifted buffer (position + 1)) text := by
      refine ⟨fun index inside => ?_, ?_⟩
      · have later := holds.chars (index + 1) (by simpa using inside)
        rw [List.getD_cons_succ] at later
        rw [← later, shifted, shifted, Nat.add_assoc, Nat.add_comm 1]
      · have ended := holds.terminated
        rw [List.length_cons] at ended
        rw [← ended, shifted, shifted, Nat.add_assoc, Nat.add_comm 1]
    rw [readString, first, if_neg (Ne.symm noZero.1), ih noZero.2 rest (by simpa using enough)]
    rfl

/-- A string of the input buffer is read. -/
theorem inputString_eq {text : Name} (noZero : 0 ∉ text) {buffer : Buffer} {position : Nat}
    (holds : HoldsString (shifted buffer position) text)
    (room : position + text.length < inputSize) : inputString buffer position = .ok text :=
  readString_eq noZero holds (by omega)

/-- Bytes that are the same up to the zero hold the same string. -/
theorem HoldsString.congr {str other : Nat → UInt8} {text : List UInt8}
    (holds : HoldsString str text) (same : ∀ index ≤ text.length, other index = str index) :
    HoldsString other text :=
  ⟨fun index inside => (same index inside.le).trans (holds.chars index inside),
    (same _ le_rfl).trans holds.terminated⟩

/-- A zero behind the first characters leaves them as a string. -/
theorem HoldsString.front {buffer : Buffer} {position : Nat} {text rest : Name}
    (holds : HoldsString (shifted buffer position) (text ++ rest)) :
    HoldsString (shifted (Function.update buffer (position + text.length) 0) position) text := by
  refine ⟨fun index inside => ?_, by simp [shifted]⟩
  have here := holds.chars index (by rw [List.length_append]; omega)
  rw [List.getD_append _ _ _ _ inside] at here
  rw [shifted, Function.update_of_ne (by omega)]
  exact here

/-- Nothing is in front of the first byte. -/
theorem shifted_first (buffer : Buffer) : shifted buffer 0 = buffer := by
  funext index
  rw [shifted, Nat.zero_add]

/-- The end of a string is a string. -/
theorem HoldsString.back {buffer : Buffer} {position : Nat} {text rest : Name}
    (holds : HoldsString (shifted buffer position) (text ++ rest)) :
    HoldsString (shifted buffer (position + text.length)) rest := by
  refine ⟨fun index inside => ?_, ?_⟩
  · have here := holds.chars (text.length + index) (by rw [List.length_append]; omega)
    rw [List.getD_append_right _ _ _ _ (by omega), Nat.add_sub_cancel_left] at here
    rw [← here, shifted, shifted, Nat.add_assoc]
  · have ended := holds.terminated
    rw [List.length_append] at ended
    rw [← ended, shifted, shifted, Nat.add_assoc]

/-- Nothing behind a command changes where it is cut. -/
theorem cutBuffer_behind (buffer : Buffer) (position : Nat) (text : Name) {index : Nat}
    (behind : position + text.length ≤ index) : cutBuffer buffer position text index =
      buffer index := by
  rw [cutBuffer]
  split
  case isFalse => rfl
  case isTrue spaced =>
    have cut : (text.takeWhile (· ≠ space)).length < text.length := by
      have unequal : text.takeWhile (· ≠ space) ≠ text := fun whole => by
        simpa using List.takeWhile_eq_self_iff.mp whole space spaced
      exact lt_of_le_of_ne (List.takeWhile_sublist _).length_le fun same =>
        unequal ((List.takeWhile_prefix _).eq_of_length same)
    rw [Function.update_of_ne (by omega)]

/-- The text of an alias has room in the table. -/
theorem getAlias_string {aliases : List Alias} {word value : Name}
    (found : getAlias aliases word = some value) : value.length < 256 ∧ 0 ∉ value := by
  rw [getAlias, Option.map_eq_some_iff] at found
  obtain ⟨entry, -, rfl⟩ := found
  exact ⟨entry.short, entry.string⟩

/-- A command whose alias is safe is run as it is expanded. -/
theorem lookUpCommand_eq {aliases : List Alias} {buffer : Buffer} {position : Nat} {text : Name}
    {last : Prop} (holds : HoldsString (shifted buffer position) text)
    (room : position + text.length < inputSize)
    (safe : SafeAlias aliases buffer position text last) :
    ∃ other, lookUpCommand aliases buffer position text =
        .ok (cutCommand (expand aliases text), other) ∧
      (¬last → (cutCommand (expand aliases text)).word ≠ editWord →
        ∀ index > position + text.length, other index = buffer index) := by
  rw [lookUpCommand, expand]
  cases found : getAlias aliases (cutCommand text).word with
  | none =>
    exact ⟨_, rfl, fun _ _ index behind => cutBuffer_behind buffer position text behind.le⟩
  | some value =>
    obtain ⟨noSpace, fits⟩ := safe value found
    obtain ⟨short, valueNoZero⟩ := getAlias_string found
    have whole : cutCommand text = ⟨text, none⟩ := if_neg noSpace
    have uncut : cutBuffer buffer position text = buffer := if_neg noSpace
    -- The word has no arguments, so that nothing but the text is copied.
    have expanded : expandAlias value none = value := List.take_of_length_le (by
      rw [expandedSize]; omega)
    have inside : position + value.length < inputSize := by
      obtain same | ⟨-, enough, -⟩ := fits <;> omega
    -- The zero behind the word is the one behind the text, or there is one further on.
    have zero : buffer (position + value.length) = 0 := by
      obtain same | ⟨-, -, ended, -⟩ := fits
      · rw [same]
        exact holds.terminated
      · exact ended
    have copied : HoldsString (shifted (strncpy buffer position value value.length) position)
        value := by
      refine ⟨fun index before => ?_, ?_⟩
      · rw [shifted, strncpy_apply, if_pos (by omega), Nat.add_sub_cancel_left]
      · rw [shifted, strncpy_apply, if_neg (by omega), zero]
    simp only [whole, uncut, expanded, copyInput, List.drop_length, List.append_nil]
    rw [if_neg (by omega)]
    refine ⟨cutBuffer (strncpy buffer position value value.length) position value, ?_, ?_⟩
    · change (inputString (strncpy buffer position value value.length) position >>= _) = _
      rw [inputString_eq valueNoZero copied inside]
      rfl
    · rintro notLast noEdit index behind
      obtain same | ⟨-, -, -, alone | edits⟩ := fits
      · rw [cutBuffer_behind _ _ _ (by omega), strncpy_apply, if_neg (by omega)]
      · exact absurd alone notLast
      · exact absurd edits noEdit

/-- A command stands behind its blanks. -/
theorem blanks_length (segment : Name) :
    (segment.takeWhile isBlank).length + (segment.dropWhile isBlank).length = segment.length := by
  rw [← List.length_append, List.takeWhile_append_dropWhile]

/-- A command behind its blanks, whose alias is safe, is run as it is expanded. -/
theorem lookUpSegment_eq {aliases : List Alias} {buffer : Buffer} {current : Nat} {segment : Name}
    {last : Prop} (holds : HoldsString (shifted buffer current) segment)
    (room : current + segment.length < inputSize)
    (safe : SafeAlias aliases buffer (current + (segment.takeWhile isBlank).length)
      (segment.dropWhile isBlank) last) :
    ∃ other, lookUpCommand aliases buffer (current + (segment.takeWhile isBlank).length)
          (segment.dropWhile isBlank) =
        .ok (cutCommand (expand aliases (segment.dropWhile isBlank)), other) ∧
      (¬last → (cutCommand (expand aliases (segment.dropWhile isBlank))).word ≠ editWord →
        ∀ index ≥ current + segment.length + 1, other index = buffer index) := by
  have parts : segment.takeWhile isBlank ++ segment.dropWhile isBlank = segment :=
    List.takeWhile_append_dropWhile
  have lengths := blanks_length segment
  have command : HoldsString (shifted buffer (current + (segment.takeWhile isBlank).length))
      (segment.dropWhile isBlank) := HoldsString.back (by rw [parts]; exact holds)
  obtain ⟨other, looked, frame⟩ := lookUpCommand_eq command (by omega) safe
  exact ⟨other, looked, fun notLast noEdit index behind => frame notLast noEdit index (by omega)⟩

/-- The characters behind the blanks. -/
theorem drop_blanks (segment : Name) :
    segment.drop (segment.takeWhile isBlank).length = segment.dropWhile isBlank := by
  have parts : segment.takeWhile isBlank ++ segment.dropWhile isBlank = segment :=
    List.takeWhile_append_dropWhile
  calc segment.drop (segment.takeWhile isBlank).length
      = (segment.takeWhile isBlank ++ segment.dropWhile isBlank).drop
          (segment.takeWhile isBlank).length := by rw [parts]
    _ = segment.dropWhile isBlank := List.drop_left

/-- The one command of a text is run. -/
theorem processLoop_alone {aliases : List Alias} {steps : Nat} {buffer : Buffer} {current : Nat}
    {text : Name} (noZero : 0 ∉ text) (holds : HoldsString (shifted buffer current) text)
    (room : current + text.length < inputSize) (alone : semicolon ∉ text) :
    processLoop aliases (steps + 1) buffer current =
      if text.dropWhile isBlank = [] then .ok []
      else lookUpCommand aliases buffer (current + (text.takeWhile isBlank).length)
        (text.dropWhile isBlank) >>= fun found => .ok [found.1] := by
  have whole : text.takeWhile (· ≠ semicolon) = text :=
    List.takeWhile_eq_self_iff.mpr fun char inside => by
      simpa using fun same : char = semicolon => alone (same ▸ inside)
  rw [processLoop, inputString_eq noZero holds room, Run.ok_bind]
  by_cases empty : text = []
  · subst empty
    rfl
  · rw [if_neg empty]
    simp only [whole, if_neg alone, drop_blanks]
    split
    · rfl
    · congr
      funext found
      split
      · rfl
      · rfl

/-- The first of the commands of a text is run, then the others. -/
theorem processLoop_first {aliases : List Alias} {steps : Nat} {buffer : Buffer} {current : Nat}
    {segment rest : Name} (noZero : 0 ∉ segment ++ semicolon :: rest)
    (holds : HoldsString (shifted buffer current) (segment ++ semicolon :: rest))
    (room : current + (segment ++ semicolon :: rest).length < inputSize)
    (noneBefore : semicolon ∉ segment) :
    let cut := Function.update buffer (current + segment.length) 0
    let next := current + segment.length + 1
    processLoop aliases (steps + 1) buffer current =
      if segment.dropWhile isBlank = [] then processLoop aliases steps cut next
      else lookUpCommand aliases cut (current + (segment.takeWhile isBlank).length)
        (segment.dropWhile isBlank) >>= fun found =>
          if found.1.word = editWord then .ok [found.1]
          else processLoop aliases steps found.2 next >>= fun others => .ok (found.1 :: others) := by
  have first : (segment ++ semicolon :: rest).takeWhile (· ≠ semicolon) = segment := by
    rw [List.takeWhile_append_of_pos fun char inside => by
      simpa using fun same : char = semicolon => noneBefore (same ▸ inside)]
    simp
  rw [processLoop, inputString_eq noZero holds room, Run.ok_bind, if_neg (by simp)]
  simp only [first, if_pos (List.mem_append_right segment List.mem_cons_self), drop_blanks,
    Nat.add_sub_cancel]
  rfl

/-- The commands behind a segment are stored as they were. -/
theorem HoldsString.behind {buffer other : Buffer} {current : Nat} {segment rest : Name}
    (holds : HoldsString (shifted buffer current) (segment ++ semicolon :: rest))
    (same : ∀ index ≥ current + segment.length + 1, other index = buffer index) :
    HoldsString (shifted other (current + segment.length + 1)) rest := by
  rw [List.append_cons] at holds
  have old := holds.back
  rw [List.length_append, List.length_singleton, ← Nat.add_assoc] at old
  exact old.congr fun index _ => same _ (by omega)

/-- Commands whose aliases are safe are run in order. -/
theorem processLoop_eq {aliases : List Alias} {steps : Nat} :
    ∀ {buffer : Buffer} {current : Nat} {text : Name}, 0 ∉ text →
      HoldsString (shifted buffer current) text → current + text.length < inputSize →
      text.length < steps → SafeFrom aliases buffer current (text.splitOn semicolon) →
      processLoop aliases steps buffer current =
        .ok (commandsOf aliases (text.splitOn semicolon)) := by
  induction steps with
  | zero => intro _ _ _ _ _ _ short; omega
  | succ steps ih =>
    intro buffer current text noZero holds room enough safe
    by_cases more : semicolon ∈ text
    · obtain ⟨segment, rest, rfl, noneBefore⟩ := List.eq_append_cons_of_mem more
      rw [List.splitOn_append_cons_self_of_not_mem noneBefore] at safe ⊢
      rw [processLoop_first noZero holds room noneBefore, commandsOf]
      have noZeroBehind : 0 ∉ rest := fun inside => noZero (by simp [inside])
      rw [List.length_append, List.length_cons] at room enough
      have uncut : ∀ index ≥ current + segment.length + 1,
          Function.update buffer (current + segment.length) 0 index = buffer index :=
        fun index behind => Function.update_of_ne (by omega) _ _
      -- Whatever the first command did to its own bytes, the others are run as before.
      have goesOn : ∀ {other : Buffer},
          (∀ index ≥ current + segment.length + 1, other index = buffer index) →
          SafeFrom aliases buffer (current + segment.length + 1) (rest.splitOn semicolon) →
          processLoop aliases steps other (current + segment.length + 1) =
            .ok (commandsOf aliases (rest.splitOn semicolon)) := fun same safe =>
        ih noZeroBehind (holds.behind same) (by omega) (by omega) (safe.congr same)
      dsimp only
      by_cases blank : segment.dropWhile isBlank = []
      · rw [if_pos blank, if_pos blank]
        exact goesOn uncut (safe.2 (Or.inl blank))
      · rw [if_neg blank, if_neg blank]
        obtain ⟨other, looked, frame⟩ := lookUpSegment_eq holds.front (by omega)
          -- Cutting the line at the semicolon changes no byte that the alias depends on.
          ((safe.1 blank).congr fun index past => uncut index (by
            rw [← blanks_length segment]
            omega))
        rw [looked, Run.ok_bind]
        by_cases edits : (cutCommand (expand aliases (segment.dropWhile isBlank))).word = editWord
        · rw [if_pos edits, if_pos edits]
        · rw [if_neg edits, if_neg edits, goesOn (fun index past =>
            (frame (by simp) edits index past).trans (uncut index past))
            (safe.2 (Or.inr edits)), Run.ok_bind]
    · rw [List.splitOn_eq_singleton more] at safe ⊢
      rw [processLoop_alone noZero holds room more, commandsOf]
      by_cases blank : text.dropWhile isBlank = []
      · rw [if_pos blank, if_pos blank]
        rfl
      · obtain ⟨other, looked, -⟩ := lookUpSegment_eq holds room (safe.1 blank)
        rw [looked, if_neg blank, if_neg blank]
        dsimp only
        split
        · rfl
        · rfl

/-- The blanks at the end of a line are taken off in the buffer. -/
theorem stripInput_eq {line : Name} :
    ∀ {buffer : Buffer}, HoldsString buffer line →
      (stripInput line.length buffer).1 = (stripped line).length ∧
        HoldsString (stripInput line.length buffer).2 (stripped line) := by
  induction line using List.reverseRecOn with
  | nil => exact fun holds => ⟨rfl, holds⟩
  | append_singleton line char ih =>
    intro buffer holds
    have last : buffer line.length = char := by
      rw [holds.chars _ (by simp), List.getD_append_right _ _ _ _ le_rfl, Nat.sub_self]
      rfl
    -- The loop looks at the last character first.
    rw [List.length_append, List.length_singleton, stripInput, last, stripped]
    by_cases blank : isBlank char
    · rw [if_pos blank, List.rdropWhile_concat_pos _ _ _ blank]
      rw [← shifted_first buffer] at holds
      have cut := holds.front
      rw [shifted_first, Nat.zero_add] at cut
      exact ih cut
    · rw [if_neg blank, List.rdropWhile_concat_neg _ _ _ blank, List.length_append]
      exact ⟨rfl, holds⟩

/-- Running a line is running what is left of it without the blanks at its end. -/
theorem processCommand_stripped (aliases : List Alias) {line : Name} {buffer : Buffer}
    (holds : HoldsString buffer line) : processCommand aliases buffer line.length =
      if stripped line = [] then .ok []
      else processLoop aliases (inputSize + 1) (stripInput line.length buffer).2 0 := by
  change (if (stripInput line.length buffer).1 = 0 then _ else _) = _
  rw [(stripInput_eq holds).1]
  simp only [List.length_eq_zero_iff]

/-- A line without blanks at its end is left in the buffer as it is. -/
theorem stripInput_same {line : Name} {buffer : Buffer} (holds : HoldsString buffer line)
    (same : stripped line = line) : (stripInput line.length buffer).2 = buffer := by
  cases line using List.reverseRecOn with
  | nil => rfl
  | append_singleton line char =>
    have last : buffer line.length = char := by
      rw [holds.chars _ (by simp), List.getD_append_right _ _ _ _ le_rfl, Nat.sub_self]
      rfl
    have notBlank := List.rdropWhile_eq_self_iff.mp same (by simp)
    rw [List.getLast_append_singleton] at notBlank
    rw [List.length_append, List.length_singleton, stripInput, last, if_neg notBlank]

/-- What is left of a line is a string that has room in the buffer. -/
theorem stripped_facts {line : Name} (short : line.length < inputSize) (noZero : 0 ∉ line) :
    0 + (stripped line).length < inputSize ∧ 0 ∉ stripped line := by
  have part : stripped line <+: line := List.rdropWhile_prefix _ _
  have shorter := part.length_le
  exact ⟨by omega, fun inside => noZero (part.subset inside)⟩

/-- A line whose aliases are safe has its commands run in order. -/
theorem processCommand_eq {aliases : List Alias} {line : Name} {buffer : Buffer}
    (short : line.length < inputSize) (noZero : 0 ∉ line) (holds : HoldsString buffer line)
    (safe : SafeFrom aliases (stripInput line.length buffer).2 0
      ((stripped line).splitOn semicolon)) :
    processCommand aliases buffer line.length =
      .ok (commandsOf aliases ((stripped line).splitOn semicolon)) := by
  obtain ⟨room, noZeroLeft⟩ := stripped_facts short noZero
  have kept := (stripInput_eq holds).2
  rw [processCommand_stripped aliases holds]
  split
  case isTrue none =>
    rw [none]
    rfl
  case isFalse =>
    rw [← shifted_first (stripInput line.length buffer).2] at kept
    exact processLoop_eq noZeroLeft kept room (by omega) safe

end Pocky
