import Mathlib.Data.List.GetD
import Pocky.Lib.Run
import Pocky.Lib.Wrapping
import Pocky.Shell.Editor

/-! The pager's split of a text into the lines it shows. -/

namespace Pocky

/-- The lines the pager keeps. -/
def maxLines : Nat := 1000

/-- The characters of a line, the zero behind it included. -/
def maxLineLength : Nat := 256

/-- The characters of all lines. -/
abbrev LineTable := Nat → Nat → UInt8

/-- Writing a character of a line. -/
def setLineChar (lines : LineTable) (row col : Nat) (char : UInt8) : Run LineTable :=
  if row < maxLines ∧ col < maxLineLength then
    .ok (Function.update lines row (Function.update (lines row) col char))
  else .error .overrun

/-- The loop over a text: the lines, how many of them are complete, and where the last one has come to. -/
def splitLoop : Nat → List UInt8 → LineTable → Nat → Nat → Run (LineTable × Nat × Nat)
  | 0, _, _, _, _ => .error .diverges
  | _ + 1, [], lines, lineCount, linePos => .ok (lines, lineCount, linePos)
  | steps + 1, char :: text, lines, lineCount, linePos =>
    if lineCount < maxLines then
      if char = newline ∨ linePos = maxLineLength - 1 then do
        let lines ← setLineChar lines lineCount linePos 0
        -- Only a newline is passed over.
        splitLoop steps (if char = newline then text else char :: text) lines (lineCount + 1) 0
      else do
        let lines ← setLineChar lines lineCount linePos char
        splitLoop steps text lines lineCount (linePos + 1)
    else .ok (lines, lineCount, linePos)

/-- Splitting a text into lines: the lines, and how many there are. -/
def splitText (lines : LineTable) (text : List UInt8) : Run (LineTable × Nat) := do
  let (lines, lineCount, linePos) ← splitLoop (2 * text.length + 1) text lines 0 0
  if 0 < linePos ∧ lineCount < maxLines then
    let lines ← setLineChar lines lineCount linePos 0
    return (lines, lineCount + 1)
  else return (lines, lineCount)

/-- The lines that are to be shown: the pieces between newlines, each cut to the width. -/
def pagerLines (text : List UInt8) : List (List UInt8) :=
  (wrappedLines newline (maxLineLength - 1) text).take maxLines

/-- The characters at the start of a row. -/
def StartsWith (row : Nat → UInt8) (line : List UInt8) : Prop :=
  ∀ index < line.length, row index = line.getD index 0

/-- A row holds a line and the zero behind it. -/
structure HoldsLine (row : Nat → UInt8) (line : List UInt8) : Prop where
  /-- Line and zero have room in the row. -/
  fits : line.length < maxLineLength
  /-- The characters of the line are there. -/
  starts : StartsWith row line
  /-- So is the zero. -/
  ends : row line.length = 0

/-- Complete lines are in the rows from the first one on, and the characters so far in the next one. -/
structure Collects (lines : LineTable) (done : List (List UInt8)) (line : List UInt8) : Prop where
  /-- There is a row for each line. -/
  room : done.length ≤ maxLines
  /-- The complete lines. -/
  complete : ∀ index < done.length, HoldsLine (lines index) (done.getD index [])
  /-- There is room for the zero behind the characters so far. -/
  short : line.length ≤ maxLineLength - 1
  /-- The characters so far. -/
  partly : StartsWith (lines done.length) line

/-- A row with one character more. -/
theorem StartsWith.concat {row : Nat → UInt8} {line : List UInt8} (starts : StartsWith row line)
    (char : UInt8) : StartsWith (Function.update row line.length char) (line ++ [char]) := by
  intro index inside
  rw [List.length_append, List.length_singleton] at inside
  by_cases last : index = line.length
  · rw [last, Function.update_self]
    simp
  · rw [Function.update_of_ne last, starts index (by omega), List.getD_append _ _ _ _ (by omega)]

/-- A row with a zero behind a line. -/
theorem StartsWith.ended {row : Nat → UInt8} {line : List UInt8} (starts : StartsWith row line)
    (short : line.length ≤ maxLineLength - 1) :
    HoldsLine (Function.update row line.length 0) line := by
  refine ⟨?_, fun index inside => ?_, Function.update_self _ _ _⟩
  · simp only [maxLineLength] at *
    omega
  · rw [Function.update_of_ne (Nat.ne_of_lt inside)]
    exact starts index inside

namespace Collects

variable {lines : LineTable} {done : List (List UInt8)} {line : List UInt8}

/-- Writing behind the characters so far stays inside the lines. -/
theorem writes (collects : Collects lines done line) (more : done.length < maxLines) (char : UInt8) :
    setLineChar lines done.length line.length char = .ok (Function.update lines done.length
      (Function.update (lines done.length) line.length char)) := by
  have short := collects.short
  rw [setLineChar, if_pos]
  simp only [maxLineLength] at *
  omega

/-- A character more has been collected. -/
theorem concat (collects : Collects lines done line) (more : line.length < maxLineLength - 1)
    (char : UInt8) : Collects (Function.update lines done.length
      (Function.update (lines done.length) line.length char)) done (line ++ [char]) := by
  refine ⟨collects.room, fun index before => ?_, ?_, ?_⟩
  · rw [Function.update_of_ne (Nat.ne_of_lt before)]
    exact collects.complete index before
  · rw [List.length_append, List.length_singleton]
    omega
  · rw [Function.update_self]
    exact collects.partly.concat char

/-- The line has been completed. -/
theorem ended (collects : Collects lines done line) (more : done.length < maxLines) :
    Collects (Function.update lines done.length
      (Function.update (lines done.length) line.length 0)) (done ++ [line]) [] := by
  have length : (done ++ [line]).length = done.length + 1 := by simp
  refine ⟨by omega, fun index before => ?_, Nat.zero_le _, fun index inside => ?_⟩
  · by_cases last : index = done.length
    · rw [last, Function.update_self]
      simpa using collects.partly.ended collects.short
    · rw [Function.update_of_ne last, List.getD_append _ _ _ _ (by omega)]
      exact collects.complete index (by omega)
  · exact absurd inside (Nat.not_lt_zero _)

end Collects

/-- What the loop has collected when it ends, with all that is to be shown. -/
def Collected (result : LineTable × Nat × Nat) (all : List (List UInt8)) : Prop :=
  ∃ done line, result.2.1 = done.length ∧ result.2.2 = line.length ∧
    Collects result.1 done line ∧ all.take maxLines =
      (done ++ if line.isEmpty then [] else [line]).take maxLines

/-- The loop collects the lines of a text. -/
theorem splitLoop_collects {steps : Nat} {text : List UInt8} {lines : LineTable}
    {done : List (List UInt8)} {line : List UInt8} (collects : Collects lines done line)
    (enough : 2 * text.length + (if line.length = maxLineLength - 1 then 1 else 0) < steps) :
    ∃ result, splitLoop steps text lines done.length line.length = .ok result ∧
      Collected result (done ++ linesFrom newline (maxLineLength - 1) line text) := by
  -- By induction on the steps: every one takes a character, or ends a full line.
  induction steps generalizing text lines done line with
  | zero => omega
  | succ steps ih =>
    cases text with
    | nil => exact ⟨_, rfl, done, line, rfl, rfl, collects, rfl⟩
    | cons char text =>
      rw [splitLoop, linesFrom]
      by_cases more : done.length < maxLines
      · rw [if_pos more]
        have short := collects.short
        rw [List.length_cons] at enough
        by_cases isNewline : char = newline
        · have left : 2 * text.length + (if ([] : List UInt8).length = maxLineLength - 1 then 1 else 0) <
              steps := by
            rw [if_neg (by decide)]
            omega
          obtain ⟨result, returned, collected⟩ := ih (collects.ended more) left
          rw [if_pos (Or.inl isNewline), collects.writes more, Run.ok_bind, if_pos isNewline,
            if_pos (by simp [isNewline])]
          rw [List.length_append, List.length_singleton] at returned
          rw [List.append_assoc] at collected
          exact ⟨result, returned, collected⟩
        · rw [if_neg (by simp [isNewline] : ¬ (char == newline) = true)]
          by_cases full : line.length = maxLineLength - 1
          · -- The character starts the next line.
            have left : 2 * (char :: text).length +
                (if ([] : List UInt8).length = maxLineLength - 1 then 1 else 0) < steps := by
              rw [if_neg (by decide), List.length_cons]
              rw [if_pos full] at enough
              omega
            obtain ⟨result, returned, collected⟩ := ih (collects.ended more) left
            rw [if_pos (Or.inr full), collects.writes more, Run.ok_bind, if_neg isNewline, if_pos full]
            rw [List.length_append, List.length_singleton] at returned
            rw [List.append_assoc, linesFrom, if_neg (by simp [isNewline]), if_neg (by decide)]
              at collected
            exact ⟨result, returned, collected⟩
          · have left : 2 * text.length +
                (if (line ++ [char]).length = maxLineLength - 1 then 1 else 0) < steps := by
              split <;> omega
            obtain ⟨result, returned, collected⟩ :=
              ih (collects.concat (by omega) char) left
            rw [if_neg (not_or.mpr ⟨isNewline, full⟩), collects.writes more, Run.ok_bind,
              if_neg full]
            rw [List.length_append, List.length_singleton] at returned
            exact ⟨result, returned, collected⟩
      · -- All rows are in use, and what is left of the text is not shown.
        rw [if_neg more]
        have room := collects.room
        refine ⟨_, rfl, done, line, rfl, rfl, collects, ?_⟩
        have all : maxLines ≤ done.length := Nat.le_of_not_lt more
        rw [List.take_append_of_le_length all, List.take_append_of_le_length all]

/--
The pager's lines are the pieces of the text between newlines, each cut to 255 characters.

No more than a thousand of them are kept, a last empty piece is none, and nothing else is written.
-/
theorem splitText_lines (lines : LineTable) (text : List UInt8) :
    ∃ after, splitText lines text = .ok (after, (pagerLines text).length) ∧
      ∀ index < (pagerLines text).length, HoldsLine (after index) ((pagerLines text).getD index []) := by
  have start : Collects lines [] [] := ⟨Nat.zero_le _, by simp, Nat.zero_le _, by simp [StartsWith]⟩
  have enough : 2 * text.length + (if ([] : List UInt8).length = maxLineLength - 1 then 1 else 0) <
      2 * text.length + 1 := Nat.lt_succ_self _
  obtain ⟨⟨after, lineCount, linePos⟩, returned, done, line, rfl, rfl, collects, all⟩ :=
    splitLoop_collects start enough
  rw [List.nil_append, linesFrom_nil newline (by decide), ← pagerLines] at all
  dsimp only at collects
  have room := collects.room
  rw [splitText]
  simp only [List.length_nil] at returned
  rw [returned, Run.ok_bind]
  dsimp only
  by_cases last : 0 < line.length ∧ done.length < maxLines
  · -- The characters behind the last newline are a line too.
    have whole : pagerLines text = done ++ [line] := by
      have some : line.isEmpty = false := by simpa using List.length_pos_iff.mp last.1
      rw [all, some, if_neg Bool.false_ne_true, List.take_of_length_le]
      rw [List.length_append, List.length_singleton]
      omega
    have ended := (collects.ended last.2).complete
    rw [if_pos last, collects.writes last.2, Run.ok_bind, whole]
    refine ⟨_, ?_, ended⟩
    rw [List.length_append, List.length_singleton]
    rfl
  · have whole : pagerLines text = done := by
      rw [all]
      by_cases full : done.length < maxLines
      · have none : line = [] := List.length_eq_zero_iff.mp (by omega)
        rw [none, List.isEmpty_nil, if_pos rfl, List.append_nil, List.take_of_length_le room]
      · rw [List.take_append_of_le_length (by omega), List.take_of_length_le room]
    rw [if_neg last, whole]
    exact ⟨after, rfl, collects.complete⟩

end Pocky
