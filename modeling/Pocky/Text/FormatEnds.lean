import Mathlib.Data.List.TakeWhile
import Mathlib.Order.Basic
import Pocky.Text.Printf

/-! Formats that end behind a conversion, and those that end within one. -/

namespace Pocky

/-- The length of an argument: nothing, or one letter or two. -/
inductive IsLength : List UInt8 → Prop where
  /-- The usual length. -/
  | usual : IsLength []
  /-- A long number. -/
  | long : IsLength [ascii 'l']
  /-- A number that is longer still. -/
  | longer : IsLength [ascii 'l', ascii 'l']

/-- A size may be announced in front of the length. -/
inductive IsSize : List UInt8 → Prop where
  /-- It is not. -/
  | absent {front : List UInt8} (length : IsLength front) : IsSize front
  /-- It is. -/
  | present {front : List UInt8} (length : IsLength front) : IsSize (ascii 'z' :: front)

/-- A point and the digits behind it may be in front of that. -/
inductive IsPrecision : List UInt8 → Prop where
  /-- They are not. -/
  | absent {front : List UInt8} (size : IsSize front) : IsPrecision front
  /-- They are. -/
  | present {digits front : List UInt8} (all : ∀ digit ∈ digits, isDigit digit = true)
    (size : IsSize front) : IsPrecision (ascii '.' :: (digits ++ front))

/-- The digits of a width, the zero of the padding among them, are in front of that. -/
inductive IsWidth : List UInt8 → Prop where
  /-- The digits, if any. -/
  | digits {digits front : List UInt8} (all : ∀ digit ∈ digits, isDigit digit = true)
    (precision : IsPrecision front) : IsWidth (digits ++ front)

/-- What may stand between a percent sign and the character of the conversion. -/
inductive IsFront : List UInt8 → Prop where
  /-- Spaces go in front. -/
  | right {front : List UInt8} (width : IsWidth front) : IsFront front
  /-- Spaces go behind. -/
  | left {front : List UInt8} (width : IsWidth front) : IsFront (ascii '-' :: front)

/-- The front of a conversion is as long as what follows allows. -/
structure LongestFront (front format : List UInt8) : Prop where
  /-- The format starts with it. -/
  starts : front <+: format
  /-- It is one. -/
  allowed : IsFront front
  /-- None that the format starts with is longer. -/
  longest : ∀ other, other <+: format → IsFront other → other.length ≤ front.length

/-- A format in which every percent sign is followed by a whole conversion. -/
inductive Complete : List UInt8 → Prop where
  /-- The end. -/
  | nil : Complete []
  /-- A character that is printed as it is. -/
  | plain {char : UInt8} {format : List UInt8} (plain : char ≠ ascii '%')
    (behind : Complete format) : Complete (char :: format)
  /-- A conversion with its character. -/
  | conversion {front rest : List UInt8} {conversion : UInt8}
    (whole : LongestFront front (front ++ conversion :: rest)) (behind : Complete rest) :
    Complete (ascii '%' :: (front ++ conversion :: rest))

/-- What is left of a format behind a length. -/
def restLength (format : List UInt8) : List UInt8 :=
  if (takeFlag (ascii 'l') format).1 then (takeFlag (ascii 'l') (takeFlag (ascii 'l') format).2).2
  else (takeFlag (ascii 'l') format).2

/-- What is left of a format behind a size. -/
def restSize (format : List UInt8) : List UInt8 := restLength (takeFlag (ascii 'z') format).2

/-- What is left of a format behind a precision. -/
def restPrecision (format : List UInt8) : List UInt8 :=
  restSize (if (takeFlag (ascii '.') format).1 then
    (takeFlag (ascii '.') format).2.dropWhile isDigit else (takeFlag (ascii '.') format).2)

/-- What is left of a format behind a width. -/
def restWidth (format : List UInt8) : List UInt8 := restPrecision (format.dropWhile isDigit)

/-- A flag is passed over if it is there. -/
theorem takeFlag_self (flag : UInt8) (format : List UInt8) :
    takeFlag flag (flag :: format) = (true, format) := by simp [takeFlag]

/-- Nothing is passed over if another character is there. -/
theorem takeFlag_other {flag char : UInt8} (other : char ≠ flag) (format : List UInt8) :
    takeFlag flag (char :: format) = (false, char :: format) := by simp [takeFlag, other]

/-- Behind a number the digits are passed over. -/
theorem readNumber_rest (number : Nat) (format : List UInt8) :
    (readNumber number format).2 = format.dropWhile isDigit := by
  fun_induction readNumber number format with
  | case1 => rfl
  | case2 number char format digit ih => rw [ih, List.dropWhile_cons_of_pos digit]
  | case3 number char format digit => rw [List.dropWhile_cons_of_neg digit]

/-- A zero in front of the width is one of its digits. -/
theorem dropWhile_zero (format : List UInt8) :
    (takeFlag (ascii '0') format).2.dropWhile isDigit = format.dropWhile isDigit := by
  cases format with
  | nil => rfl
  | cons char format =>
    by_cases zero : char = ascii '0'
    · rw [zero, takeFlag_self, List.dropWhile_cons_of_pos (by decide)]
    · rw [takeFlag_other zero]

/-- What is left of a format in front of the conversion. -/
theorem parseSpec_rest (format : List UInt8) :
    (parseSpec format).2 = restWidth (takeFlag (ascii '-') format).2 := by
  simp only [parseSpec, restWidth, restPrecision, restSize, restLength, readNumber_rest,
    dropWhile_zero]
  split_ifs <;> rfl

/-- A length leaves no more of the format. -/
theorem restLength_length (format : List UInt8) : (restLength format).length ≤ format.length := by
  have shorter := takeFlag_length (ascii 'l')
  rw [restLength]
  split
  · exact (shorter _).trans (shorter _)
  · exact shorter _

/-- A size leaves no more of the format. -/
theorem restSize_length (format : List UInt8) : (restSize format).length ≤ format.length :=
  (restLength_length _).trans (takeFlag_length _ _)

/-- A precision leaves no more of the format. -/
theorem restPrecision_length (format : List UInt8) :
    (restPrecision format).length ≤ format.length := by
  refine (restSize_length _).trans ?_
  split
  · exact (List.dropWhile_suffix _).length_le.trans (takeFlag_length _ _)
  · exact takeFlag_length _ _

/-- A width leaves no more of the format. -/
theorem restWidth_length (format : List UInt8) : (restWidth format).length ≤ format.length :=
  (restPrecision_length _).trans (List.dropWhile_suffix _).length_le

/-- The characters that are passed over for a length are one. -/
theorem restLength_front (format : List UInt8) :
    ∃ front, IsLength front ∧ format = front ++ restLength format := by
  unfold restLength
  match format with
  | [] => exact ⟨[], .usual, rfl⟩
  | first :: format =>
    by_cases long : first = ascii 'l'
    · subst long
      match format with
      | [] => exact ⟨_, .long, rfl⟩
      | second :: format =>
        -- A third letter of this kind would be left to the conversion.
        by_cases longer : second = ascii 'l'
        · subst longer
          exact ⟨_, .longer, by simp [takeFlag]⟩
        · exact ⟨_, .long, by simp [takeFlag, longer]⟩
    · exact ⟨[], .usual, by simp [takeFlag, long]⟩

/-- The characters that are passed over for a size are one. -/
theorem restSize_front (format : List UInt8) :
    ∃ front, IsSize front ∧ format = front ++ restSize format := by
  obtain ⟨front, length, split⟩ := restLength_front (takeFlag (ascii 'z') format).2
  match format with
  | [] => exact ⟨front, .absent length, split⟩
  | char :: format =>
    by_cases size : char = ascii 'z'
    · subst size
      rw [takeFlag_self] at split
      exact ⟨_, .present length, by simpa [restSize, takeFlag_self] using split⟩
    · rw [takeFlag_other size] at split
      exact ⟨_, .absent length, by simpa [restSize, takeFlag_other size] using split⟩

/-- The characters that are passed over for a precision are one. -/
theorem restPrecision_front (format : List UInt8) :
    ∃ front, IsPrecision front ∧ format = front ++ restPrecision format := by
  match format with
  | [] => exact ⟨[], .absent (.absent .usual), by decide⟩
  | char :: format =>
    by_cases point : char = ascii '.'
    · subst point
      obtain ⟨front, size, split⟩ := restSize_front (format.dropWhile isDigit)
      refine ⟨_, @IsPrecision.present (format.takeWhile isDigit) _ ?_ size, ?_⟩
      · exact fun digit inside => List.mem_takeWhile_imp inside
      · simp only [restPrecision, takeFlag_self, if_true, List.cons_append, List.append_assoc,
          ← split, List.takeWhile_append_dropWhile]
    · obtain ⟨front, size, split⟩ := restSize_front (char :: format)
      exact ⟨front, .absent size, by simpa [restPrecision, takeFlag_other point] using split⟩

/-- The characters that are passed over for a width are one. -/
theorem restWidth_front (format : List UInt8) :
    ∃ front, IsWidth front ∧ format = front ++ restWidth format := by
  obtain ⟨front, precision, split⟩ := restPrecision_front (format.dropWhile isDigit)
  refine ⟨_, @IsWidth.digits (format.takeWhile isDigit) _ ?_ precision, ?_⟩
  · exact fun digit inside => List.mem_takeWhile_imp inside
  · rw [restWidth, List.append_assoc, ← split, List.takeWhile_append_dropWhile]

/-- What stands between a percent sign and the conversion is passed over. -/
theorem parseSpec_front (format : List UInt8) :
    ∃ front, IsFront front ∧ format = front ++ (parseSpec format).2 := by
  rw [parseSpec_rest]
  match format with
  | [] => exact ⟨[], .right (@IsWidth.digits [] [] (by simp) (.absent (.absent .usual))), by decide⟩
  | char :: format =>
    by_cases justify : char = ascii '-'
    · subst justify
      obtain ⟨front, width, split⟩ := restWidth_front format
      exact ⟨_, .left width, by rw [takeFlag_self, List.cons_append, ← split]⟩
    · obtain ⟨front, width, split⟩ := restWidth_front (char :: format)
      exact ⟨_, .right width, by rw [takeFlag_other justify, ← split]⟩

/-- The first character of a size and what follows it. -/
theorem IsSize.head {char : UInt8} {front : List UInt8} (size : IsSize (char :: front)) :
    char = ascii 'z' ∨ char = ascii 'l' := by
  cases size with
  | absent length => cases length <;> exact Or.inr rfl
  | present => exact Or.inl rfl

/-- The first character of a precision and what follows it is no digit. -/
theorem IsPrecision.head {char : UInt8} {front : List UInt8}
    (precision : IsPrecision (char :: front)) : isDigit char = false ∧ char ≠ ascii '-' := by
  cases precision with
  | absent size => obtain rfl | rfl := size.head <;> decide
  | present => decide

/-- No length that stands there is left. -/
theorem IsLength.passed {front : List UInt8} (length : IsLength front) (rest : List UInt8) :
    (restLength (front ++ rest)).length ≤ rest.length := by
  cases length with
  | usual => exact restLength_length rest
  | long => simpa [restLength, takeFlag_self] using takeFlag_length (ascii 'l') rest
  | longer => simp [restLength, takeFlag_self]

/-- No size that stands there is left. -/
theorem IsSize.passed {front : List UInt8} (size : IsSize front) (rest : List UInt8) :
    (restSize (front ++ rest)).length ≤ rest.length := by
  cases size with
  | absent length =>
    match front, length with
    | [], _ => exact restSize_length rest
    | char :: front, length =>
      have other : char ≠ ascii 'z' := by cases length <;> decide
      rw [restSize, List.cons_append, takeFlag_other other]
      exact length.passed rest
  | present length =>
    rw [restSize, List.cons_append, takeFlag_self]
    exact length.passed rest

/-- No precision that stands there is left. -/
theorem IsPrecision.passed {front : List UInt8} (precision : IsPrecision front)
    (rest : List UInt8) : (restPrecision (front ++ rest)).length ≤ rest.length := by
  cases precision with
  | absent size =>
    match front, size with
    | [], _ => exact restPrecision_length rest
    | char :: front, size =>
      have other : char ≠ ascii '.' := by obtain rfl | rfl := size.head <;> decide
      rw [restPrecision, List.cons_append, takeFlag_other other]
      exact size.passed rest
  | @present digits front all size =>
    rw [restPrecision, List.cons_append, takeFlag_self, if_pos rfl, List.append_assoc,
      List.dropWhile_append_of_pos all]
    match front, size with
    | [], _ => exact (restSize_length _).trans (List.dropWhile_suffix _).length_le
    | char :: front, size =>
      have noDigit := (IsPrecision.absent size).head.1
      -- The digits end where the size begins, as no character of it is a digit.
      rw [List.cons_append, List.dropWhile_cons_of_neg (by simp [noDigit])]
      exact size.passed rest

/-- No width that stands there is left. -/
theorem IsWidth.passed {front : List UInt8} (width : IsWidth front) (rest : List UInt8) :
    (restWidth (front ++ rest)).length ≤ rest.length := by
  cases width with
  | @digits digits front all precision =>
    rw [restWidth, List.append_assoc, List.dropWhile_append_of_pos all]
    match front, precision with
    | [], _ => exact (restPrecision_length _).trans (List.dropWhile_suffix _).length_le
    | char :: front, precision =>
      rw [List.cons_append, List.dropWhile_cons_of_neg (by simp [precision.head.1])]
      exact precision.passed rest

/-- The first character of a width is not the one that puts spaces behind. -/
theorem IsWidth.head {char : UInt8} {front : List UInt8} (width : IsWidth (char :: front)) :
    char ≠ ascii '-' := by
  generalize same : char :: front = whole at width
  cases width with
  | @digits digits front all precision =>
    cases digits with
    | nil =>
      rw [List.nil_append] at same
      exact (same ▸ precision).head.2
    | cons digit digits =>
      obtain ⟨rfl, -⟩ := List.cons.inj same
      rintro rfl
      exact absurd (all _ List.mem_cons_self) (by decide)

/-- Nothing that may stand in front of a conversion is left. -/
theorem IsFront.passed {front : List UInt8} (allowed : IsFront front) (rest : List UInt8) :
    (parseSpec (front ++ rest)).2.length ≤ rest.length := by
  rw [parseSpec_rest]
  cases allowed with
  | right width =>
    match front, width with
    | [], _ => exact (restWidth_length _).trans (takeFlag_length _ _)
    | char :: front, width =>
      rw [List.cons_append, takeFlag_other width.head]
      exact width.passed rest
  | left width =>
    rw [List.cons_append, takeFlag_self]
    exact width.passed rest

/-- The formatter passes over the longest front there is. -/
theorem parseSpec_longest (format : List UInt8) :
    ∃ front, format = front ++ (parseSpec format).2 ∧ LongestFront front format := by
  -- What is passed over is a front; another one would be passed over too, so none is longer.
  obtain ⟨front, allowed, split⟩ := parseSpec_front format
  refine ⟨front, split, ⟨_, split.symm⟩, allowed, ?_⟩
  rintro other ⟨rest, same⟩ isFront
  have passed := isFront.passed rest
  rw [same] at passed
  have lengths := congrArg List.length split
  rw [← same, List.length_append, List.length_append, same] at lengths
  omega

/-- There is only one longest front. -/
theorem LongestFront.unique {front other format : List UInt8} (one : LongestFront front format)
    (two : LongestFront other format) : front = other := by
  have lengths := (one.longest other two.starts two.allowed).antisymm
    (two.longest front one.starts one.allowed)
  exact (List.prefix_of_prefix_length_le one.starts two.starts lengths.ge).eq_of_length
    lengths.symm

/-- A format that ends within a conversion is not complete. -/
theorem Complete.not_short {format : List UInt8} (short : (parseSpec format).2 = []) :
    ¬ Complete (ascii '%' :: format) := by
  obtain ⟨front, split, longest⟩ := parseSpec_longest format
  rw [short, List.append_nil] at split
  rintro (_ | plain | ⟨whole, behind⟩)
  · exact plain rfl
  · have same := whole.unique longest
    have lengths := congrArg List.length split
    simp only [List.length_append, List.length_cons, same] at lengths
    omega

/-- Behind a conversion with its character the rest has to be complete. -/
theorem Complete.conversion_iff {format rest : List UInt8} {spec : Spec} {conversion : UInt8}
    (parsed : parseSpec format = (spec, conversion :: rest)) :
    Complete (ascii '%' :: format) ↔ Complete rest := by
  obtain ⟨front, split, longest⟩ := parseSpec_longest format
  rw [parsed] at split
  constructor
  · rintro (_ | plain | ⟨whole, behind⟩)
    · exact absurd rfl plain
    · obtain rfl := whole.unique longest
      obtain ⟨-, rfl⟩ := List.cons.inj (List.append_cancel_left split)
      exact behind
  · intro behind
    subst split
    exact .conversion longest behind

/-- A character that is printed as it is does not matter. -/
theorem Complete.plain_iff {char : UInt8} {format : List UInt8} (plain : char ≠ ascii '%') :
    Complete (char :: format) ↔ Complete format := by
  refine ⟨?_, .plain plain⟩
  rintro (_ | ⟨-, behind⟩ | ⟨whole, behind⟩)
  · exact behind
  · exact absurd rfl plain

/-- A conversion with its character reads nothing behind the end. -/
theorem convertAt_past (spec : Spec) (conversion : UInt8) (args : List Arg) :
    (convertAt spec conversion args).past = false := by
  unfold convertAt convert withWord
  dsimp only
  split_ifs <;> (try split) <;> rfl

/--
The formatter stays within its format just when every percent sign in it is followed by a whole
conversion.

Every round takes a character, so that it comes to an end in any case.
-/
theorem vprintf_past_iff (format : List UInt8) (args : List Arg) :
    (vprintf format args).past = false ↔ Complete format := by
  induction format using formatInduction generalizing args with
  | nil => exact iff_of_true (by simp [Printed.nothing]) .nil
  | plain char format plain ih =>
    rw [vprintf_plain plain, Complete.plain_iff plain, ← ih args]
    simp [Printed.andThen, Printed.conversion]
  | short format short => simp [vprintf_short short, Complete.not_short short]
  | conversion format spec conversion rest parsed ih =>
    rw [vprintf_conversion parsed, Complete.conversion_iff parsed,
      ← ih (argsBehind spec conversion args)]
    simp [Printed.andThen, convertAt_past]

/-- A format that ends behind a percent sign is left behind its end. -/
theorem vprintf_past_percent : ¬ ∀ format args, (vprintf format args).past = false := by
  intro stays
  have here := stays [ascii '%'] []
  rw [vprintf_short (by decide)] at here
  cases here

end Pocky
