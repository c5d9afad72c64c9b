import Mathlib.Data.List.GetD
import Pocky.Text.PrintedStrings
import Pocky.Fs.RecursiveDelete

/-! The library's copies of strings, and a print into a buffer that only copies the format. -/

namespace Pocky

/-- Copying so many characters of a string, and zeros once it has ended. -/
def strncpy (dest : Nat → UInt8) (position : Nat) : List UInt8 → Nat → Nat → UInt8
  | _, 0 => dest
  | [], count + 1 => strncpy (Function.update dest position 0) (position + 1) [] count
  | char :: src, count + 1 =>
    strncpy (Function.update dest position char) (position + 1) src count

/-- The length of a string in a buffer, looked for in so many steps. -/
def strlen (str : Nat → UInt8) : Nat → Nat → Nat
  | 0, length => length
  | steps + 1, length => if str length = 0 then length else strlen str steps (length + 1)

/-- Printing into a buffer of a size: the format is copied, no argument is looked at. -/
def snprintfInto (str : Nat → UInt8) (size : Nat) (format : List UInt8) (_args : List Arg) :
    (Nat → UInt8) × Nat :=
  if size = 0 then (str, 0)
  else
    let str := Function.update (strncpy str 0 format (size - 1)) (size - 1) 0
    (str, strlen str size 0)

/-- A buffer holds a string with a zero behind it. -/
structure HoldsString (str : Nat → UInt8) (text : List UInt8) : Prop where
  /-- The characters. -/
  chars : ∀ index < text.length, str index = text.getD index 0
  /-- The zero. -/
  terminated : str text.length = 0

/-- The string at the start of a buffer of a size. -/
def stringIn (str : Nat → UInt8) (size : Nat) : List UInt8 :=
  ((List.range size).map str).takeWhile (· ≠ 0)

/-- The argument a conversion takes. -/
inductive Takes (conversion : UInt8) : List Arg → List Arg → Prop where
  /-- A floating-point number. -/
  | double {value : Double} {args : List Arg} (is : conversion = ascii 'f') :
    Takes conversion (.double value :: args) args
  /-- A number, an address or a character. -/
  | word {value : BitVec 64} {args : List Arg}
    (is : conversion = ascii 'd' ∨ conversion = ascii 'u' ∨ conversion = ascii 'x' ∨
      conversion = ascii 'p' ∨ conversion = ascii 'c') : Takes conversion (.word value :: args) args
  /-- A string. -/
  | text {str : List UInt8} {args : List Arg} (is : conversion = ascii 's') :
    Takes conversion (.text (some str) :: args) args
  /-- A percent sign takes none. -/
  | percent {args : List Arg} (is : conversion = ascii '%') : Takes conversion args args

/-- The arguments are of the kinds a format asks for, and its widths fit. -/
inductive Matching : List UInt8 → List Arg → Prop where
  /-- The end; arguments that are left do no harm. -/
  | nil {args : List Arg} : Matching [] args
  /-- A character that is printed as it is. -/
  | plain {char : UInt8} {format : List UInt8} {args : List Arg} (plain : char ≠ ascii '%')
    (behind : Matching format args) : Matching (char :: format) args
  /-- A conversion. -/
  | conversion {format rest : List UInt8} {spec : Spec} {conversion : UInt8}
    {args others : List Arg} (parsed : parseSpec format = (spec, conversion :: rest))
    (fits : spec.overflows = false) (takes : Takes conversion args others)
    (behind : Matching rest others) : Matching (ascii '%' :: format) args

/-- What has been copied. -/
theorem strncpy_apply (dest : Nat → UInt8) (position : Nat) (src : List UInt8)
    (count index : Nat) :
    strncpy dest position src count index =
      if position ≤ index ∧ index < position + count then src.getD (index - position) 0
      else dest index := by
  induction count generalizing dest position src with
  | zero =>
    rw [strncpy, if_neg (by omega)]
  | succ count ih =>
    cases src with
    | nil =>
      rw [strncpy, ih]
      by_cases here : index = position
      · subst here
        simp
      · simp only [Function.update_of_ne here, List.getD_nil]
        congr 1
        rw [eq_iff_iff]
        omega
    | cons char src =>
      rw [strncpy, ih]
      by_cases here : index = position
      · subst here
        rw [if_neg (by omega), if_pos (by omega), Function.update_self, Nat.sub_self]
        rfl
      · by_cases later : position + 1 ≤ index ∧ index < position + 1 + count
        · rw [if_pos later, if_pos (by omega),
            show index - position = index - (position + 1) + 1 by omega, List.getD_cons_succ]
        · rw [if_neg later, if_neg (by omega), Function.update_of_ne here]

/-- What is stored is the start of the format. -/
theorem snprintfInto_stores (str : Nat → UInt8) {size : Nat} (positive : 0 < size)
    (format : List UInt8) (args : List Arg) :
    HoldsString (snprintfInto str size format args).1 (format.take (size - 1)) := by
  rw [snprintfInto, if_neg positive.ne']
  dsimp only
  constructor
  · intro index inside
    rw [List.length_take] at inside
    rw [Function.update_of_ne (by omega), strncpy_apply, if_pos (by omega), Nat.sub_zero,
      List.getD_eq_getElem _ _ (by omega), List.getD_eq_getElem _ _ (by simpa using inside),
      List.getElem_take]
  · rw [List.length_take]
    -- Behind a format that is cut the zero is put, behind a shorter one the copy left zeros.
    by_cases cut : size - 1 ≤ format.length
    · rw [min_eq_left cut, Function.update_self]
    · rw [min_eq_right (by omega), Function.update_of_ne (by omega), strncpy_apply,
        if_pos (by omega), List.getD_eq_default _ _ (by omega)]

/-- The string that a buffer holds is the one that is found in it. -/
theorem HoldsString.stringIn {str : Nat → UInt8} {text : List UInt8} (holds : HoldsString str text)
    {size : Nat} (fits : text.length < size) (whole : 0 ∉ text) : stringIn str size = text := by
  obtain ⟨rest, length⟩ : ∃ rest, size = text.length + (rest + 1) :=
    ⟨size - text.length - 1, by omega⟩
  have front : (List.range text.length).map str = text := by
    refine List.ext_getElem (by simp) fun index before inside => ?_
    rw [List.getElem_map, List.getElem_range, holds.chars index inside,
      List.getD_eq_getElem _ _ inside]
  have others : ∀ byte ∈ text, (decide (byte ≠ 0)) = true := fun byte member =>
    decide_eq_true fun none => whole (none ▸ member)
  -- The zero behind the text ends it.
  rw [Pocky.stringIn, length, List.range_add, List.map_append, front,
    List.takeWhile_append_of_pos others, List.range_succ_eq_map, List.map_cons, List.map_cons,
    Nat.add_zero, holds.terminated]
  simp

/-- The length of a string that is stored is found. -/
theorem HoldsString.strlen {str : Nat → UInt8} {text : List UInt8} (stores : HoldsString str text)
    (noZero : 0 ∉ text) {steps start : Nat} (inside : start ≤ text.length)
    (enough : text.length < start + steps) : strlen str steps start = text.length := by
  induction steps generalizing start with
  | zero => omega
  | succ steps ih =>
    rw [Pocky.strlen]
    by_cases last : start = text.length
    · rw [last, if_pos stores.terminated]
    · have here := stores.chars start (by omega)
      rw [List.getD_eq_getElem _ _ (by omega)] at here
      rw [if_neg fun zero => noZero (by rw [← zero, here]; exact List.getElem_mem _)]
      exact ih (by omega) (by omega)

/-- The answer is the length of what is stored. -/
theorem snprintfInto_length (str : Nat → UInt8) {size : Nat} (positive : 0 < size)
    {format : List UInt8} (noZero : 0 ∉ format) (args : List Arg) :
    (snprintfInto str size format args).2 = (format.take (size - 1)).length := by
  have stores := snprintfInto_stores str positive format args
  rw [snprintfInto, if_neg positive.ne'] at stores ⊢
  exact stores.strlen (fun inside => noZero (List.mem_of_mem_take inside)) (Nat.zero_le _)
    (by rw [List.length_take]; omega)

/-- The string that is stored is the one that paths are made from. -/
theorem snprintfInto_snprintf (str : Nat → UInt8) {size : Nat} (positive : 0 < size)
    (format : Name) (args : List Arg) (arguments : List Name) :
    HoldsString (snprintfInto str size format args).1 (snprintf size format arguments) :=
  snprintfInto_stores str positive format args

/-- The kind of an argument with a value that prints no percent sign. -/
def Arg.tame : Arg → Arg
  | .word _ => .word 97
  | .text _ => .text (some [])
  | .double _ => .double ⟨false, 0, fun _ => 0⟩

/-- A conversion takes a tame argument as it takes any other. -/
theorem Takes.tame {conversion : UInt8} {args others : List Arg}
    (takes : Takes conversion args others) :
    Takes conversion (args.map Arg.tame) (others.map Arg.tame) := by
  cases takes with
  | double is => exact .double is
  | word is => exact .word is
  | text is => exact .text is
  | percent is => exact .percent is

/-- Tame arguments match a format if others of their kinds do. -/
theorem Matching.tame {format : List UInt8} {args : List Arg} (matching : Matching format args) :
    Matching format (args.map Arg.tame) := by
  induction matching with
  | nil => exact .nil
  | plain plain _ ih => exact .plain plain ih
  | conversion parsed fits takes _ ih => exact .conversion parsed fits takes.tame ih

/-- A padding has no percent sign. -/
theorem padding_count {char : UInt8} (other : char ≠ ascii '%') (count : Int) :
    (padding count char).count (ascii '%') = 0 :=
  List.count_eq_zero.mpr fun inside => other (List.eq_of_mem_replicate inside).symm

/-- A number that is printed has no percent sign if its buffer has none. -/
theorem printDigits_count {front buffer : List UInt8} (noFront : front.count (ascii '%') = 0)
    (noBuffer : buffer.count (ascii '%') = 0) (width : Nat) (padZero leftJustify : Bool) :
    (printDigits front buffer width padZero leftJustify).output.count (ascii '%') = 0 := by
  have space := @padding_count (ascii ' ') (by decide)
  have zero := @padding_count (ascii '0') (by decide)
  cases leftJustify <;> cases padZero <;>
    simp [printDigits, Printed.conversion, List.count_append, noFront, noBuffer, space, zero]

/-- A tame number is printed without a percent sign. -/
theorem printNumber_tame (width : Nat) (padZero leftJustify : Bool) :
    (printNumber 97 10 width padZero leftJustify).undefined = false ∧
      (printNumber 97 10 width padZero leftJustify).output.count (ascii '%') = 0 := by
  have space := @padding_count (ascii ' ') (by decide)
  have zero := @padding_count (ascii '0') (by decide)
  have uncut : wrapInt 97 = 97 := by decide
  have digits : (numberBuffer 10 97).reverse.count (ascii '%') = 0 := by decide
  refine ⟨by simp [printNumber, uncut, intRange], ?_⟩
  cases leftJustify <;> cases padZero <;>
    simpa [printNumber, uncut, Printed.conversion, List.count_append, space, zero] using digits

/-- A tame word is printed without a percent sign. -/
theorem convert_tame_word {conversion : UInt8} (nested : List UInt8 → Printed) (spec : Spec)
    (args : List Arg) (is : conversion = ascii 'd' ∨ conversion = ascii 'u' ∨
      conversion = ascii 'x' ∨ conversion = ascii 'p' ∨ conversion = ascii 'c') :
    ∃ printed, convert nested spec conversion (.word 97 :: args) = (printed, args) ∧
      printed.undefined = false ∧ printed.output.count (ascii '%') = 0 := by
  have low : lowHalf 97 = 97 := by decide
  have value : (97 : BitVec 64).toNat = 97 ∧ (97 : BitVec 32).toNat = 97 ∧
      (97 : BitVec 64).toInt = 97 ∧ (97 : BitVec 32).toInt = 97 := by decide
  have unsigned (width : Nat) (padZero leftJustify : Bool) :
      (printUnsigned 97 10 width padZero leftJustify).output.count (ascii '%') = 0 :=
    printDigits_count (by decide) (by decide) width padZero leftJustify
  have hex (width : Nat) (padZero leftJustify : Bool) :
      (printHex 97 width padZero leftJustify).output.count (ascii '%') = 0 :=
    printDigits_count (by decide) (by decide) width padZero leftJustify
  rcases is with rfl | rfl | rfl | rfl | rfl
  · refine ⟨_, rfl, ?_⟩
    dsimp only
    rw [low, value.1, value.2.2.1, value.2.2.2]
    split_ifs
    · exact ⟨rfl, unsigned _ _ _⟩
    · exact printNumber_tame _ _ _
    · exact printNumber_tame _ _ _
  · refine ⟨_, rfl, rfl, ?_⟩
    dsimp only
    rw [low, value.1, value.2.1, ite_self]
    exact unsigned _ _ _
  · refine ⟨_, rfl, rfl, ?_⟩
    dsimp only
    rw [low, value.1, value.2.1, ite_self]
    exact hex _ _ _
  · exact ⟨_, rfl, rfl, hex 0 false false⟩
  · exact ⟨_, rfl, rfl, by decide⟩

/-- An empty string is printed as its padding. -/
theorem printString_tame {nested : List UInt8 → Printed} (empty : nested [] = .nothing)
    {spec : Spec} (fits : spec.overflows = false) :
    (printString nested spec []).undefined = false ∧
      (printString nested spec []).output.count (ascii '%') = 0 := by
  have small : spec.width < intRange := by
    simp only [Spec.overflows, decide_eq_false_iff_not, not_or] at fits
    omega
  have counted := ((stringPadding_iff spec.width 0 small).mpr (by simp [intRange])).2
  have space := @padding_count (ascii ' ') (by decide)
  have uncounted := beq_eq_false_iff_ne.mpr counted
  rw [stringPadding] at uncounted
  constructor
  · simpa [printString, empty, Printed.nothing] using uncounted
  · simp only [printString, empty, Printed.nothing, Printed.conversion]
    split <;> simp [space]

/-- A tame floating-point number is printed without a percent sign. -/
theorem printFloat_tame (precision : Nat) :
    (printFloat ⟨false, 0, fun _ => 0⟩ precision).output.count (ascii '%') = 0 := by
  simp only [printFloat, Printed.conversion, List.count_append, Bool.false_eq_true, if_false]
  have zero : UInt8.ofNat ((ascii '0').toNat + 0) ≠ ascii '%' := by decide
  rw [List.map_const', List.count_replicate, if_neg (by simpa using zero)]
  decide

/-- A conversion of a tame argument is defined, and prints a percent sign only for two of them. -/
theorem convertAt_tame {spec : Spec} {conversion : UInt8} {args others : List Arg}
    (fits : spec.overflows = false) (takes : Takes conversion args others) :
    (convertAt spec conversion (args.map Arg.tame)).undefined = false ∧
      argsBehind spec conversion (args.map Arg.tame) = others.map Arg.tame ∧
      (convertAt spec conversion (args.map Arg.tame)).output.count (ascii '%') ≤
        [conversion].count (ascii '%') := by
  cases takes with
  | double is =>
    subst is
    exact ⟨by simp [convertAt, convert, Arg.tame, printFloat, Printed.conversion, fits], rfl,
      (printFloat_tame _).le⟩
  | word is =>
    obtain ⟨printed, converted, quiet, none⟩ :=
      convert_tame_word (fun str => vprintf str []) spec (others.map Arg.tame) is
    simp only [convertAt, argsBehind, List.map_cons, Arg.tame, converted, quiet, fits, none]
    exact ⟨rfl, trivial, Nat.zero_le _⟩
  | text is =>
    subst is
    obtain ⟨quiet, none⟩ :=
      @printString_tame (fun str => vprintf str []) (vprintf_nil []) spec fits
    refine ⟨?_, rfl, none.le⟩
    exact Bool.or_eq_false_iff.mpr ⟨quiet, fits⟩
  | percent is =>
    subst is
    obtain ⟨printed, behind⟩ := convertAt_percent spec (args.map Arg.tame)
    exact ⟨by rw [printed, fits], behind, by rw [printed]; exact le_refl _⟩

/-- Tame arguments are printed without being misread, and with fewer percent signs. -/
theorem Matching.tame_count {format : List UInt8} {args : List Arg}
    (matching : Matching format args) :
    (vprintf format (args.map Arg.tame)).undefined = false ∧
      (vprintf format (args.map Arg.tame)).output.count (ascii '%') ≤ format.count (ascii '%') ∧
      (ascii '%' ∈ format →
        (vprintf format (args.map Arg.tame)).output.count (ascii '%') <
          format.count (ascii '%')) := by
  induction matching with
  | nil => simp [Printed.nothing]
  | @plain char format args plain behind ih =>
    obtain ⟨quiet, fewer, less⟩ := ih
    rw [vprintf_plain plain]
    refine ⟨by simpa [Printed.andThen, Printed.conversion] using quiet, ?_, fun inside => ?_⟩
    · simpa [Printed.andThen, Printed.conversion, List.count_cons_of_ne plain] using fewer
    · have later := less (List.mem_of_ne_of_mem (Ne.symm plain) inside)
      simpa [Printed.andThen, Printed.conversion, List.count_cons_of_ne plain] using later
  | @conversion format rest spec conversion args others parsed fits takes behind ih =>
    obtain ⟨quiet, fewer, -⟩ := ih
    obtain ⟨defined, left, signs⟩ := convertAt_tame fits takes
    obtain ⟨front, -, split⟩ := parseSpec_front format
    rw [parsed] at split
    rw [vprintf_conversion parsed, left]
    -- A conversion of the format has a percent sign of its own, which is never printed.
    have total : (ascii '%' :: format).count (ascii '%') =
        1 + front.count (ascii '%') + [conversion].count (ascii '%') + rest.count (ascii '%') := by
      rw [split, List.count_cons_self, List.count_append, ← List.singleton_append,
        List.count_append]
      omega
    simp only [Printed.andThen, List.count_append, total]
    exact ⟨Bool.or_eq_false_iff.mpr ⟨defined, quiet⟩, by omega, fun _ => by omega⟩

/-- Characters in front of every percent sign are printed as they are. -/
theorem vprintf_plain_append {front : List UInt8} (plain : ascii '%' ∉ front)
    (rest : List UInt8) (args : List Arg) :
    (vprintf (front ++ rest) args).output = front ++ (vprintf rest args).output := by
  induction front with
  | nil => rfl
  | cons char front ih =>
    rw [List.mem_cons, not_or] at plain
    rw [List.cons_append, vprintf_plain (Ne.symm plain.1)]
    simp [Printed.andThen, Printed.conversion, ih plain.2]

/-- Up to the first percent sign the two prints agree. -/
theorem snprintfInto_plain (str : Nat → UInt8) {size : Nat} (positive : 0 < size)
    {format : List UInt8} (plain : ascii '%' ∉ format.take (size - 1)) (args : List Arg) :
    HoldsString (snprintfInto str size format args).1 ((vprintf format args).output.take (size - 1)) := by
  have same : (vprintf format args).output.take (size - 1) = format.take (size - 1) := by
    have printed := vprintf_plain_append plain (format.drop (size - 1)) args
    rw [List.take_append_drop] at printed
    rw [printed]
    by_cases cut : size - 1 ≤ format.length
    · rw [List.take_append_of_le_length (by rw [List.length_take]; omega), List.take_take,
        min_self]
    · rw [List.drop_eq_nil_of_le (by omega), vprintf_nil, Printed.nothing, List.append_nil,
        List.take_take, min_self]
  rw [same]
  exact snprintfInto_stores str positive format args

/-- A string that is stored starts with the characters that are. -/
theorem HoldsString.starts {str : Nat → UInt8} {text other : List UInt8} (noZero : 0 ∉ text)
    (stored : ∀ index < text.length, str index = text.getD index 0)
    (holds : HoldsString str other) : text <+: other := by
  -- A shorter string would have its zero among the characters.
  have long : text.length ≤ other.length := by
    by_contra short
    have inside := stored other.length (by omega)
    rw [holds.terminated, List.getD_eq_getElem _ _ (by omega)] at inside
    exact noZero (inside ▸ List.getElem_mem _)
  rw [List.prefix_iff_eq_take]
  refine List.ext_getElem (by rw [List.length_take, min_eq_left long]) fun index inside _ => ?_
  have here := (stored index inside).symm.trans (holds.chars index (by omega))
  rw [List.getD_eq_getElem _ _ inside, List.getD_eq_getElem _ _ (by omega)] at here
  rw [here, List.getElem_take]

/-- A buffer holds only one string without a zero, or one that it is the start of. -/
theorem HoldsString.startsWith {str : Nat → UInt8} {text other : List UInt8} (noZero : 0 ∉ text)
    (stores : HoldsString str text) (also : HoldsString str other) : text <+: other :=
  also.starts noZero stores.chars

/--
For every size and all matching arguments a print into a buffer agrees with a print to the screen
just when the format has no percent sign; and it agrees wherever the first one is behind its end.
-/
theorem snprintf_agrees_iff {format : List UInt8} (noZero : 0 ∉ format)
    (wellFormed : ∃ args, Matching format args) :
    ((∀ size str args, 0 < size → Matching format args →
        (vprintf format args).undefined = false →
        HoldsString (snprintfInto str size format args).1
          ((vprintf format args).output.take (size - 1))) ↔ ascii '%' ∉ format) ∧
      ∀ size str args, 0 < size → ascii '%' ∉ format.take (size - 1) →
        HoldsString (snprintfInto str size format args).1
          ((vprintf format args).output.take (size - 1)) := by
  refine ⟨⟨?_, ?_⟩, fun size str args positive plain => snprintfInto_plain str positive plain args⟩
  · intro agrees inside
    obtain ⟨args, matching⟩ := wellFormed
    obtain ⟨quiet, -, less⟩ := matching.tame_count
    have few := less inside
    generalize printed : vprintf format (args.map Arg.tame) = outcome at quiet few
    -- The size has room for both the format and what is printed.
    have agree := agrees (format.length + outcome.output.length + 1) (fun _ => 0) _ (by omega)
      matching.tame (by rw [printed, quiet])
    have copied := snprintfInto_stores (fun _ => 0)
      (by omega : 0 < format.length + outcome.output.length + 1) format (args.map Arg.tame)
    rw [printed, List.take_of_length_le (by omega)] at agree
    rw [List.take_of_length_le (by omega)] at copied
    have more := (copied.startsWith noZero agree).sublist.count_le (ascii '%')
    omega
  · intro plain size str args positive _ _
    exact snprintfInto_plain str positive (fun inside => plain (List.mem_of_mem_take inside)) args

/-- A letter is stored as it is printed. -/
theorem snprintf_agrees_letter :
    HoldsString (snprintfInto (fun _ => 0) 8 [ascii 'a'] []).1
      ((vprintf [ascii 'a'] []).output.take 7) :=
  (snprintf_agrees_iff (by decide) ⟨[], .plain (by decide) .nil⟩).2 8 _ [] (by decide) (by decide)

/-- A number is printed to the screen, and its conversion into a buffer. -/
theorem snprintf_agrees_number :
    ¬ ∀ (size : Nat) (str : Nat → UInt8) (format : List UInt8) (args : List Arg), 0 < size →
      0 ∉ format → Matching format args → (vprintf format args).undefined = false →
      HoldsString (snprintfInto str size format args).1
        ((vprintf format args).output.take (size - 1)) := by
  intro agrees
  have parsed : parseSpec [ascii 'd'] = (plainSpec, [ascii 'd']) := by decide
  have printed := vprintf_conversion parsed [.word 7]
  have output : (convertAt plainSpec (ascii 'd') [.word 7]).output = [ascii '7'] := by decide
  have quiet : (convertAt plainSpec (ascii 'd') [.word 7]).undefined = false := by decide
  have agree := agrees 3 (fun _ => 0) [ascii '%', ascii 'd'] [.word 7] (by decide) (by decide)
    (.conversion parsed (by decide) (.word (Or.inl rfl)) .nil)
    (by rw [printed, vprintf_nil, Printed.andThen_nothing, quiet])
  rw [printed, vprintf_nil, Printed.andThen_nothing, output] at agree
  exact absurd (agree.chars 0 (by decide)) (by decide)

end Pocky
