import Pocky.Fs.Disk
import Mathlib.Data.List.Basic

/-! The formatter: flags, widths and conversions, and the characters they print. -/

namespace Pocky

/-- The code of a character in the source. -/
def ascii (char : Char) : UInt8 := UInt8.ofNat char.toNat

/-- Room for the digits of a number, a zero behind them included. -/
def printBufferSize : Nat := 32

/-- Conversion to a signed word of 32 bits. -/
def wrapInt (number : Int) : Int := number.bmod (2 ^ 32)

/-- The numbers of 31 bits, which a width must be one of. -/
def intRange : Nat := 2 ^ 31

/-- A floating-point number as far as it is printed, its arithmetic left out. -/
structure Double where
  /-- It is less than zero. -/
  negative : Bool
  /-- Its absolute value without a fraction, on 64-bit words. -/
  integerPart : Nat
  /-- The digits behind the point, one after the other. -/
  digit : Nat → Nat

/-- An argument behind the format. -/
inductive Arg where
  /-- A number or an address, in a word. -/
  | word (value : BitVec 64)
  /-- A string, or a null pointer. -/
  | text (string : Option (List UInt8))
  /-- A floating-point number. -/
  | double (value : Double)

/-- What a call has printed, and what can be said of it. -/
structure Printed where
  /-- The characters. -/
  output : List UInt8
  /-- The answer of the call, which counts characters and conversions of the format. -/
  written : Nat
  /-- Something happened that is not defined: an argument was missing, say. -/
  undefined : Bool
  /-- A character behind the end of the format was read, after which nothing more is known. -/
  past : Bool
  deriving Repr, DecidableEq

namespace Printed

/-- Nothing has been printed. -/
def nothing : Printed := ⟨[], 0, false, false⟩

/-- The characters of one conversion. -/
def conversion (output : List UInt8) : Printed := ⟨output, 1, false, false⟩

/-- A conversion that lacks its argument; what it prints is not known. -/
def missing : Printed := ⟨[], 1, true, false⟩

/-- One after the other. -/
def andThen (first second : Printed) : Printed where
  output := first.output ++ second.output
  written := first.written + second.written
  undefined := first.undefined || second.undefined
  past := first.past || second.past

end Printed

/-- Something that prints nothing follows. -/
@[simp] theorem Printed.andThen_nothing (printed : Printed) :
    printed.andThen .nothing = printed := by
  simp [Printed.andThen, Printed.nothing]

/-- What stands between a percent sign and the character of the conversion. -/
structure Spec where
  /-- Spaces go behind. -/
  leftJustify : Bool
  /-- Zeros are put in front. -/
  padZero : Bool
  /-- The width. -/
  width : Nat
  /-- The digits behind the point, if they are given. -/
  precision : Option Nat
  /-- The argument is a size. -/
  isSizeT : Bool
  /-- The argument is a long number. -/
  isLong : Bool
  /-- The argument is a number that is longer still. -/
  isLongLong : Bool
  deriving Repr, DecidableEq

/-- A character is a decimal digit. -/
def isDigit (char : UInt8) : Bool := ascii '0' ≤ char ∧ char ≤ ascii '9'

/-- Passing over a character if it is there. -/
def takeFlag (flag : UInt8) : List UInt8 → Bool × List UInt8
  | [] => (false, [])
  | char :: format => if char = flag then (true, format) else (false, char :: format)

/-- The digits of a number, and what follows. -/
def readNumber : Nat → List UInt8 → Nat × List UInt8
  | number, [] => (number, [])
  | number, char :: format =>
    if isDigit char then readNumber (number * 10 + (char.toNat - (ascii '0').toNat)) format
    else (number, char :: format)

/-- What stands behind a percent sign, up to the character of the conversion. -/
def parseSpec (format : List UInt8) : Spec × List UInt8 :=
  let (leftJustify, format) := takeFlag (ascii '-') format
  -- A zero is taken for the flag before the width is read.
  let (padZero, format) := takeFlag (ascii '0') format
  let (width, format) := readNumber 0 format
  let (hasPrecision, format) := takeFlag (ascii '.') format
  let (precision, format) :=
    if hasPrecision then
      let (precision, format) := readNumber 0 format
      (some precision, format)
    else (none, format)
  let (isSizeT, format) := takeFlag (ascii 'z') format
  let (isLong, format) := takeFlag (ascii 'l') format
  let (isLongLong, format) := if isLong then takeFlag (ascii 'l') format else (false, format)
  (⟨leftJustify, padZero, width, precision, isSizeT, isLong && !isLongLong, isLongLong⟩, format)

/-- A number in front of the conversion does not fit in a word of the source. -/
def Spec.overflows (spec : Spec) : Bool :=
  intRange ≤ spec.width ∨ spec.precision.any (intRange ≤ ·)

/-- The character of a digit. -/
def digitChar (digit : Nat) : UInt8 :=
  UInt8.ofNat (if digit < 10 then (ascii '0').toNat + digit else (ascii 'a').toNat + digit - 10)

/-- The digits of a number, the last one first, as long as there is room. -/
def digitLoop (base : Nat) : Nat → Nat → List UInt8
  | 0, _ => []
  | room + 1, num =>
    if num = 0 then [] else digitChar (num % base) :: digitLoop base room (num / base)

/-- The digits of a number, the last one first; zero has one too. -/
def numberBuffer (base num : Nat) : List UInt8 :=
  if num = 0 then [ascii '0'] else digitLoop base (printBufferSize - 1) num

/-- A padding of so many characters, none if the number is not positive. -/
def padding (count : Int) (char : UInt8) : List UInt8 := List.replicate count.toNat char

/-- Printing a signed number, which is cut to 32 bits; the smallest one has no negative. -/
def printNumber (num : Int) (base width : Nat) (padZero leftJustify : Bool) : Printed :=
  let num := wrapInt num
  let negative : Bool := num < 0
  let undefined : Bool := num = -intRange
  -- The least number stays negative, and no digit of it is found.
  let num := if negative then wrapInt (-num) else num
  let buffer := if num < 0 then [] else numberBuffer base num.toNat
  let sign := if negative then [ascii '-'] else []
  let pad := (width : Int) - (buffer.length + sign.length : Nat)
  { Printed.conversion
      (if leftJustify then sign ++ buffer.reverse ++ padding pad (ascii ' ')
      else if padZero then sign ++ padding pad (ascii '0') ++ buffer.reverse
      else padding pad (ascii ' ') ++ sign ++ buffer.reverse) with undefined := undefined }

/-- Printing digits with something in front of them. -/
def printDigits (front buffer : List UInt8) (width : Nat) (padZero leftJustify : Bool) : Printed :=
  let pad := (width : Int) - (buffer.length + front.length : Nat)
  Printed.conversion
    (if leftJustify then front ++ buffer.reverse ++ padding pad (ascii ' ')
    else padding pad (if padZero then ascii '0' else ascii ' ') ++ front ++ buffer.reverse)

/-- Printing an unsigned number. -/
def printUnsigned (num base width : Nat) (padZero leftJustify : Bool) : Printed :=
  printDigits [] (numberBuffer base num) width padZero leftJustify

/-- Printing a number to base sixteen. -/
def printHex (num width : Nat) (padZero leftJustify : Bool) : Printed :=
  printDigits [ascii '0', ascii 'x'] (numberBuffer 16 num) width padZero leftJustify

/-- Printing an address. -/
def printPointer (address : Nat) : Printed := printHex address 0 false false

/-- Printing a floating-point number. -/
def printFloat (num : Double) (precision : Nat) : Printed :=
  Printed.conversion ((if num.negative then [ascii '-'] else []) ++
    (printUnsigned num.integerPart 10 0 false false).output ++ [ascii '.'] ++
    (List.range precision).map fun i => UInt8.ofNat ((ascii '0').toNat + num.digit i))

/-- What is printed for a null pointer. -/
def nullText : List UInt8 := [ascii '(', ascii 'n', ascii 'u', ascii 'l', ascii 'l', ascii ')']

/-- The outcome of a conversion that asks for a word. -/
def withWord (args : List Arg) (print : BitVec 64 → Printed) : Printed × List Arg :=
  match args with
  | .word value :: args => (print value, args)
  | args => (.missing, args.tail)

/-- The value of a word of 32 bits. -/
def lowHalf (value : BitVec 64) : BitVec 32 := value.setWidth 32

/--
Printing a string by the formatter itself, as a format without arguments.

The padding is counted on 64-bit words and cut to 32 bits, and counted down once in any case.
-/
def printString (nested : List UInt8 → Printed) (spec : Spec) (str : List UInt8) : Printed :=
  let body := nested str
  let pad := if 0 < spec.width then wrapInt (spec.width - str.length) else 0
  { Printed.conversion
      (if spec.leftJustify then body.output ++ padding pad (ascii ' ')
      else padding pad (ascii ' ') ++ body.output) with
    undefined := body.undefined || body.past || pad == -intRange }

/-- One conversion, and the arguments behind its own. -/
def convert (nested : List UInt8 → Printed) (spec : Spec) (conversion : UInt8) (args : List Arg) :
    Printed × List Arg :=
  if conversion = ascii 'f' then
    match args with
    | .double value :: args => (printFloat value (spec.precision.getD 6), args)
    | args => (.missing, args.tail)
  else if conversion = ascii 'd' then
    withWord args fun value =>
      if spec.isSizeT then printUnsigned value.toNat 10 spec.width spec.padZero spec.leftJustify
      else if spec.isLongLong ∨ spec.isLong then
        printNumber value.toInt 10 spec.width spec.padZero spec.leftJustify
      else printNumber (lowHalf value).toInt 10 spec.width spec.padZero spec.leftJustify
  else if conversion = ascii 'u' then
    withWord args fun value =>
      let num := if spec.isSizeT ∨ spec.isLongLong ∨ spec.isLong then value.toNat
        else (lowHalf value).toNat
      printUnsigned num 10 spec.width spec.padZero spec.leftJustify
  else if conversion = ascii 'x' then
    withWord args fun value =>
      let num := if spec.isSizeT ∨ spec.isLongLong ∨ spec.isLong then value.toNat
        else (lowHalf value).toNat
      printHex num spec.width spec.padZero spec.leftJustify
  else if conversion = ascii 'p' then withWord args fun value => printPointer value.toNat
  else if conversion = ascii 's' then
    match args with
    | .text str :: args => (printString nested spec (str.getD nullText), args)
    | args => (.missing, args.tail)
  else if conversion = ascii '%' then (.conversion [ascii '%'], args)
  else if conversion = ascii 'c' then
    withWord args fun value => .conversion [UInt8.ofNat value.toNat]
  else (.conversion [ascii '%', conversion], args)

/-- A flag that is there or not leaves no more of the format. -/
theorem takeFlag_length (flag : UInt8) (format : List UInt8) :
    (takeFlag flag format).2.length ≤ format.length := by
  cases format with
  | nil => simp [takeFlag]
  | cons char format =>
    rw [takeFlag]
    split <;> simp

/-- A number leaves no more of the format. -/
theorem readNumber_length (number : Nat) (format : List UInt8) :
    (readNumber number format).2.length ≤ format.length := by
  fun_induction readNumber number format with
  | case1 => simp
  | case2 number char format _ ih => simp only [List.length_cons]; omega
  | case3 => simp

/-- What stands in front of a conversion leaves no more of the format. -/
theorem parseSpec_length (format : List UInt8) : (parseSpec format).2.length ≤ format.length := by
  have flag := takeFlag_length
  have number := readNumber_length
  simp only [parseSpec]
  grind

/-- A format is taken apart the way it is printed: character by character, then by conversions. -/
@[elab_as_elim]
theorem formatInduction {motive : List UInt8 → Prop} (nil : motive [])
    (plain : ∀ char format, char ≠ ascii '%' → motive format → motive (char :: format))
    (short : ∀ format, (parseSpec format).2 = [] → motive (ascii '%' :: format))
    (conversion : ∀ format spec conversion rest, parseSpec format = (spec, conversion :: rest) →
      motive rest → motive (ascii '%' :: format)) (format : List UInt8) : motive format := by
  -- By induction on the length: a conversion leaves a rest that is shorter.
  induction length : format.length using Nat.strongRecOn generalizing format with
  | ind length ih =>
    cases format with
    | nil => exact nil
    | cons char format =>
      rw [List.length_cons] at length
      by_cases percent : char = ascii '%'
      · subst percent
        rcases parsed : parseSpec format with ⟨spec, _ | ⟨char, rest⟩⟩
        · exact short format (by rw [parsed])
        · have shorter := parseSpec_length format
          rw [parsed, List.length_cons] at shorter
          exact conversion format spec char rest parsed (ih rest.length (by omega) rest rfl)
      · exact plain char format percent (ih format.length (by omega) format rfl)

/--
Printing a format with its arguments.

Strings are printed as formats of their own.
-/
def vprintfLoop (nested : List UInt8 → Printed) : List UInt8 → List Arg → Printed
  | [], _ => .nothing
  | char :: format, args =>
    if char = ascii '%' then
      match _stop : (parseSpec format).2 with
      -- The terminator is printed as a character, and what stands behind it is read.
      | [] => { Printed.conversion [ascii '%', 0] with
          undefined := (parseSpec format).1.overflows, past := true }
      | conversion :: rest =>
        let (printed, args) := convert nested (parseSpec format).1 conversion args
        { printed with undefined := printed.undefined || (parseSpec format).1.overflows }.andThen
          (vprintfLoop nested rest args)
    else (Printed.conversion [char]).andThen (vprintfLoop nested format args)
termination_by format => format.length
decreasing_by
  · have shorter := parseSpec_length format
    rw [_stop, List.length_cons] at shorter
    exact Nat.lt_succ_of_le (Nat.le_of_succ_le shorter)
  · exact Nat.lt_succ_self format.length

/-- Printing a format with its arguments; a string in it has no arguments. -/
def vprintf (format : List UInt8) (args : List Arg) : Printed :=
  vprintfLoop (fun str => vprintfLoop (fun _ => .nothing) str []) format args

/-- Without arguments a conversion never comes to print a string. -/
theorem convert_nil_args (nested other : List UInt8 → Printed) (spec : Spec) (conversion : UInt8) :
    convert nested spec conversion [] = convert other spec conversion [] ∧
      (convert nested spec conversion []).2 = [] := by
  unfold convert withWord
  split_ifs <;> simp

/-- Without arguments it makes no difference how strings are printed. -/
theorem vprintfLoop_nil_args (nested other : List UInt8 → Printed) (format : List UInt8) :
    vprintfLoop nested format [] = vprintfLoop other format [] := by
  induction format using formatInduction with
  | nil => simp [vprintfLoop]
  | plain char format plain ih =>
    rw [vprintfLoop, vprintfLoop, if_neg plain, if_neg plain, ih]
  | short format short =>
    rw [vprintfLoop, vprintfLoop, if_pos rfl, if_pos rfl]
    split
    · rfl
    · next stop => simp [short] at stop
  | conversion format spec conversion rest parsed ih =>
    rw [vprintfLoop, vprintfLoop, if_pos rfl, if_pos rfl]
    split
    · rfl
    · next stop =>
      rw [parsed] at stop
      cases stop
      -- What a string prints like does not matter, since none is left among the arguments.
      obtain ⟨same, none⟩ := convert_nil_args nested other (parseSpec format).1 conversion
      rw [← same]
      generalize convert nested (parseSpec format).1 conversion [] = printed at none
      obtain ⟨printed, args⟩ := printed
      simp only [show args = [] from none, ih]

/-- A string in a format is printed the way a format without arguments is. -/
theorem vprintf_eq (format : List UInt8) (args : List Arg) :
    vprintf format args = vprintfLoop (fun str => vprintf str []) format args := by
  have same (str : List UInt8) :
      vprintfLoop (fun _ => .nothing) str [] = vprintf str [] :=
    vprintfLoop_nil_args _ _ str
  rw [vprintf]
  simp only [same]

/-- One conversion the way the formatter prints it, a width that does not fit included. -/
def convertAt (spec : Spec) (conversion : UInt8) (args : List Arg) : Printed :=
  let printed := (convert (fun str => vprintf str []) spec conversion args).1
  { printed with undefined := printed.undefined || spec.overflows }

/-- The arguments behind a conversion. -/
def argsBehind (spec : Spec) (conversion : UInt8) (args : List Arg) : List Arg :=
  (convert (fun str => vprintf str []) spec conversion args).2

@[simp] theorem vprintf_nil (args : List Arg) : vprintf [] args = .nothing := by
  simp [vprintf, vprintfLoop]

/-- A character of the format is printed as it is. -/
theorem vprintf_plain {char : UInt8} (plain : char ≠ ascii '%') (format : List UInt8)
    (args : List Arg) :
    vprintf (char :: format) args = (Printed.conversion [char]).andThen (vprintf format args) := by
  rw [vprintf_eq, vprintf_eq format, vprintfLoop, if_neg plain]

/-- A format that ends within a conversion is left behind its end. -/
theorem vprintf_short {format : List UInt8} (short : (parseSpec format).2 = [])
    (args : List Arg) :
    vprintf (ascii '%' :: format) args = { Printed.conversion [ascii '%', 0] with
      undefined := (parseSpec format).1.overflows, past := true } := by
  rw [vprintf_eq, vprintfLoop, if_pos rfl]
  split
  · rfl
  · next stop => simp [short] at stop

/-- A conversion is printed, and then what stands behind it. -/
theorem vprintf_conversion {format rest : List UInt8} {spec : Spec} {conversion : UInt8}
    (parsed : parseSpec format = (spec, conversion :: rest)) (args : List Arg) :
    vprintf (ascii '%' :: format) args = (convertAt spec conversion args).andThen
      (vprintf rest (argsBehind spec conversion args)) := by
  rw [vprintf_eq, vprintf_eq rest, vprintfLoop, if_pos rfl]
  split
  · next stop => simp [parsed] at stop
  · next stop =>
    rw [parsed] at stop
    cases stop
    simp [parsed, convertAt, argsBehind]

end Pocky
