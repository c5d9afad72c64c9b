import Mathlib.Tactic.IntervalCases
import Pocky.Lib.Run
import Pocky.Text.Printf

/-! Unsigned numbers that are printed through a buffer, with counters in words, and read back. -/

namespace Pocky

/-- The loop that stores the digits of a number, the last one first, with the rounds it may take. -/
def storeDigits (base : BitVec 64) : Nat → BitVec 64 → Buffer → BitVec 64 → Run (Buffer × BitVec 64)
  | 0, _, _, _ => .error .diverges
  | rounds + 1, num, buffer, i =>
    if 0#64 < num ∧ i.toNat < printBufferSize - 1 then
      let digit := (num % base).setWidth 32
      storeDigits base rounds (num / base) (Function.update buffer i.toNat (digitChar digit.toNat)) (i + 1#64)
    else .ok (buffer, i)

/-- Storing the digits of a number in a buffer of zeros; zero has one digit too. -/
def storeNumber (base num : BitVec 64) (rounds : Nat) : Run (Buffer × BitVec 64) :=
  let buffer : Buffer := fun _ => 0
  if num = 0#64 then .ok (Function.update buffer 0 (ascii '0'), 1#64)
  else storeDigits base rounds num buffer 0#64

/-- The loop that prints a buffer backwards; the counter is looked at before it goes down. -/
def putDigits (buffer : Buffer) : Nat → BitVec 64 → Run (List UInt8)
  | 0, _ => .error .diverges
  | rounds + 1, i =>
    if 0#64 < i then do
      let rest ← putDigits buffer rounds (i - 1#64)
      return buffer (i - 1#64).toNat :: rest
    else return []

/-- The loop that prints a padding, counted in a signed word. -/
def putPadding (char : UInt8) : Nat → BitVec 32 → Run (List UInt8)
  | 0, _ => .error .diverges
  | rounds + 1, padding =>
    if 0 < padding.toInt then do
      let rest ← putPadding char rounds (padding - 1#32)
      return char :: rest
    else return []

/-- Printing an unsigned number loop by loop, each with the rounds it may take. -/
def printUnsignedLoops (num : BitVec 64) (base width : BitVec 32) (padZero leftJustify : Bool)
    (rounds : Nat) : Run (List UInt8) := do
  let (buffer, i) ← storeNumber (base.signExtend 64) num rounds
  -- The width is widened for the difference, which is then cut to a signed word.
  let padding := (width.signExtend 64 - i).setWidth 32
  if leftJustify then do
    let digits ← putDigits buffer rounds i
    let fill ← putPadding (ascii ' ') rounds padding
    return digits ++ fill
  else do
    let fill ← putPadding (if padZero then ascii '0' else ascii ' ') rounds padding
    let digits ← putDigits buffer rounds i
    return fill ++ digits

/-- Digits are stored behind each other, as many as there are or as there is room for. -/
theorem storeDigits_eq {base : BitVec 64} (known : 0 < base.toNat) (small : base.toNat ≤ 16)
    {room rounds : Nat} (enough : room < rounds) (num i : BitVec 64) (buffer : Buffer)
    (start : i.toNat + room = printBufferSize - 1) :
    ∃ stored j, storeDigits base rounds num buffer i = .ok (stored, j) ∧
      j.toNat = i.toNat + (digitLoop base.toNat room num.toNat).length ∧
      ∀ index, stored index = if i.toNat ≤ index then
        ((digitLoop base.toNat room num.toNat)[index - i.toNat]?).getD (buffer index) else buffer index := by
  have size : printBufferSize - 1 = 31 := rfl
  -- By induction on the room that is left.
  induction room generalizing rounds num i buffer with
  | zero =>
    obtain ⟨rounds, rfl⟩ : ∃ fewer, rounds = fewer + 1 := ⟨rounds - 1, by omega⟩
    refine ⟨buffer, i, ?_, rfl, fun index => by simp [digitLoop]⟩
    rw [storeDigits, if_neg (by omega)]
  | succ room ih =>
    obtain ⟨rounds, rfl⟩ : ∃ fewer, rounds = fewer + 1 := ⟨rounds - 1, by omega⟩
    by_cases zero : num = 0#64
    · subst zero
      refine ⟨buffer, i, ?_, by simp [digitLoop], fun index => by simp [digitLoop]⟩
      rw [storeDigits, if_neg (by simp)]
    · have nonzero : num.toNat ≠ 0 := fun none => zero (BitVec.eq_of_toNat_eq none)
      have positive : 0#64 < num := by
        rw [BitVec.lt_def]
        exact Nat.pos_of_ne_zero nonzero
      have next : (i + 1#64).toNat = i.toNat + 1 := by
        rw [BitVec.toNat_add, BitVec.toNat_ofNat]
        omega
      have digit : ((num % base).setWidth 32).toNat = num.toNat % base.toNat := by
        have below := Nat.mod_lt num.toNat known
        rw [BitVec.toNat_setWidth, BitVec.toNat_umod]
        exact Nat.mod_eq_of_lt (by omega)
      obtain ⟨stored, j, told, count, place⟩ := ih (show room < rounds by omega) (num / base)
        (i + 1#64) (Function.update buffer i.toNat (digitChar (num.toNat % base.toNat))) (by omega)
      rw [BitVec.toNat_udiv] at count place
      refine ⟨stored, j, ?_, ?_, fun index => ?_⟩
      · rw [storeDigits, if_pos ⟨positive, by omega⟩, ← told, ← digit]
      · rw [digitLoop, if_neg nonzero, List.length_cons]
        omega
      · rw [place, next, digitLoop, if_neg nonzero]
        -- The digit stored now comes before those to come.
        rcases Nat.lt_trichotomy index i.toNat with below | here | above
        · rw [if_neg (by omega), if_neg (by omega), Function.update_of_ne (by omega)]
        · rw [if_neg (by omega), if_pos (by omega), here, Nat.sub_self, Function.update_self]
          rfl
        · rw [if_pos (by omega), if_pos (by omega), Function.update_of_ne (by omega),
            show index - i.toNat = index - (i.toNat + 1) + 1 by omega, List.getElem?_cons_succ]

/-- A buffer is printed from its last character to the first one. -/
theorem putDigits_eq (buffer : Buffer) {rounds : Nat} {i : BitVec 64} (enough : i.toNat < rounds) :
    putDigits buffer rounds i = .ok ((List.range i.toNat).map buffer).reverse := by
  -- By induction on the rounds.
  induction rounds generalizing i with
  | zero => exact absurd enough (Nat.not_lt_zero _)
  | succ rounds ih =>
    rw [putDigits]
    by_cases positive : 0#64 < i
    · have some : 0 < i.toNat := positive
      have before : (i - 1#64).toNat = i.toNat - 1 := by
        rw [BitVec.toNat_sub, BitVec.toNat_ofNat]
        have bound := i.isLt
        omega
      obtain ⟨count, count_eq⟩ := Nat.exists_eq_add_of_le' some
      rw [if_pos positive, ih (by omega), before, count_eq, Nat.add_sub_cancel, List.range_succ]
      simp
    · have zero : i.toNat = 0 := Nat.eq_zero_of_not_pos positive
      rw [if_neg positive, zero]
      rfl

/-- A padding is printed as often as its count says, if that is positive. -/
theorem putPadding_eq (char : UInt8) {rounds : Nat} {count : BitVec 32} (enough : count.toInt.toNat < rounds) :
    putPadding char rounds count = .ok (padding count.toInt char) := by
  induction rounds generalizing count with
  | zero => exact absurd enough (Nat.not_lt_zero _)
  | succ rounds ih =>
    rw [putPadding]
    by_cases positive : 0 < count.toInt
    · have before : (count - 1#32).toInt = count.toInt - 1 := by
        -- A positive count can be counted down.
        have bound := count.isLt
        simp only [BitVec.toInt_eq_toNat_cond, BitVec.toNat_sub, BitVec.toNat_ofNat] at positive ⊢
        split at positive <;> split <;> omega
      obtain ⟨left, left_eq⟩ : ∃ left, count.toInt.toNat = left + 1 := ⟨count.toInt.toNat - 1, by omega⟩
      have fewer : (count.toInt - 1).toNat = left := by omega
      rw [if_pos positive, ih (by omega), before, padding, padding, fewer, left_eq, List.replicate_succ]
      rfl
    · rw [if_neg positive, padding, Int.toNat_of_nonpos (by omega)]
      rfl

/-- No more digits come out than there is room for. -/
theorem digitLoop_length_le (base room num : Nat) : (digitLoop base room num).length ≤ room := by
  induction room generalizing num with
  | zero => exact Nat.le_refl 0
  | succ room ih =>
    rw [digitLoop]
    split
    · exact Nat.zero_le _
    · exact Nat.succ_le_succ (ih _)

/-- Before the number is printed the buffer holds its digits. -/
theorem storeNumber_eq (base num : BitVec 64) (known : 0 < base.toNat) (small : base.toNat ≤ 16)
    {rounds : Nat} (enough : printBufferSize ≤ rounds) :
    ∃ stored i, storeNumber base num rounds = .ok (stored, i) ∧ i.toNat < printBufferSize ∧
      (List.range i.toNat).map stored = numberBuffer base.toNat num.toNat := by
  rw [storeNumber]
  by_cases zero : num = 0#64
  · subst zero
    rw [if_pos rfl]
    exact ⟨_, _, rfl, by decide, rfl⟩
  · have nonzero : num.toNat ≠ 0 := fun none => zero (BitVec.eq_of_toNat_eq none)
    have size : printBufferSize = 32 := rfl
    obtain ⟨stored, i, told, count, place⟩ := storeDigits_eq known small
      (show printBufferSize - 1 < rounds by omega) num 0#64 (fun _ => 0) (by decide)
    rw [if_neg zero, numberBuffer, if_neg nonzero]
    have few := digitLoop_length_le base.toNat (printBufferSize - 1) num.toNat
    simp only [BitVec.toNat_ofNat, Nat.zero_mod, Nat.zero_add, Nat.zero_le, if_true, Nat.sub_zero] at count place
    refine ⟨stored, i, told, by omega, List.ext_getElem (by simp [count]) fun index inside inside' => ?_⟩
    rw [List.getElem_map, List.getElem_range, place, List.getElem?_eq_getElem inside', Option.getD_some]

/-- The difference of a width and a counter is not changed when it is cut. -/
theorem paddingCount_eq {width : BitVec 32} {i : BitVec 64} (small : width.toNat < intRange)
    (few : i.toNat < printBufferSize) :
    ((width.signExtend 64 - i).setWidth 32).toInt = (width.toNat : Int) - i.toNat := by
  have size : printBufferSize = 32 := rfl
  simp only [intRange] at small
  have wide : (width.signExtend 64).toNat = width.toNat := by
    rw [BitVec.signExtend_eq_setWidth_of_msb_false (by rw [BitVec.msb_eq_false_iff_two_mul_lt]; omega),
      BitVec.toNat_setWidth]
    omega
  rw [BitVec.toInt_eq_toNat_cond, BitVec.toNat_setWidth, BitVec.toNat_sub, wide]
  split <;> omega

/-- Loop by loop the same characters are printed. -/
theorem printUnsignedLoops_eq (num : BitVec 64) {base width : BitVec 32} (known : base = 10#32 ∨ base = 16#32)
    (small : width.toNat < intRange) (padZero leftJustify : Bool) {rounds : Nat} (enough : intRange ≤ rounds) :
    printUnsignedLoops num base width padZero leftJustify rounds =
      .ok (printUnsigned num.toNat base.toNat width.toNat padZero leftJustify).output := by
  have range : intRange = 2 ^ 31 := rfl
  have size : printBufferSize = 32 := rfl
  have wide : (base.signExtend 64).toNat = base.toNat ∧ 0 < base.toNat ∧ base.toNat ≤ 16 := by
    rcases known with rfl | rfl <;> decide
  obtain ⟨same, positive, atMost⟩ := wide
  obtain ⟨stored, i, told, few, digits⟩ := storeNumber_eq (base.signExtend 64) num (by omega) (by omega)
    (show printBufferSize ≤ rounds by omega)
  have count := paddingCount_eq small few
  have length : i.toNat = (numberBuffer base.toNat num.toNat).length := by
    rw [← same, ← digits, List.length_map, List.length_range]
  have put := putDigits_eq stored (show i.toNat < rounds by omega)
  have fill := fun char => putPadding_eq char
    (show ((width.signExtend 64 - i).setWidth 32).toInt.toNat < rounds by omega)
  rw [digits, same] at put
  simp only [count, length] at fill
  simp only [printUnsignedLoops, told, Run.ok_bind]
  cases leftJustify with
  | true => simp [put, fill, printUnsigned, printDigits, Printed.conversion]
  | false => simp [put, fill, printUnsigned, printDigits, Printed.conversion]

/-- The number a character stands for as a digit. -/
def digitValue (char : UInt8) : Nat :=
  if isDigit char then char.toNat - (ascii '0').toNat else char.toNat - (ascii 'a').toNat + 10

/-- Reading digits in a base. -/
def readDigits (base : Nat) (digits : List UInt8) : Nat :=
  digits.foldl (fun number char => number * base + digitValue char) 0

/-- The digits of a number in a base, without zeros in front. -/
structure IsNumeral (base num : Nat) (digits : List UInt8) : Prop where
  /-- Every character is a digit of the base. -/
  digit : ∀ char ∈ digits, ∃ value < base, char = digitChar value
  /-- Zero is one digit. -/
  zero : num = 0 → digits = [ascii '0']
  /-- Any other number does not start with a zero. -/
  leading : num ≠ 0 → ∃ char rest, digits = char :: rest ∧ char ≠ ascii '0'
  /-- Read back, the digits give the number. -/
  value : readDigits base digits = num

/-- The character of a digit stands for it, and only zero has the character of zero. -/
theorem digitChar_value {digit : Nat} (small : digit < 16) :
    digitValue (digitChar digit) = digit ∧ (digitChar digit = ascii '0' → digit = 0) := by
  interval_cases digit <;> decide

/-- One digit more is one place more. -/
theorem readDigits_append (base : Nat) (digits : List UInt8) (char : UInt8) :
    readDigits base (digits ++ [char]) = readDigits base digits * base + digitValue char := by
  simp [readDigits]

/-- A digit is its own numeral. -/
theorem IsNumeral.single {base digit : Nat} (small : digit < base) (atMost : base ≤ 16) :
    IsNumeral base digit [digitChar digit] := by
  obtain ⟨value, zero⟩ := digitChar_value (Nat.lt_of_lt_of_le small atMost)
  refine ⟨fun char member => ⟨digit, small, List.mem_singleton.mp member⟩, ?_, fun nonzero => ?_, ?_⟩
  · rintro rfl
    rfl
  · exact ⟨_, _, rfl, fun same => nonzero (zero same)⟩
  · rw [readDigits, List.foldl_cons, List.foldl_nil, value, Nat.zero_mul, Nat.zero_add]

/-- A digit behind the numeral of a number other than zero makes a numeral. -/
theorem IsNumeral.append {base num digit : Nat} {digits : List UInt8} (numeral : IsNumeral base num digits)
    (positive : 0 < num) (small : digit < base) (atMost : base ≤ 16) :
    IsNumeral base (num * base + digit) (digits ++ [digitChar digit]) := by
  have greater : 0 < num * base + digit :=
    Nat.add_pos_left (Nat.mul_pos positive (Nat.lt_of_le_of_lt (Nat.zero_le _) small)) digit
  refine ⟨fun char member => ?_, fun none => absurd none greater.ne', fun _ => ?_, ?_⟩
  · rcases List.mem_append.mp member with inside | last
    · exact numeral.digit char inside
    · exact ⟨digit, small, List.mem_singleton.mp last⟩
  · obtain ⟨char, rest, rfl, other⟩ := numeral.leading positive.ne'
    exact ⟨char, rest ++ [digitChar digit], rfl, other⟩
  · rw [readDigits_append, numeral.value, (digitChar_value (Nat.lt_of_lt_of_le small atMost)).1]

/-- The division loop gives the numeral of a number that there is room for. -/
theorem digitLoop_numeral {base room num : Nat} (two : 2 ≤ base) (atMost : base ≤ 16) (positive : 0 < num)
    (fits : num < base ^ room) : IsNumeral base num (digitLoop base room num).reverse := by
  have known : 0 < base := Nat.lt_of_lt_of_le (by decide) two
  -- By induction on the room; the quotient has one digit fewer.
  induction room generalizing num with
  | zero =>
    rw [Nat.pow_zero] at fits
    omega
  | succ room ih =>
    rw [digitLoop, if_neg positive.ne', List.reverse_cons]
    rcases Nat.eq_zero_or_pos (num / base) with none | some
    · have last : num < base := (Nat.div_eq_zero_iff_lt known).mp none
      have empty : digitLoop base room 0 = [] := by cases room <;> simp [digitLoop]
      rw [none, empty, Nat.mod_eq_of_lt last]
      exact IsNumeral.single last atMost
    · have quotient := ih some (Nat.div_lt_of_lt_mul (by rwa [Nat.pow_succ, Nat.mul_comm] at fits))
      have numeral := quotient.append some (Nat.mod_lt num known) atMost
      rwa [Nat.mul_comm, Nat.div_add_mod] at numeral

/-- The buffer of a word holds its numeral, the last digit first. -/
theorem numberBuffer_numeral {base num : Nat} (ten : 10 ≤ base) (atMost : base ≤ 16) (word : num < 2 ^ 64) :
    IsNumeral base num (numberBuffer base num).reverse := by
  rw [numberBuffer]
  split
  · rename_i zero
    rw [zero]
    exact IsNumeral.single (Nat.lt_of_lt_of_le (by decide) ten) atMost
  · rename_i nonzero
    -- Thirty-one digits are enough for a word in any base from ten on.
    have room : 2 ^ 64 ≤ base ^ (printBufferSize - 1) :=
      Nat.le_trans (by decide) (Nat.pow_le_pow_left ten (printBufferSize - 1))
    exact digitLoop_numeral (Nat.le_trans (by decide) ten) atMost (Nat.pos_of_ne_zero nonzero)
      (Nat.lt_of_lt_of_le word room)

/-- Digits with blanks behind them, or with blanks or zeros in front, up to a width. -/
def paddedDigits (digits : List UInt8) (width : Nat) (padZero leftJustify : Bool) : List UInt8 :=
  if leftJustify then digits ++ List.replicate (width - digits.length) (ascii ' ')
  else List.replicate (width - digits.length) (if padZero then ascii '0' else ascii ' ') ++ digits

/-- Padded digits are as long as the width, or longer if there are more of them. -/
theorem paddedDigits_length (digits : List UInt8) (width : Nat) (padZero leftJustify : Bool) :
    (paddedDigits digits width padZero leftJustify).length = max width digits.length := by
  cases leftJustify <;> simp [paddedDigits] <;> omega

/-- An unsigned number is printed as its padded numeral. -/
theorem printUnsigned_output (num base width : Nat) (padZero leftJustify : Bool) :
    (printUnsigned num base width padZero leftJustify).output =
      paddedDigits (numberBuffer base num).reverse width padZero leftJustify := by
  have fill : ∀ char, padding ((width : Int) - (numberBuffer base num).length) char =
      List.replicate (width - (numberBuffer base num).length) char := by
    intro char
    rw [padding]
    congr 1
    omega
  cases leftJustify <;> simp [printUnsigned, printDigits, Printed.conversion, paddedDigits, fill]

/-- A word is printed as a numeral that reads back as the word, padded to the width. -/
theorem printUnsignedLoops_numeral (num : BitVec 64) {base width : BitVec 32}
    (known : base = 10#32 ∨ base = 16#32) (small : width.toNat < intRange) (padZero leftJustify : Bool) :
    ∃ digits, IsNumeral base.toNat num.toNat digits ∧
      (∀ rounds, intRange ≤ rounds → printUnsignedLoops num base width padZero leftJustify rounds =
        .ok (paddedDigits digits width.toNat padZero leftJustify)) ∧
      (paddedDigits digits width.toNat padZero leftJustify).length = max width.toNat digits.length := by
  have bounds : 10 ≤ base.toNat ∧ base.toNat ≤ 16 := by
    rcases known with rfl | rfl <;> decide
  refine ⟨(numberBuffer base.toNat num.toNat).reverse, numberBuffer_numeral bounds.1 bounds.2 num.isLt,
    fun rounds enough => ?_, paddedDigits_length _ _ _ _⟩
  rw [printUnsignedLoops_eq num known small padZero leftJustify enough, printUnsigned_output]

/-- The greatest word is printed in base sixteen with four zeros in front of it. -/
theorem printUnsignedLoops_numeral_greatest :
    ∃ digits, IsNumeral (16#32).toNat (BitVec.allOnes 64).toNat digits ∧
      (∀ rounds, intRange ≤ rounds → printUnsignedLoops (BitVec.allOnes 64) 16#32 20#32 true false rounds =
        .ok (paddedDigits digits (20#32).toNat true false)) ∧
      (paddedDigits digits (20#32).toNat true false).length = max (20#32).toNat digits.length :=
  printUnsignedLoops_numeral (BitVec.allOnes 64) (Or.inr rfl) (by decide) true false

end Pocky
