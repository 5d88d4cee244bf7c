import Mathlib.Data.List.Basic

/-!
Bytes read as text where what is not UTF-8 is replaced: each longest start of a character that does
not go on as one becomes U+FFFD.
-/

namespace Utf8

def replacement : Char := '\uFFFD'

def isContinuation (byte : UInt8) : Bool := 0x80 ≤ byte && byte ≤ 0xBF

/-- Whether `second` may follow `first` in a character of three bytes. -/
def fitsThree (first second : UInt8) : Bool :=
  if first = 0xE0 then 0xA0 ≤ second && second ≤ 0xBF
  else if first = 0xED then 0x80 ≤ second && second ≤ 0x9F
  else isContinuation second

/-- Whether `second` may follow `first` in a character of four bytes. -/
def fitsFour (first second : UInt8) : Bool :=
  if first = 0xF0 then 0x90 ≤ second && second ≤ 0xBF
  else if first = 0xF4 then 0x80 ≤ second && second ≤ 0x8F
  else isContinuation second

def bits (byte : UInt8) : Nat := byte.toNat % 64

/-- The character that begins with `first`, and how many of the bytes that follow it takes. -/
def readChar (first : UInt8) (rest : List UInt8) : Char × Nat :=
  let second := rest.getD 0 0
  let third := rest.getD 1 0
  let fourth := rest.getD 2 0
  if first < 0x80 then (Char.ofNat first.toNat, 0)
  else if 0xC2 ≤ first ∧ first ≤ 0xDF then
    if isContinuation second then
      (Char.ofNat (first.toNat % 32 * 64 + bits second), 1)
    else (replacement, 0)
  else if 0xE0 ≤ first ∧ first ≤ 0xEF then
    if fitsThree first second then
      if isContinuation third then
        (Char.ofNat ((first.toNat % 16 * 64 + bits second) * 64 + bits third), 2)
      else (replacement, 1)
    else (replacement, 0)
  else if 0xF0 ≤ first ∧ first ≤ 0xF4 then
    if fitsFour first second then
      if isContinuation third then
        if isContinuation fourth then
          (Char.ofNat
            (((first.toNat % 8 * 64 + bits second) * 64 + bits third) * 64 + bits fourth), 3)
        else (replacement, 2)
      else (replacement, 1)
    else (replacement, 0)
  else (replacement, 0)

def lossyAfter : Nat → List UInt8 → List Char
  | _, [] => []
  | taken + 1, _ :: rest => lossyAfter taken rest
  | 0, first :: rest => (readChar first rest).1 :: lossyAfter (readChar first rest).2 rest

def fromUtf8Lossy (bytes : List UInt8) : List Char := lossyAfter 0 bytes

/-- A line feed ends what came before it, as the end of the bytes does. -/
theorem readChar_append (first : UInt8) (rest more : List UInt8) :
    readChar first (rest ++ 10 :: more) = readChar first rest := by
  match rest with
  | [] =>
      by_cases ascii : first < 0x80
      · simp [readChar, ascii]
      · simp [readChar, ascii, fitsThree, fitsFour, isContinuation]
  | [_] => simp [readChar, fitsThree, fitsFour, isContinuation]
  | [_, _] => simp [readChar, fitsThree, fitsFour, isContinuation]
  | _ :: _ :: _ :: _ => rfl

theorem present {bytes : List UInt8} {index : Nat} {test : UInt8 → Bool}
    (passed : test (bytes.getD index 0) = true) (fails : test 0 = false) :
    index < bytes.length := by
  by_contra past
  rw [List.getD_eq_getElem?_getD, List.getElem?_eq_none (Nat.le_of_not_lt past), Option.getD_none,
    fails] at passed
  cases passed

theorem fitsThree_zero (first : UInt8) : fitsThree first 0 = false := by
  unfold fitsThree
  split_ifs <;> rfl

theorem fitsFour_zero (first : UInt8) : fitsFour first 0 = false := by
  unfold fitsFour
  split_ifs <;> rfl

theorem readChar_taken (first : UInt8) (rest : List UInt8) :
    (readChar first rest).2 ≤ rest.length := by
  unfold readChar
  simp only
  split_ifs with one two second three second third four second third fourth
  all_goals try exact Nat.zero_le _
  · exact present second rfl
  · exact present third rfl
  · exact @present rest 0 (fitsThree first) second (fitsThree_zero first)
  · exact present fourth rfl
  · exact present third rfl
  · exact @present rest 0 (fitsFour first) second (fitsFour_zero first)

theorem lossyAfter_append {taken : Nat} {front : List UInt8} (within : taken ≤ front.length)
    (back : List UInt8) :
    lossyAfter taken (front ++ 10 :: back) = lossyAfter taken front ++ '\n' :: lossyAfter 0 back := by
  induction front generalizing taken with
  | nil =>
      rw [List.length_nil, Nat.le_zero] at within
      subst within
      rfl
  | cons first rest ih =>
      cases taken with
      | succ taken => exact ih (Nat.le_of_succ_le_succ within)
      | zero =>
          rw [List.cons_append, lossyAfter, lossyAfter, readChar_append,
            ih (readChar_taken first rest)]
          rfl

theorem fromUtf8Lossy_append (front back : List UInt8) :
    fromUtf8Lossy (front ++ 10 :: back) =
      fromUtf8Lossy front ++ '\n' :: fromUtf8Lossy back :=
  lossyAfter_append (Nat.zero_le _) back

end Utf8
