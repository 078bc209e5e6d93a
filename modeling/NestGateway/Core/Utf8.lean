import Mathlib.Data.UInt
import NestGateway.Core.Text

/-! # UTF-8

The decoder of browsers, which goes through the bytes one at a time and puts a
replacement character for what is malformed, and that it reads back every text.
-/

namespace NestGateway.Utf8

open Text (replacementChar)

/-- What the decoder knows of a sequence: the bits read, the number of bytes it waits for, and the
bounds of the next of them. -/
structure Decoder where
  codePoint : Nat := 0
  needed : Nat := 0
  lower : Nat := 0x80
  upper : Nat := 0xBF
  deriving Repr, DecidableEq

/-- The first byte of a sequence, with the characters it completes. -/
def first (b : Nat) : List Char × Decoder :=
  if b < 0x80 then ([Char.ofNat b], {})
  else if b < 0xC2 then ([replacementChar], {})
  else if b < 0xE0 then ([], { codePoint := b % 0x20, needed := 1 })
  else if b < 0xF0 then
    ([], {
      codePoint := b % 0x10
      needed := 2
      lower := if b = 0xE0 then 0xA0 else 0x80
      upper := if b = 0xED then 0x9F else 0xBF })
  else if b < 0xF5 then
    ([], {
      codePoint := b % 0x08
      needed := 3
      lower := if b = 0xF0 then 0x90 else 0x80
      upper := if b = 0xF4 then 0x8F else 0xBF })
  else ([replacementChar], {})

/-- The next byte; one that does not continue the sequence begins another. -/
def next (d : Decoder) (b : Nat) : List Char × Decoder :=
  if d.needed = 0 then first b
  else if b < d.lower ∨ d.upper < b then (replacementChar :: (first b).1, (first b).2)
  else if d.needed = 1 then ([Char.ofNat (d.codePoint * 0x40 + b % 0x40)], {})
  else ([], { codePoint := d.codePoint * 0x40 + b % 0x40, needed := d.needed - 1 })

def decodeFrom (d : Decoder) : List UInt8 → List Char
  | [] => if d.needed = 0 then [] else [replacementChar]
  | b :: bytes => (next d b.toNat).1 ++ decodeFrom (next d b.toNat).2 bytes

def byteOrderMark : Char := Char.ofNat 0xFEFF

/-- `new TextDecoder().decode(bytes)`: a byte order mark in front is dropped. -/
def decode (bytes : List UInt8) : List Char :=
  match decodeFrom {} bytes with
  | c :: cs => if c = byteOrderMark then cs else c :: cs
  | [] => []

def encode (cs : List Char) : List UInt8 := cs.flatMap String.utf8EncodeChar

theorem decodeFrom_cons {n : Nat} (h : n < 256) (d : Decoder) (bytes : List UInt8) :
    decodeFrom d (UInt8.ofNat n :: bytes) = (next d n).1 ++ decodeFrom (next d n).2 bytes := by
  rw [decodeFrom, UInt8.toNat_ofNat', Nat.mod_eq_of_lt h]

section Steps

variable {d : Decoder} {b : Nat}

theorem next_first (hneeded : d.needed = 0) : next d b = first b := if_pos hneeded

theorem next_last (hneeded : d.needed = 1) (hlower : d.lower ≤ b) (hupper : b ≤ d.upper) :
    next d b = ([Char.ofNat (d.codePoint * 0x40 + b % 0x40)], {}) := by
  unfold next
  rw [if_neg (by omega), if_neg (by omega), if_pos hneeded]

theorem next_more (hneeded : 1 < d.needed) (hlower : d.lower ≤ b) (hupper : b ≤ d.upper) :
    next d b =
      ([], { codePoint := d.codePoint * 0x40 + b % 0x40, needed := d.needed - 1 }) := by
  unfold next
  rw [if_neg (by omega), if_neg (by omega), if_neg (by omega)]

theorem first_two (hlower : 0xC2 ≤ b) (hupper : b < 0xE0) :
    first b = ([], { codePoint := b % 0x20, needed := 1 }) := by
  unfold first
  rw [if_neg (by omega), if_neg (by omega), if_pos hupper]

theorem first_three (hlower : 0xE0 ≤ b) (hupper : b < 0xF0) :
    first b = ([], {
      codePoint := b % 0x10
      needed := 2
      lower := if b = 0xE0 then 0xA0 else 0x80
      upper := if b = 0xED then 0x9F else 0xBF }) := by
  unfold first
  rw [if_neg (by omega), if_neg (by omega), if_neg (by omega), if_pos hupper]

theorem first_four (hlower : 0xF0 ≤ b) (hupper : b < 0xF5) :
    first b = ([], {
      codePoint := b % 0x08
      needed := 3
      lower := if b = 0xF0 then 0x90 else 0x80
      upper := if b = 0xF4 then 0x8F else 0xBF }) := by
  unfold first
  rw [if_neg (by omega), if_neg (by omega), if_neg (by omega), if_neg (by omega), if_pos hupper]

end Steps

/-- A character is read back; the surrogates, which no character is, are what the bounds of the
second byte exclude. -/
theorem decodeFrom_char (c : Char) (bytes : List UInt8) :
    decodeFrom {} (String.utf8EncodeChar c ++ bytes) = c :: decodeFrom {} bytes := by
  have hscalar : c.val.toNat < 0xD800 ∨ (0xDFFF < c.val.toNat ∧ c.val.toNat < 0x110000) := c.valid
  have hc : Char.ofNat c.val.toNat = c := Char.ofNat_toNat c
  unfold String.utf8EncodeChar
  generalize c.val.toNat = n at hscalar hc
  subst hc
  dsimp only
  split
  next h =>
    rw [List.cons_append, List.nil_append, decodeFrom_cons (by omega), next_first rfl, first,
      if_pos (by omega)]
    rfl
  split
  next h =>
    rw [List.cons_append, List.cons_append, List.nil_append, decodeFrom_cons (by omega),
      next_first rfl, first_two (by omega) (by omega), decodeFrom_cons (by omega),
      next_last rfl (by simp) (by simp; omega)]
    have hvalue : (n / 64 % 0x20 + 0xc0) % 0x20 * 0x40 + (n % 0x40 + 0x80) % 0x40 = n := by omega
    dsimp only
    rw [hvalue]
    rfl
  split
  next h =>
    rw [List.cons_append, List.cons_append, List.cons_append, List.nil_append,
      decodeFrom_cons (by omega), next_first rfl, first_three (by omega) (by omega),
      decodeFrom_cons (by omega), next_more (by simp) ?_ ?_, decodeFrom_cons (by omega),
      next_last rfl (by simp) (by simp; omega)]
    · have hvalue : ((n / 4096 % 0x10 + 0xe0) % 0x10 * 0x40 +
          (n / 64 % 0x40 + 0x80) % 0x40) * 0x40 + (n % 0x40 + 0x80) % 0x40 = n := by omega
      dsimp only
      rw [hvalue]
      rfl
    · dsimp only
      split <;> omega
    · dsimp only
      split <;> omega
  next h =>
    rw [List.cons_append, List.cons_append, List.cons_append, List.cons_append, List.nil_append,
      decodeFrom_cons (by omega), next_first rfl, first_four (by omega) (by omega),
      decodeFrom_cons (by omega), next_more (by simp) ?_ ?_, decodeFrom_cons (by omega),
      next_more (by simp) (by simp) (by simp; omega), decodeFrom_cons (by omega),
      next_last rfl (by simp) (by simp; omega)]
    · have hvalue : (((n / 262144 % 8 + 0xf0) % 8 * 0x40 + (n / 4096 % 0x40 + 0x80) % 0x40) * 0x40 +
          (n / 64 % 0x40 + 0x80) % 0x40) * 0x40 + (n % 0x40 + 0x80) % 0x40 = n := by omega
      dsimp only
      rw [hvalue]
      rfl
    · dsimp only
      split <;> omega
    · dsimp only
      split <;> omega

theorem decodeFrom_encode (cs : List Char) : decodeFrom {} (encode cs) = cs := by
  induction cs with
  | nil => rfl
  | cons c cs ih =>
      unfold encode at ih ⊢
      rw [List.flatMap_cons, decodeFrom_char, ih]

/-- A text that does not begin with a byte order mark is read back. -/
theorem decode_encode {cs : List Char} (h : cs.head? ≠ some byteOrderMark) :
    decode (encode cs) = cs := by
  unfold decode
  rw [decodeFrom_encode]
  cases cs with
  | nil => rfl
  | cons c cs => exact if_neg fun hc => h (congrArg some hc)

end NestGateway.Utf8
