import Mathlib.Data.List.Infix
import Mathlib.Data.String.Basic
import Mathlib.Order.BoundedOrder.Basic

/-! # Go strings

The functions of the `strings`, `strconv` and `bufio` packages that the
log-streamer uses, on the characters of a string. A Go string is a byte
sequence; here it is a sequence of Unicode characters, so text that is not
valid UTF-8 is outside the model. Comparing bytes and comparing code points
gives the same order.
-/

namespace NestGateway.Text

/-- What the Go runtime reads from tables that are not part of the program: the
simple case mappings of Unicode, the local time zone (the Unix second of a
local civil second) and the text of the nearest float64. -/
structure Runtime where
  toLower : Char → Char
  toUpper : Char → Char
  /-- The representative of a character's simple case-folding class. -/
  fold : Char → Char
  unixOfLocal : Int → Int
  /-- The shortest text of the float64 nearest to a number literal, if it is in range. -/
  float64Text : String → Option String

/-- The mappings on ASCII, with UTC as the local zone and literals kept as they are. -/
def Runtime.ascii : Runtime where
  toLower c := c.toLower
  toUpper c := c.toUpper
  fold c := c.toLower
  unixOfLocal s := s
  float64Text s := some s

/-- `utf8.RuneError`, which stands for what cannot be decoded. -/
def replacementChar : Char := Char.ofNat 0xFFFD

/-- `unicode.IsSpace`. -/
def isSpace (c : Char) : Bool :=
  c ∈ ['\t', '\n', Char.ofNat 0x0B, Char.ofNat 0x0C, '\r', ' ', Char.ofNat 0x85, Char.ofNat 0xA0,
    Char.ofNat 0x1680, Char.ofNat 0x2028, Char.ofNat 0x2029, Char.ofNat 0x202F, Char.ofNat 0x205F,
    Char.ofNat 0x3000] || (0x2000 ≤ c.toNat && c.toNat ≤ 0x200A)

theorem isSpace_visible {c : Char} (hlow : 0x20 < c.toNat) (hhigh : c.toNat < 0x7F) :
    isSpace c = false := by
  have hne : ∀ w : Char, w.toNat ≤ 0x20 ∨ 0x7F ≤ w.toNat → c ≠ w := by
    intro w hw hcw
    subst hcw
    omega
  have hrange : ¬ 0x2000 ≤ c.toNat := by omega
  simp only [isSpace, List.mem_cons, List.not_mem_nil, or_false, Bool.or_eq_false_iff,
    decide_eq_false_iff_not, not_or, Bool.and_eq_false_iff]
  refine ⟨⟨?_, ?_, ?_, ?_, ?_, ?_, ?_, ?_, ?_, ?_, ?_, ?_, ?_, ?_⟩, Or.inl hrange⟩
  all_goals exact hne _ (by decide)

def isDigit (c : Char) : Bool := '0' ≤ c && c ≤ '9'

def digitValue (c : Char) : Nat := c.toNat - '0'.toNat

theorem isDigit_range {c : Char} (h : isDigit c = true) : 48 ≤ c.toNat ∧ c.toNat ≤ 57 := by
  simp only [isDigit, Bool.and_eq_true, decide_eq_true_eq, Char.le_def, UInt32.le_iff_toNat_le] at h
  exact h

theorem isSpace_of_isDigit {c : Char} (h : isDigit c = true) : isSpace c = false := by
  obtain ⟨hlow, hhigh⟩ := isDigit_range h
  exact isSpace_visible (by omega) (by omega)

def trimLeft (cs : List Char) : List Char := cs.dropWhile isSpace

def trimChars (cs : List Char) : List Char := (trimLeft (trimLeft cs).reverse).reverse

/-- `strings.TrimSpace`. -/
def trimSpace (s : String) : String := String.ofList (trimChars s.toList)

theorem trimLeft_eq_self {cs : List Char} (h : ∀ c ∈ cs.head?, isSpace c = false) :
    trimLeft cs = cs := by
  cases cs with
  | nil => rfl
  | cons c cs => exact List.dropWhile_cons_of_neg (by rw [h c rfl]; decide)

theorem trimSpace_eq_self {cs : List Char} (hfirst : ∀ c ∈ cs.head?, isSpace c = false)
    (hlast : ∀ c ∈ cs.getLast?, isSpace c = false) :
    trimSpace (String.ofList cs) = String.ofList cs := by
  have hback : ∀ c ∈ cs.reverse.head?, isSpace c = false := by
    rwa [List.head?_reverse]
  rw [trimSpace, String.toList_ofList, trimChars, trimLeft_eq_self hfirst, trimLeft_eq_self hback,
    List.reverse_reverse]

/-- `strings.HasPrefix`. -/
def startsWith (s part : String) : Bool := part.toList.isPrefixOf s.toList

/-- `strings.HasSuffix`. -/
def endsWith (s part : String) : Bool := part.toList.isSuffixOf s.toList

/-- `strings.Contains`. -/
def contains (s part : String) : Bool := s.toList.tails.any part.toList.isPrefixOf

theorem contains_iff {s part : String} : contains s part = true ↔ part.toList <:+: s.toList := by
  unfold contains
  rw [List.any_eq_true]
  constructor
  · rintro ⟨tail, htail, hprefix⟩
    obtain ⟨before, hbefore⟩ := (List.mem_tails _ _).mp htail
    obtain ⟨after, hafter⟩ := List.isPrefixOf_iff_prefix.mp hprefix
    exact ⟨before, after, by rw [← hbefore, ← hafter, List.append_assoc]⟩
  · rintro ⟨before, after, heq⟩
    refine ⟨part.toList ++ after, (List.mem_tails _ _).mpr ⟨before, ?_⟩, ?_⟩
    · rw [← heq, List.append_assoc]
    · exact List.isPrefixOf_iff_prefix.mpr (List.prefix_append _ _)

/-- `len` of a string: its bytes. -/
def byteLen (s : String) : Nat := s.utf8ByteSize

theorem byteLen_cons (c : Char) (cs : List Char) :
    byteLen (String.ofList (c :: cs)) = c.utf8Size + byteLen (String.ofList cs) := by
  rw [byteLen, String.ofList_cons, String.utf8ByteSize_append, String.utf8ByteSize_singleton]
  rfl

section Runtime

variable (rt : Runtime)

/-- `strings.ToLower`. -/
def toLower (s : String) : String := String.ofList (s.toList.map rt.toLower)

/-- `strings.ToUpper`. -/
def toUpper (s : String) : String := String.ofList (s.toList.map rt.toUpper)

/-- `strings.EqualFold`. -/
def equalFold (s t : String) : Bool := s.toList.map rt.fold == t.toList.map rt.fold

end Runtime

/-- The digits of `strconv.Atoi`; `int` is unbounded here. -/
def digitsValue : List Char → Option Nat
  | [] => none
  | cs => if cs.all isDigit then some (Nat.ofDigitChars 10 cs 0) else none

/-- `strconv.Atoi`: an optional sign and decimal digits. -/
def atoi (s : String) : Option Int :=
  match s.toList with
  | '-' :: cs => (digitsValue cs).map fun n => -(n : Int)
  | '+' :: cs => (digitsValue cs).map Int.ofNat
  | cs => (digitsValue cs).map Int.ofNat

theorem isDigit_of_mem_toDigits {n : Nat} {c : Char} (h : c ∈ Nat.toDigits 10 n) :
    isDigit c = true := by
  have hd := Nat.isDigit_of_mem_toDigits (by omega) (by omega) h
  simpa [isDigit, Char.isDigit, Char.le_def] using hd

theorem digitsValue_toDigits (n : Nat) : digitsValue (Nat.toDigits 10 n) = some n := by
  have hne : Nat.toDigits 10 n ≠ [] := Nat.toDigits_ne_nil
  have hall : ∀ c ∈ Nat.toDigits 10 n, isDigit c = true := fun c hc => isDigit_of_mem_toDigits hc
  cases hd : Nat.toDigits 10 n with
  | nil => exact absurd hd hne
  | cons c cs =>
      have hall' : (c :: cs).all isDigit = true := List.all_eq_true.mpr (hd ▸ hall)
      rw [digitsValue, if_pos hall', ← hd, Nat.ofDigitChars_ten_toDigits]
      simp

/-- Reading back a decimal text gives the number. -/
theorem atoi_repr (n : Nat) : atoi (Nat.repr n) = some (n : Int) := by
  have hall : ∀ c ∈ Nat.toDigits 10 n, isDigit c = true := fun c hc => isDigit_of_mem_toDigits hc
  rw [atoi, Nat.repr, String.toList_ofList]
  split
  next cs heq =>
    have := hall '-' (heq ▸ List.mem_cons_self)
    exact absurd this (by decide)
  next cs heq =>
    have := hall '+' (heq ▸ List.mem_cons_self)
    exact absurd this (by decide)
  next =>
    rw [digitsValue_toDigits]
    rfl

/-- What `bufio.Scanner` yields line by line, and whether it stopped with an error. -/
structure Scan where
  lines : List String
  failed : Bool
  deriving Repr, DecidableEq

/-- The scanner's buffer: a line that fills it is too long. -/
def maxScanTokenSize : Nat := 1024 * 1024

/-- `bufio.ScanLines` drops one carriage return at the end of a line. -/
def dropCR (cs : List Char) : List Char :=
  match cs.reverse with
  | '\r' :: rest => rest.reverse
  | _ => cs

/-- The lines up to the first that is too long. -/
def scanUpTo : List (List Char) → Scan
  | [] => ⟨[], false⟩
  | cs :: rest =>
      if maxScanTokenSize ≤ (String.ofList cs).utf8ByteSize then ⟨[], true⟩
      else
        let tail := scanUpTo rest
        ⟨String.ofList (dropCR cs) :: tail.lines, tail.failed⟩

/-- The lines of a text; an empty last line is not yielded. -/
def splitLines (text : String) : List (List Char) :=
  let parts := text.toList.splitOn '\n'
  if parts.getLast? = some [] then parts.dropLast else parts

/-- Scanning a text whose reader ends, or fails when `broken`. -/
def scanLines (text : String) (broken : Bool) : Scan :=
  let scan := scanUpTo (splitLines text)
  ⟨scan.lines, scan.failed || broken⟩

instance instOrderBot : OrderBot String where
  bot := ""
  bot_le s := not_lt.mp fun h : s < "" => List.not_lt_nil s.toList h

end NestGateway.Text
