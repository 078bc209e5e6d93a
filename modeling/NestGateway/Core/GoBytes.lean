import Mathlib.Algebra.Ring.Nat
import Mathlib.Data.List.DropRight
import NestGateway.Core.FixedWidth

/-! # Go strings as bytes

The functions of `strings`, `io`, `bufio` and `encoding/binary` that work on the
bytes of a string, whatever characters they encode.
-/

namespace NestGateway.GoBytes

abbrev Bytes := List UInt8

def newline : UInt8 := 10

def carriageReturn : UInt8 := 13

def blank : UInt8 := 32

def comma : UInt8 := 44

/-- The bytes of characters of ASCII. -/
def ascii (cs : List Char) : Bytes := cs.map fun c => UInt8.ofNat c.toNat

/-- `strings.TrimRight` with one byte in its cutset. -/
def trimRight (b : UInt8) (s : Bytes) : Bytes := s.rdropWhile (· == b)

/-- `strings.IndexByte` -/
def indexByte (s : Bytes) (c : UInt8) : Int :=
  match s.findIdx? (· == c) with
  | none => -1
  | some i => i

/-- `s[:n]`, none when it is out of range. -/
def slice (s : Bytes) (n : Nat) : Option Bytes := if n ≤ s.length then some (s.take n) else none

theorem indexByte_append {s : Bytes} {c : UInt8} (h : c ∉ s) (rest : Bytes) :
    indexByte (s ++ c :: rest) c = s.length := by
  have hnone : s.findIdx? (· == c) = none := by
    rw [List.findIdx?_eq_none_iff]
    intro b hb
    exact beq_eq_false_iff_ne.mpr fun heq => h (heq ▸ hb)
  rw [indexByte, List.findIdx?_append, hnone, List.findIdx?_cons, beq_self_eq_true, if_pos rfl]
  simp

theorem not_mem_ascii_fixed {b : UInt8} (h : b.toNat < 48) (w n : Nat) :
    b ∉ ascii (FixedWidth.fixed w n) := by
  intro hb
  obtain ⟨c, hc, hbyte⟩ := List.mem_map.mp hb
  have hdigit := FixedWidth.isDigit_of_mem_fixed hc
  simp only [Text.isDigit, Bool.and_eq_true, decide_eq_true_eq, Char.le_def,
    UInt32.le_iff_toNat_le] at hdigit
  have hlow : 48 ≤ c.toNat := hdigit.1
  have hhigh : c.toNat ≤ 57 := hdigit.2
  rw [← hbyte, UInt8.toNat_ofNat'] at h
  omega

def filledLines (s : Bytes) : List Bytes := (s.splitOn newline).filter (· ≠ [])

theorem filledLines_append_newline (s : Bytes) : filledLines (s ++ [newline]) = filledLines s := by
  rw [filledLines, List.splitOn_append_cons_self, List.filter_append]
  simp [filledLines]

theorem filledLines_trimRight (s : Bytes) : filledLines (trimRight newline s) = filledLines s := by
  induction s using List.reverseRecOn with
  | nil => rfl
  | append_singleton s b ih =>
      rw [trimRight]
      by_cases hb : b = newline
      · rw [List.rdropWhile_concat_pos _ _ _ (by simp [hb]), hb, filledLines_append_newline]
        exact ih
      · rw [List.rdropWhile_concat_neg _ _ _ (by simp [hb])]

/-- `io.ReadFull`: exactly so many bytes and what follows them, or an error. -/
def readFull (n : Nat) (reader : Bytes) : Option (Bytes × Bytes) :=
  if n ≤ reader.length then some (reader.take n, reader.drop n) else none

theorem readFull_append (s reader : Bytes) :
    readFull s.length (s ++ reader) = some (s, reader) := by
  rw [readFull, if_pos (by simp), List.take_left, List.drop_left]

/-- `binary.BigEndian.Uint32` -/
def uint32 (s : Bytes) : Nat := s.foldl (fun n b => 256 * n + b.toNat) 0

/-- `binary.BigEndian.PutUint32` -/
def putUint32 (n : Nat) : Bytes :=
  [UInt8.ofNat (n / 2 ^ 24), UInt8.ofNat (n / 2 ^ 16), UInt8.ofNat (n / 2 ^ 8), UInt8.ofNat n]

theorem uint32_putUint32 {n : Nat} (h : n < 2 ^ 32) : uint32 (putUint32 n) = n := by
  simp only [uint32, putUint32, List.foldl_cons, List.foldl_nil, UInt8.toNat_ofNat']
  omega

theorem uint32_lt (a b c d : UInt8) : uint32 [a, b, c, d] < 2 ^ 32 := by
  have ha := a.toNat_lt
  have hb := b.toNat_lt
  have hc := c.toNat_lt
  have hd := d.toNat_lt
  simp only [uint32, List.foldl_cons, List.foldl_nil]
  omega

theorem putUint32_uint32 (a b c d : UInt8) : putUint32 (uint32 [a, b, c, d]) = [a, b, c, d] := by
  have ha := a.toNat_lt
  have hb := b.toNat_lt
  have hc := c.toNat_lt
  have hd := d.toNat_lt
  simp only [putUint32, uint32, List.foldl_cons, List.foldl_nil, List.cons.injEq, and_true,
    ← UInt8.toNat_inj, UInt8.toNat_ofNat']
  omega

/-- `bufio.MaxScanTokenSize` -/
def maxScanTokenSize : Nat := 64 * 1024

/-- A line without a carriage return at its end. -/
def dropCR (line : Bytes) : Bytes :=
  if line.getLast? = some carriageReturn then line.dropLast else line

/-- `scanner.Scan()` with the default buffer and split function: the next line and what follows
it, none at the end or when the line fills the buffer. -/
def scan (reader : Bytes) : Option (Bytes × Bytes) :=
  let line := reader.takeWhile (· ≠ newline)
  if reader = [] ∨ maxScanTokenSize ≤ line.length then none
  else some (dropCR line, reader.drop (line.length + 1))

/-- The lines of a stream as they stand in it, an empty rest at the end being none. -/
def rawLines (reader : Bytes) : List Bytes :=
  let parts := reader.splitOn newline
  if parts.getLast? = some [] then parts.dropLast else parts

theorem rawLines_nil : rawLines [] = [] := rfl

theorem rawLines_cons {line reader : Bytes} (h : newline ∉ line) :
    rawLines (line ++ newline :: reader) = line :: rawLines reader := by
  have hparts := List.splitOn_ne_nil newline reader
  rw [rawLines, List.splitOn_append_cons_self_of_not_mem h, rawLines]
  rw [List.getLast?_cons_of_ne_nil hparts, List.dropLast_cons_of_ne_nil hparts]
  split <;> rfl

theorem rawLines_singleton {line : Bytes} (h : newline ∉ line) (hne : line ≠ []) :
    rawLines line = [line] := by
  rw [rawLines, List.splitOn_eq_singleton h]
  rw [if_neg (by simpa using hne)]

/-- A stream that is not over begins with a line. -/
theorem reader_cases {reader : Bytes} (h : reader ≠ []) :
    ∃ line rest, newline ∉ line ∧ (reader = line ++ newline :: rest ∨
      reader = line ∧ rest = [] ∧ line ≠ []) := by
  have hsplit := List.takeWhile_append_dropWhile (p := (· ≠ newline)) (l := reader)
  refine ⟨reader.takeWhile (· ≠ newline), (reader.dropWhile (· ≠ newline)).tail, ?_, ?_⟩
  · intro hmem
    simpa using List.mem_takeWhile_imp hmem
  · cases hrest : reader.dropWhile (· ≠ newline) with
    | nil =>
        rw [hrest, List.append_nil] at hsplit
        exact Or.inr ⟨hsplit.symm, rfl, by rwa [hsplit]⟩
    | cons b rest =>
        have hb := List.head?_dropWhile_not (· ≠ newline) reader
        rw [hrest] at hb
        have hnew : b = newline := by simpa using hb
        rw [hrest, hnew] at hsplit
        exact Or.inl hsplit.symm

theorem takeWhile_line {line : Bytes} (h : newline ∉ line) (rest : Bytes) :
    (line ++ newline :: rest).takeWhile (· ≠ newline) = line := by
  have hall : ∀ b ∈ line, decide (b ≠ newline) = true := by
    intro b hb
    exact decide_eq_true fun heq => h (heq ▸ hb)
  rw [List.takeWhile_append_of_pos hall]
  simp

theorem takeWhile_last {line : Bytes} (h : newline ∉ line) :
    line.takeWhile (· ≠ newline) = line := by
  rw [List.takeWhile_eq_self_iff]
  intro b hb
  exact decide_eq_true fun heq => h (heq ▸ hb)

theorem scan_line {line : Bytes} (h : newline ∉ line) (rest : Bytes) :
    scan (line ++ newline :: rest) =
      if maxScanTokenSize ≤ line.length then none else some (dropCR line, rest) := by
  have hdrop : (line ++ newline :: rest).drop (line.length + 1) = rest := by
    rw [← List.drop_drop, List.drop_left, List.drop_one, List.tail_cons]
  rw [scan, takeWhile_line h, hdrop]
  simp

theorem scan_last {line : Bytes} (h : newline ∉ line) (hne : line ≠ []) :
    scan line = if maxScanTokenSize ≤ line.length then none else some (dropCR line, []) := by
  have hdrop : line.drop (line.length + 1) = [] := List.drop_eq_nil_of_le (Nat.le_succ _)
  rw [scan, takeWhile_last h, hdrop]
  simp [hne]

end NestGateway.GoBytes
