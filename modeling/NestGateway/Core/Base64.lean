import Mathlib.Data.List.Basic

/-! # Base64

Bytes as a text of 64 characters, without padding and with the two characters of
the URL alphabet, and the decoder of browsers, which ignores white space and
takes padding or none.
-/

namespace NestGateway.Base64

/-- The values of the digits of some bytes. -/
def sextets : List UInt8 → List Nat
  | [] => []
  | [a] => [a.toNat / 4, a.toNat % 4 * 16]
  | [a, b] => [a.toNat / 4, a.toNat % 4 * 16 + b.toNat / 16, b.toNat % 16 * 4]
  | a :: b :: c :: rest =>
      a.toNat / 4 :: (a.toNat % 4 * 16 + b.toNat / 16) :: (b.toNat % 16 * 4 + c.toNat / 64) ::
        c.toNat % 64 :: sextets rest

/-- The bytes of some digits; bits that are left over are dropped. -/
def octets : List Nat → List UInt8
  | w :: x :: y :: z :: rest =>
      .ofNat (w * 4 + x / 16) :: .ofNat (x % 16 * 16 + y / 4) :: .ofNat (y % 4 * 64 + z) ::
        octets rest
  | [w, x, y] => [.ofNat (w * 4 + x / 16), .ofNat (x % 16 * 16 + y / 4)]
  | [w, x] => [.ofNat (w * 4 + x / 16)]
  | _ => []

theorem ofNat_eq {n : Nat} {a : UInt8} (h : n = a.toNat) : UInt8.ofNat n = a := by
  rw [h, UInt8.ofNat_toNat]

theorem octets_sextets (bytes : List UInt8) : octets (sextets bytes) = bytes := by
  fun_induction sextets bytes with
  | case1 => rfl
  | case2 a =>
      have ha := a.toNat_lt
      simp only [octets, List.cons.injEq, and_true]
      exact ofNat_eq (by omega)
  | case3 a b =>
      have ha := a.toNat_lt
      have hb := b.toNat_lt
      simp only [octets, List.cons.injEq, and_true]
      exact ⟨ofNat_eq (by omega), ofNat_eq (by omega)⟩
  | case4 a b c rest ih =>
      have ha := a.toNat_lt
      have hb := b.toNat_lt
      have hc := c.toNat_lt
      simp only [octets, List.cons.injEq, ih, and_true]
      exact ⟨ofNat_eq (by omega), ofNat_eq (by omega), ofNat_eq (by omega)⟩

theorem sextets_lt {bytes : List UInt8} {n : Nat} (h : n ∈ sextets bytes) : n < 64 := by
  fun_induction sextets bytes with
  | case1 => cases h
  | case2 a =>
      have ha := a.toNat_lt
      simp only [List.mem_cons, List.not_mem_nil, or_false] at h
      omega
  | case3 a b =>
      have ha := a.toNat_lt
      have hb := b.toNat_lt
      simp only [List.mem_cons, List.not_mem_nil, or_false] at h
      omega
  | case4 a b c rest ih =>
      have ha := a.toNat_lt
      have hb := b.toNat_lt
      have hc := c.toNat_lt
      simp only [List.mem_cons] at h
      rcases h with h | h | h | h | h
      · omega
      · omega
      · omega
      · omega
      · exact ih h

theorem length_sextets (bytes : List UInt8) : (sextets bytes).length % 4 ≠ 1 := by
  fun_induction sextets bytes with
  | case1 => decide
  | case2 => simp
  | case3 => simp
  | case4 a b c rest ih =>
      simp only [List.length_cons]
      omega

def alphabet : List Char :=
  "ABCDEFGHIJKLMNOPQRSTUVWXYZabcdefghijklmnopqrstuvwxyz0123456789+/".toList

def urlAlphabet : List Char :=
  "ABCDEFGHIJKLMNOPQRSTUVWXYZabcdefghijklmnopqrstuvwxyz0123456789-_".toList

def digit (n : Nat) : Char := (alphabet[n]?).getD '/'

def urlDigit (n : Nat) : Char := (urlAlphabet[n]?).getD '_'

/-- The text in the URL alphabet. -/
def encodeUrl (bytes : List UInt8) : List Char := (sextets bytes).map urlDigit

def isAsciiSpace (c : Char) : Bool := c ∈ ['\t', '\n', Char.ofNat 12, '\r', ' ']

/-- At most two padding characters are dropped. -/
def dropPadding (text : List Char) : List Char :=
  match text.reverse with
  | '=' :: '=' :: rest => rest.reverse
  | '=' :: rest => rest.reverse
  | _ => text

def digitValue (c : Char) : Option Nat := alphabet.findIdx? (· = c)

/-- `atob`; none when it throws. -/
def atob (text : List Char) : Option (List UInt8) :=
  let text := text.filter fun c => !isAsciiSpace c
  let text := if text.length % 4 = 0 then dropPadding text else text
  if text.length % 4 = 1 then none else (text.mapM digitValue).map octets

set_option maxRecDepth 2000 in
theorem digit_spec {n : Nat} (h : n < 64) : isAsciiSpace (digit n) = false ∧ digit n ≠ '=' ∧
    digitValue (digit n) = some n := by
  have hall : ∀ n < 64, isAsciiSpace (digit n) = false ∧ digit n ≠ '=' ∧
      digitValue (digit n) = some n := by
    decide
  exact hall n h

set_option maxRecDepth 2000 in
theorem urlDigit_spec {n : Nat} (h : n < 64) : urlDigit n ≠ '.' ∧
    (if urlDigit n = '-' then '+' else if urlDigit n = '_' then '/' else urlDigit n) = digit n := by
  have hall : ∀ n < 64, urlDigit n ≠ '.' ∧
      (if urlDigit n = '-' then '+' else if urlDigit n = '_' then '/' else urlDigit n) =
        digit n := by
    decide
  exact hall n h

theorem dropPadding_none {text : List Char} (h : '=' ∉ text) : dropPadding text = text := by
  unfold dropPadding
  split
  next heq => exact absurd (List.mem_reverse.mp (heq ▸ List.mem_cons_self)) h
  next heq => exact absurd (List.mem_reverse.mp (heq ▸ List.mem_cons_self)) h
  next => rfl

theorem mapM_digitValue {digits : List Nat} (h : ∀ n ∈ digits, n < 64) :
    (digits.map digit).mapM digitValue = some digits := by
  induction digits with
  | nil => rfl
  | cons n digits ih =>
      rw [List.map_cons, List.mapM_cons, (digit_spec (h n List.mem_cons_self)).2.2,
        ih fun m hm => h m (List.mem_cons_of_mem n hm)]
      rfl

/-- The decoder reads what was encoded, once the URL characters are replaced. -/
theorem atob_digits (bytes : List UInt8) : atob ((sextets bytes).map digit) = some bytes := by
  have hlt : ∀ n ∈ sextets bytes, n < 64 := fun _ => sextets_lt
  have hfilter : ((sextets bytes).map digit).filter (fun c => !isAsciiSpace c) =
      (sextets bytes).map digit := by
    refine List.filter_eq_self.mpr fun c hc => ?_
    obtain ⟨n, hn, rfl⟩ := List.mem_map.mp hc
    rw [(digit_spec (hlt n hn)).1]
    rfl
  have hpadding : dropPadding ((sextets bytes).map digit) = (sextets bytes).map digit := by
    refine dropPadding_none fun hmem => ?_
    obtain ⟨n, hn, heq⟩ := List.mem_map.mp hmem
    exact (digit_spec (hlt n hn)).2.1 heq
  unfold atob
  dsimp only
  rw [hfilter, hpadding, ite_self, List.length_map, if_neg (length_sextets bytes),
    mapM_digitValue hlt, Option.map_some, octets_sextets]

/-- Every `-` is replaced by `+` and every `_` by `/`. -/
def fromUrl (text : List Char) : List Char :=
  (text.map fun c => if c = '-' then '+' else c).map fun c => if c = '_' then '/' else c

theorem fromUrl_encodeUrl (bytes : List UInt8) :
    fromUrl (encodeUrl bytes) = (sextets bytes).map digit := by
  unfold fromUrl encodeUrl
  rw [List.map_map, List.map_map]
  refine List.map_congr_left fun n hn => ?_
  have hspec := (urlDigit_spec (sextets_lt hn)).2
  rw [← hspec]
  show (if (if urlDigit n = '-' then '+' else urlDigit n) = '_' then '/' else
    if urlDigit n = '-' then '+' else urlDigit n) = _
  split <;> simp_all

theorem atob_fromUrl (bytes : List UInt8) : atob (fromUrl (encodeUrl bytes)) = some bytes := by
  rw [fromUrl_encodeUrl, atob_digits]

theorem dot_not_mem_encodeUrl (bytes : List UInt8) : '.' ∉ encodeUrl bytes := by
  intro hmem
  obtain ⟨n, hn, heq⟩ := List.mem_map.mp hmem
  exact (urlDigit_spec (sextets_lt hn)).1 heq

end NestGateway.Base64
