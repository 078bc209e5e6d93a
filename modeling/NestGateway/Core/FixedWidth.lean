import Mathlib.Algebra.Ring.Nat
import Mathlib.Data.List.Induction
import NestGateway.Core.CivilText

/-! # Decimal numbers of a fixed width

A number written with a given count of digits, zeros in front. Such texts read
back as the number and are ordered as the numbers are, whatever follows them.
-/

namespace NestGateway.FixedWidth

open Text

/-- The last `w` digits of a number. -/
def fixed : Nat → Nat → List Char
  | 0, _ => []
  | w + 1, n => fixed w (n / 10) ++ [Nat.digitChar (n % 10)]

/-- Fill a text up with zeros in front. -/
def zeroPad (w : Nat) (cs : List Char) : List Char := List.replicate (w - cs.length) '0' ++ cs

@[simp] theorem length_fixed (w n : Nat) : (fixed w n).length = w := by
  induction w generalizing n with
  | zero => rfl
  | succ w ih => rw [fixed, List.length_append, ih, List.length_singleton]

theorem isDigit_of_mem_fixed {w n : Nat} {c : Char} (h : c ∈ fixed w n) : isDigit c = true := by
  induction w generalizing n with
  | zero => cases h
  | succ w ih =>
      rcases List.mem_append.mp h with h | h
      · exact ih h
      · rw [List.mem_singleton.mp h]
        exact GoTime.isDigit_digitChar (Nat.mod_lt n (by decide))

theorem ofDigitChars_fixed {w n : Nat} (h : n < 10 ^ w) :
    Nat.ofDigitChars 10 (fixed w n) 0 = n := by
  induction w generalizing n with
  | zero =>
      rw [Nat.lt_one_iff.mp h]
      rfl
  | succ w ih =>
      have hfront : n / 10 < 10 ^ w := by
        rw [Nat.pow_succ] at h
        omega
      rw [fixed, Nat.ofDigitChars_append, ih hfront,
        Nat.ofDigitChars_cons_digitChar_of_lt_ten (Nat.mod_lt n (by decide)), Nat.ofDigitChars_nil]
      omega

theorem exists_fixed {cs : List Char} (h : ∀ c ∈ cs, isDigit c = true) :
    ∃ n < 10 ^ cs.length, cs = fixed cs.length n := by
  induction cs using List.reverseRecOn with
  | nil => exact ⟨0, Nat.one_pos, rfl⟩
  | append_singleton cs c ih =>
      obtain ⟨n, hn, hcs⟩ := ih fun d hd => h d (List.mem_append_left _ hd)
      obtain ⟨d, hd, rfl⟩ : ∃ d < 10, c = Nat.digitChar d := by
        have hrange := isDigit_range (h c (List.mem_append_right _ List.mem_cons_self))
        have hall : ∀ d < 10, (Nat.digitChar d).toNat = 48 + d := by decide
        refine ⟨c.toNat - 48, by omega, Char.toNat_inj.mp ?_⟩
        rw [hall _ (by omega)]
        omega
      refine ⟨n * 10 + d, ?_, ?_⟩
      · rw [List.length_append, List.length_singleton, Nat.pow_succ]
        omega
      · rw [List.length_append, List.length_singleton, fixed]
        have hfront : (n * 10 + d) / 10 = n := by omega
        have hlast : (n * 10 + d) % 10 = d := by omega
        rw [hfront, hlast, ← hcs]

theorem fixed_zero (w : Nat) : fixed w 0 = List.replicate w '0' := by
  induction w with
  | zero => rfl
  | succ w ih =>
      rw [fixed, Nat.zero_div, ih, List.replicate_succ']
      rfl

theorem zeroPad_concat (w : Nat) (cs : List Char) (c : Char) :
    zeroPad (w + 1) (cs ++ [c]) = zeroPad w cs ++ [c] := by
  rw [zeroPad, zeroPad, List.length_append, List.length_singleton, Nat.add_sub_add_right,
    List.append_assoc]

theorem zeroPad_toDigits {w n : Nat} (hw : 0 < w) (h : n < 10 ^ w) :
    zeroPad w (Nat.toDigits 10 n) = fixed w n := by
  induction w generalizing n with
  | zero => exact absurd hw (Nat.lt_irrefl 0)
  | succ w ih =>
      by_cases hn : n < 10
      · rw [Nat.toDigits_of_lt_base hn, fixed, Nat.div_eq_of_lt hn, Nat.mod_eq_of_lt hn,
          fixed_zero]
        rfl
      · have hfront : n / 10 < 10 ^ w := by
          rw [Nat.pow_succ] at h
          omega
        have hpos : 0 < w := by
          refine Nat.pos_of_ne_zero fun hzero => ?_
          rw [hzero] at h
          exact hn h
        rw [Nat.toDigits_of_base_le (by decide) (not_lt.mp hn), zeroPad_concat, ih hpos hfront,
          fixed]

theorem toDigits_eq_fixed {w n : Nat} (hlow : 10 ^ w ≤ n) (hhigh : n < 10 ^ (w + 1)) :
    Nat.toDigits 10 n = fixed (w + 1) n := by
  have hlen : w + 1 ≤ (Nat.toDigits 10 n).length := by
    cases w with
    | zero => exact Nat.length_toDigits_pos
    | succ w =>
        have hnot := mt (Nat.length_toDigits_le_iff (by decide) (Nat.succ_pos w)).mp
          (not_lt.mpr hlow)
        omega
  rw [← zeroPad_toDigits (Nat.succ_pos w) hhigh, zeroPad, Nat.sub_eq_zero_of_le hlen,
    List.replicate_zero, List.nil_append]

theorem digitChar_lt {m n : Nat} (hn : n < 10) (h : m < n) :
    Nat.digitChar m < Nat.digitChar n := by
  have hall : ∀ n < 10, ∀ m < n, Nat.digitChar m < Nat.digitChar n := by decide
  exact hall n hn m h

theorem fixed_append_lt {w m n : Nat} (hn : n < 10 ^ w) (h : m < n) (cs ds : List Char) :
    fixed w m ++ cs < fixed w n ++ ds := by
  induction w generalizing m n cs ds with
  | zero =>
      rw [Nat.lt_one_iff.mp hn] at h
      cases h
  | succ w ih =>
      rw [fixed, fixed, List.append_assoc, List.append_assoc]
      rcases Nat.lt_or_ge (m / 10) (n / 10) with hfront | hfront
      · rw [Nat.pow_succ] at hn
        exact ih (by omega) hfront _ _
      · have hsame : m / 10 = n / 10 := by omega
        rw [hsame]
        refine List.append_left_lt (List.Lex.rel ?_)
        exact digitChar_lt (Nat.mod_lt n (by decide)) (by omega)

/-- Numbers written one after the other, each with its width and with what stands behind it. -/
def render : List (Nat × List Char) → List Nat → List Char
  | (w, sep) :: layout, n :: ns => fixed w n ++ (sep ++ render layout ns)
  | _, _ => []

/-- Each number has room in its width. -/
def Fits (layout : List (Nat × List Char)) (ns : List Nat) : Prop :=
  List.Forall₂ (fun part n => n < 10 ^ part.1) layout ns

/-- Texts of one layout are ordered as the lists of their numbers. -/
theorem render_lt {layout : List (Nat × List Char)} {ms ns : List Nat} (hms : Fits layout ms)
    (hns : Fits layout ns) (h : ms < ns) : render layout ms < render layout ns := by
  induction hms generalizing ns with
  | nil =>
      cases hns
      exact absurd h (List.lt_irrefl [])
  | @cons part m layout ms hm hms ih =>
      cases hns with
      | cons hn hns =>
          rw [render, render]
          cases h with
          | rel h => exact fixed_append_lt hn h _ _
          | cons h => exact List.append_left_lt (List.append_left_lt (ih hns h))

end NestGateway.FixedWidth
