import Mathlib.Data.List.DropRight
import NestGateway.Core.Text

/-! # JavaScript strings

Which texts count as true, `String.prototype.trim` and the conversions between
numbers and decimal texts.
-/

namespace NestGateway.JsString

/-- A text that is neither missing nor empty. -/
def truthy (value : Option String) : Option String := value.filter (· ≠ "")

theorem truthy_none : truthy none = none := rfl

theorem truthy_empty : truthy (some "") = none := rfl

theorem truthy_eq_some {value : Option String} {text : String} :
    truthy value = some text ↔ value = some text ∧ text ≠ "" := by
  unfold truthy
  rw [Option.filter_eq_some_iff]
  simp

theorem truthy_of_ne {text : String} (h : text ≠ "") : truthy (some text) = some text :=
  truthy_eq_some.mpr ⟨rfl, h⟩

theorem isSome_truthy {value : Option String} :
    (truthy value).isSome = true ↔ ∃ text, value = some text ∧ text ≠ "" := by
  simp only [Option.isSome_iff_exists, truthy_eq_some]

theorem getD_truthy (value : Option String) : (truthy value).getD "" = value.getD "" := by
  cases value with
  | none => rfl
  | some text =>
      by_cases hempty : text = ""
      · rw [hempty, truthy_empty]
        rfl
      · rw [truthy_of_ne hempty]

/-- The white space and line terminators of ECMAScript. -/
def isWhiteSpace (c : Char) : Bool :=
  c ∈ ['\t', '\n', Char.ofNat 0x0B, Char.ofNat 0x0C, '\r', ' ', Char.ofNat 0xA0,
    Char.ofNat 0x1680, Char.ofNat 0x2028, Char.ofNat 0x2029, Char.ofNat 0x202F, Char.ofNat 0x205F,
    Char.ofNat 0x3000, Char.ofNat 0xFEFF] || (0x2000 ≤ c.toNat && c.toNat ≤ 0x200A)

def trimStart (cs : List Char) : List Char := cs.dropWhile isWhiteSpace

/-- `value.trim()`. -/
def trim (s : String) : String := String.ofList (trimStart (trimStart s.toList).reverse).reverse

/-- `value.length`: a character outside the basic plane has two units. -/
def length (s : String) : Nat :=
  s.toList.foldl (fun n c => n + if c.toNat < 0x10000 then 1 else 2) 0

def charUnits (c : Char) : List UInt16 :=
  if c.toNat < 0x10000 then [UInt16.ofNat c.toNat]
  else [UInt16.ofNat (0xD800 + (c.toNat - 0x10000) / 0x400),
    UInt16.ofNat (0xDC00 + (c.toNat - 0x10000) % 0x400)]

def units (s : String) : List UInt16 := s.toList.flatMap charUnits

def isWhiteSpaceUnit (u : UInt16) : Bool :=
  u ∈ [0x09, 0x0A, 0x0B, 0x0C, 0x0D, 0x20, 0xA0, 0x1680, 0x2028, 0x2029, 0x202F, 0x205F, 0x3000,
    0xFEFF] || (0x2000 ≤ u && u ≤ 0x200A)

/-- `value.trim()` of code units. -/
def trimUnits (us : List UInt16) : List UInt16 :=
  ((us.dropWhile isWhiteSpaceUnit).reverse.dropWhile isWhiteSpaceUnit).reverse

section Index

variable {α : Type} [DecidableEq α]

/-- The first position at which `query` begins. -/
def firstIndex (query : List α) : List α → Option Nat
  | [] => if query = [] then some 0 else none
  | c :: cs => if query.isPrefixOf (c :: cs) then some 0 else (firstIndex query cs).map (· + 1)

/-- `text.indexOf(query, pos)`, none for -1. -/
def indexOf (text query : List α) (pos : Nat) : Option Nat :=
  (firstIndex query (text.drop (min pos text.length))).map (min pos text.length + ·)

end Index

/-- `Number(value)` of a text that is white space or decimal digits. The other numeric literals
(signs, fractions, exponents, other bases) are `NaN` here: no key of a table is written so. -/
def number (s : String) : Option Nat :=
  if trim s = "" then some 0 else Text.digitsValue (trim s).toList

section Index

variable {α : Type} [DecidableEq α] {query : List α}

theorem firstIndex_none {text : List α} (hquery : query ≠ []) (h : firstIndex query text = none)
    (p : Nat) : ¬ query <+: text.drop p := by
  induction text generalizing p with
  | nil =>
      rw [List.drop_nil, List.prefix_nil]
      exact hquery
  | cons c cs ih =>
      rw [firstIndex] at h
      split at h
      · cases h
      next hc =>
        rw [Option.map_eq_none_iff] at h
        cases p with
        | zero => rwa [List.isPrefixOf_iff_prefix] at hc
        | succ p => exact ih h p

theorem firstIndex_some {text : List α} {p : Nat} (h : firstIndex query text = some p) :
    query <+: text.drop p ∧ ∀ q, query <+: text.drop q → p ≤ q := by
  induction text generalizing p with
  | nil =>
      rw [firstIndex] at h
      split at h
      next hquery =>
        obtain rfl := Option.some.inj h
        exact ⟨by rw [hquery]; exact List.nil_prefix, fun q _ => Nat.zero_le q⟩
      next => cases h
  | cons c cs ih =>
      rw [firstIndex] at h
      split at h
      next hc =>
        obtain rfl := Option.some.inj h
        exact ⟨List.isPrefixOf_iff_prefix.mp hc, fun q _ => Nat.zero_le q⟩
      next hc =>
        obtain ⟨p', hp', rfl⟩ := Option.map_eq_some_iff.mp h
        obtain ⟨hbegin, hfirst⟩ := ih hp'
        refine ⟨hbegin, fun q hq => ?_⟩
        cases q with
        | zero => exact absurd (List.isPrefixOf_iff_prefix.mpr hq) hc
        | succ q => exact Nat.succ_le_succ (hfirst q hq)

/-- Nothing is found where the text has nothing from the position on. -/
theorem indexOf_none {text : List α} {pos : Nat} (hquery : query ≠ [])
    (h : indexOf text query pos = none) (p : Nat) (hp : pos ≤ p) : ¬ query <+: text.drop p := by
  rw [indexOf, Option.map_eq_none_iff] at h
  have hno := firstIndex_none hquery h (p - min pos text.length)
  rw [List.drop_drop] at hno
  rwa [Nat.add_sub_cancel' (Nat.le_trans (Nat.min_le_left _ _) hp)] at hno

theorem indexOf_some {text : List α} {pos p : Nat} (hquery : query ≠ [])
    (h : indexOf text query pos = some p) :
    pos ≤ p ∧ query <+: text.drop p ∧ ∀ q, pos ≤ q → query <+: text.drop q → p ≤ q := by
  obtain ⟨p', hp', rfl⟩ := Option.map_eq_some_iff.mp h
  obtain ⟨hbegin, hfirst⟩ := firstIndex_some hp'
  rw [List.drop_drop] at hbegin
  have hlt : min pos text.length + p' < text.length := by
    by_contra hge
    rw [List.drop_eq_nil_of_le (by omega), List.prefix_nil] at hbegin
    exact hquery hbegin
  refine ⟨by omega, hbegin, fun q hq hprefix => ?_⟩
  have hle := hfirst (q - min pos text.length) (by
    rw [List.drop_drop, Nat.add_sub_cancel' (Nat.le_trans (Nat.min_le_left _ _) hq)]
    exact hprefix)
  omega

end Index

theorem length_units (s : String) : (units s).length = length s := by
  have hfold : ∀ (cs : List Char) (n : Nat), n + (cs.flatMap charUnits).length =
      cs.foldl (fun n c => n + if c.toNat < 0x10000 then 1 else 2) n := by
    intro cs
    induction cs with
    | nil => exact fun n => rfl
    | cons c cs ih =>
        intro n
        rw [List.flatMap_cons, List.length_append, List.foldl_cons, ← ih, ← Nat.add_assoc]
        unfold charUnits
        split <;> rfl
  unfold units length
  rw [← hfold, Nat.zero_add]

/-- A unit is the code of its character or one of a surrogate pair. -/
theorem toNat_unit {c : Char} {u : UInt16} (h : u ∈ charUnits c) :
    (u.toNat = c.toNat ∧ c.toNat < 0x10000) ∨
      (0xD800 ≤ u.toNat ∧ u.toNat < 0xE000 ∧ 0x10000 ≤ c.toNat) := by
  have hmax : c.toNat < 0x110000 := by
    rcases c.valid with hlow | ⟨_, hhigh⟩
    · exact Nat.lt_trans hlow (by decide)
    · exact hhigh
  unfold charUnits at h
  split at h
  next hc =>
    rw [List.mem_singleton] at h
    left
    rw [h, UInt16.toNat_ofNat_of_lt' hc]
    exact ⟨rfl, hc⟩
  next hc =>
    right
    rcases List.mem_cons.mp h with rfl | h
    · rw [UInt16.toNat_ofNat_of_lt' (by simp only [UInt16.size]; omega)]
      omega
    · rw [List.mem_singleton] at h
      rw [h, UInt16.toNat_ofNat_of_lt' (by simp only [UInt16.size]; omega)]
      omega

theorem charUnits_ne_nil (c : Char) : charUnits c ≠ [] := by
  unfold charUnits
  split <;> exact List.cons_ne_nil _ _

/-- A class of codes below the surrogates has a character when it has the units of it. -/
theorem unit_class (p : Nat → Prop) (hp : ∀ n, 0xD800 ≤ n → ¬ p n) {c : Char} {u : UInt16}
    (h : u ∈ charUnits c) : p u.toNat ↔ p c.toNat := by
  rcases toNat_unit h with ⟨hu, _⟩ | ⟨hlow, _, hc⟩
  · rw [hu]
  · exact iff_of_false (hp _ hlow) (hp _ (by omega))

theorem isWhiteSpace_of_isDigit {c : Char} (h : Text.isDigit c = true) :
    isWhiteSpace c = false := by
  simp only [Text.isDigit, Bool.and_eq_true, decide_eq_true_eq, Char.le_def, UInt32.le_iff_toNat_le]
    at h
  have hlow : 48 ≤ c.toNat := h.1
  have hhigh : c.toNat ≤ 57 := h.2
  have hne : ∀ w : Char, w.toNat < 48 ∨ 57 < w.toNat → c ≠ w := by
    intro w hw hcw
    subst hcw
    omega
  have hrange : ¬ 0x2000 ≤ c.toNat := by omega
  simp only [isWhiteSpace, List.mem_cons, List.not_mem_nil, or_false, Bool.or_eq_false_iff,
    decide_eq_false_iff_not, not_or, Bool.and_eq_false_iff]
  refine ⟨⟨?_, ?_, ?_, ?_, ?_, ?_, ?_, ?_, ?_, ?_, ?_, ?_, ?_, ?_⟩, Or.inl hrange⟩
  all_goals exact hne _ (by decide)

theorem trim_eq_self {cs : List Char} (hfirst : ∀ c ∈ cs.head?, isWhiteSpace c = false)
    (hlast : ∀ c ∈ cs.getLast?, isWhiteSpace c = false) :
    trim (String.ofList cs) = String.ofList cs := by
  have hstart : ∀ ds : List Char, (∀ c ∈ ds.head?, isWhiteSpace c = false) →
      trimStart ds = ds := by
    intro ds hds
    cases ds with
    | nil => rfl
    | cons d ds => exact List.dropWhile_cons_of_neg (by rw [hds d rfl]; decide)
  rw [trim, String.toList_ofList, hstart cs hfirst, hstart cs.reverse, List.reverse_reverse]
  rwa [List.head?_reverse]

theorem trim_of_digits {s : String} (h : ∀ c ∈ s.toList, Text.isDigit c = true) : trim s = s := by
  have hstart : ∀ cs : List Char, (∀ c ∈ cs, Text.isDigit c = true) → trimStart cs = cs := by
    intro cs hcs
    cases cs with
    | nil => rfl
    | cons c cs =>
        rw [trimStart, List.dropWhile_cons_of_neg]
        rw [isWhiteSpace_of_isDigit (hcs c List.mem_cons_self)]
        exact Bool.false_ne_true
  rw [trim, hstart _ h, hstart _ fun c hc => h c (List.mem_reverse.mp hc), List.reverse_reverse,
    String.ofList_toList]

theorem trimStart_of_prefix {cs ds : List Char} (h : ds <+: trimStart cs) : trimStart ds = ds := by
  cases ds with
  | nil => rfl
  | cons d ds =>
      obtain ⟨rest, hrest⟩ := h
      have hstart : trimStart (trimStart cs) = trimStart cs := List.dropWhile_idempotent _ cs
      rw [← hrest, List.cons_append] at hstart
      have hd := List.dropWhile_eq_self_iff.mp hstart (Nat.succ_pos _)
      exact List.dropWhile_cons_of_neg hd

theorem trim_trim (s : String) : trim (trim s) = trim s := by
  have hprefix : (trimStart (trimStart s.toList).reverse).reverse <+: trimStart s.toList :=
    List.rdropWhile_prefix isWhiteSpace (trimStart s.toList)
  have hend : trimStart (trimStart (trimStart s.toList).reverse) =
      trimStart (trimStart s.toList).reverse := List.dropWhile_idempotent _ _
  rw [trim, trim, String.toList_ofList, trimStart_of_prefix hprefix, List.reverse_reverse, hend]

theorem trim_ne_empty {s : String} {c : Char} (hmem : c ∈ s.toList) (hc : isWhiteSpace c = false) :
    trim s ≠ "" := by
  intro h
  have hnil := congrArg String.toList h
  rw [trim, String.toList_ofList, String.toList_empty, List.reverse_eq_nil_iff, trimStart,
    List.dropWhile_eq_nil_iff] at hnil
  rw [← List.takeWhile_append_dropWhile (p := isWhiteSpace) (l := s.toList)] at hmem
  rcases List.mem_append.mp hmem with hfront | hrest
  · exact absurd (List.mem_takeWhile_imp hfront) (by rw [hc]; decide)
  · exact absurd (hnil c (List.mem_reverse.mpr hrest)) (by rw [hc]; decide)

theorem trim_repr (n : Nat) : trim (Nat.repr n) = Nat.repr n := by
  refine trim_of_digits fun c hc => ?_
  rw [Nat.repr, String.toList_ofList] at hc
  exact Text.isDigit_of_mem_toDigits hc

theorem repr_ne_empty (n : Nat) : Nat.repr n ≠ "" := by
  intro h
  have := congrArg String.toList h
  rw [Nat.repr, String.toList_ofList] at this
  exact Nat.toDigits_ne_nil this

theorem number_repr (n : Nat) : number (Nat.repr n) = some n := by
  rw [number, trim_repr, if_neg (repr_ne_empty n), Nat.repr, String.toList_ofList]
  exact Text.digitsValue_toDigits n

theorem repr_injective {m n : Nat} (h : Nat.repr m = Nat.repr n) : m = n := by
  have := congrArg number h
  rw [number_repr, number_repr] at this
  exact Option.some.inj this

end NestGateway.JsString
