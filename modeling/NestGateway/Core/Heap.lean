import Mathlib.Data.List.Basic

/-! # Objects with an identity

A growing store of objects. An object is referred to by its place, which no
later allocation changes.
-/

namespace NestGateway

structure Heap (α : Type*) where
  cells : List α
  deriving Repr, DecidableEq

namespace Heap

variable {α : Type*}

def empty : Heap α := ⟨[]⟩

/-- The identity of the next object. -/
def size (h : Heap α) : Nat := h.cells.length

def get (h : Heap α) (i : Nat) : Option α := h.cells[i]?

def alloc (h : Heap α) (a : α) : Heap α := ⟨h.cells ++ [a]⟩

def modify (h : Heap α) (i : Nat) (f : α → α) : Heap α := ⟨h.cells.modify i f⟩

/-- Modify the object that a nullable reference refers to. -/
def modifyOpt (h : Heap α) (i : Option Nat) (f : α → α) : Heap α :=
  match i with
  | none => h
  | some i => h.modify i f

@[simp] theorem get_empty (i : Nat) : (empty : Heap α).get i = none := by simp [empty, get]

theorem get_size (h : Heap α) : h.get h.size = none := by simp [get, size]

theorem lt_size {h : Heap α} {i : Nat} {a : α} (hget : h.get i = some a) : i < h.size := by
  obtain ⟨hlt, _⟩ := List.getElem?_eq_some_iff.mp hget
  exact hlt

theorem get_of_lt {h : Heap α} {i : Nat} (hlt : i < h.size) : ∃ a, h.get i = some a :=
  ⟨h.cells[i], List.getElem?_eq_getElem hlt⟩

theorem get_alloc (h : Heap α) (a : α) (i : Nat) :
    (h.alloc a).get i = if i = h.size then some a else h.get i := by
  rcases Nat.lt_trichotomy i h.size with hlt | rfl | hgt
  · rw [if_neg (by omega)]
    exact List.getElem?_append_left hlt
  · rw [if_pos rfl]
    exact List.getElem?_concat_length
  · rw [if_neg (by omega), get, get, alloc, List.getElem?_eq_none, List.getElem?_eq_none]
    · exact Nat.le_of_lt hgt
    · rw [List.length_append]
      exact hgt

theorem get_modify (h : Heap α) (i : Nat) (f : α → α) (j : Nat) :
    (h.modify i f).get j = if j = i then (h.get i).map f else h.get j := by
  rw [get, modify, List.getElem?_modify]
  by_cases hij : i = j
  · subst hij
    simp [get]
  · rw [if_neg (Ne.symm hij)]
    simp [hij, get]

theorem get_alloc_size (h : Heap α) (a : α) : (h.alloc a).get h.size = some a := by
  rw [get_alloc, if_pos rfl]

theorem get_alloc_of_get {h : Heap α} {i : Nat} {b : α} (hget : h.get i = some b) (a : α) :
    (h.alloc a).get i = some b := by
  rw [get_alloc, if_neg (Nat.ne_of_lt (lt_size hget)), hget]

theorem get_of_alloc {h : Heap α} {i : Nat} {a b : α} (hget : (h.alloc a).get i = some b) :
    (i = h.size ∧ a = b) ∨ h.get i = some b := by
  rw [get_alloc] at hget
  split at hget
  next hnew => exact Or.inl ⟨hnew, Option.some.inj hget⟩
  next => exact Or.inr hget

theorem get_modify_same {h : Heap α} {i : Nat} {a : α} (hget : h.get i = some a) (f : α → α) :
    (h.modify i f).get i = some (f a) := by
  rw [get_modify, if_pos rfl, hget]
  rfl

theorem get_modify_of_ne {i j : Nat} (hne : j ≠ i) (h : Heap α) (f : α → α) :
    (h.modify i f).get j = h.get j := by
  rw [get_modify, if_neg hne]

theorem get_of_modify {h : Heap α} {i j : Nat} {f : α → α} {b : α}
    (hget : (h.modify i f).get j = some b) :
    (j = i ∧ ∃ a, h.get i = some a ∧ f a = b) ∨ j ≠ i ∧ h.get j = some b := by
  rw [get_modify] at hget
  split at hget
  next hij => exact Or.inl ⟨hij, Option.map_eq_some_iff.mp hget⟩
  next hne => exact Or.inr ⟨hne, hget⟩

theorem get_modifyOpt (h : Heap α) (i : Option Nat) (f : α → α) (j : Nat) :
    (h.modifyOpt i f).get j = if i = some j then (h.get j).map f else h.get j := by
  cases i with
  | none => simp [modifyOpt]
  | some i =>
      rw [modifyOpt, get_modify]
      by_cases hij : j = i
      · simp [hij]
      · simp [hij, Ne.symm hij]

@[simp] theorem size_alloc (h : Heap α) (a : α) : (h.alloc a).size = h.size + 1 := by
  simp [size, alloc]

@[simp] theorem size_modify (h : Heap α) (i : Nat) (f : α → α) : (h.modify i f).size = h.size := by
  simp [size, modify]

@[simp] theorem size_modifyOpt (h : Heap α) (i : Option Nat) (f : α → α) :
    (h.modifyOpt i f).size = h.size := by
  cases i with
  | none => rfl
  | some i => exact size_modify h i f

/-- How many objects satisfy `q`. -/
def count (h : Heap α) (q : α → Bool) : Nat := h.cells.countP q

theorem count_alloc (h : Heap α) (a : α) (q : α → Bool) :
    (h.alloc a).count q = h.count q + if q a then 1 else 0 := by
  simp [count, alloc, List.countP_append, List.countP_singleton]

theorem count_modify {h : Heap α} {i : Nat} {a : α} (hget : h.get i = some a) (f : α → α)
    (q : α → Bool) :
    (h.modify i f).count q + (if q a then 1 else 0) =
      h.count q + if q (f a) then 1 else 0 := by
  obtain ⟨cells⟩ := h
  change (cells.modify i f).countP q + _ = cells.countP q + _
  induction cells generalizing i with
  | nil => cases hget
  | cons b cells ih =>
      cases i with
      | zero =>
          obtain rfl := Option.some.inj hget
          simp only [List.modify_zero_cons, List.countP_cons]
          omega
      | succ i =>
          have hrest := ih (i := i) hget
          simp only [List.modify_succ_cons, List.countP_cons]
          omega

variable {κ : Type*}

/-- No two objects have one key. -/
def Distinct (h : Heap α) (key : α → Option κ) : Prop :=
  ∀ i j a b k, h.get i = some a → h.get j = some b → key a = some k → key b = some k → i = j

theorem distinct_empty (key : α → Option κ) : (empty : Heap α).Distinct key := by
  intro i j a b k hi
  rw [get_empty] at hi
  cases hi

theorem Distinct.alloc {h : Heap α} {key : α → Option κ} (distinct : h.Distinct key) {a : α}
    (fresh : ∀ i b k, h.get i = some b → key b = some k → key a ≠ some k) :
    (h.alloc a).Distinct key := by
  intro i j b b' k hi hj hb hb'
  rcases get_of_alloc hi with ⟨hnew, rfl⟩ | hi
  · rcases get_of_alloc hj with ⟨hnew', rfl⟩ | hj
    · exact hnew.trans hnew'.symm
    · exact absurd hb (fresh j b' k hj hb')
  · rcases get_of_alloc hj with ⟨_, rfl⟩ | hj
    · exact absurd hb' (fresh i b k hi hb)
    · exact distinct i j b b' k hi hj hb hb'

theorem Distinct.modify {h : Heap α} {key : α → Option κ} (distinct : h.Distinct key) {i : Nat}
    {f : α → α} (same : ∀ a, h.get i = some a → key (f a) = key a ∨
      ∀ j b k, h.get j = some b → key b = some k → key (f a) ≠ some k) :
    (h.modify i f).Distinct key := by
  -- what is modified, against what is not
  have hother : ∀ a j b k, h.get i = some a → h.get j = some b → key (f a) = some k →
      key b = some k → j = i := by
    intro a j b k hi hj ha hb
    rcases same a hi with hsame | hfresh
    · exact distinct j i b a k hj hi hb (hsame ▸ ha)
    · exact absurd ha (hfresh j b k hj hb)
  intro j j' b b' k hj hj' hb hb'
  rcases get_of_modify hj with ⟨hij, a, ha, rfl⟩ | ⟨_, hj⟩
  · rcases get_of_modify hj' with ⟨hij', _⟩ | ⟨_, hj'⟩
    · exact hij.trans hij'.symm
    · exact hij.trans (hother a j' b' k ha hj' hb hb').symm
  · rcases get_of_modify hj' with ⟨hij', a, ha, rfl⟩ | ⟨_, hj'⟩
    · exact (hother a j b k ha hj hb' hb).trans hij'.symm
    · exact distinct j j' b b' k hj hj' hb hb'

end Heap

end NestGateway
