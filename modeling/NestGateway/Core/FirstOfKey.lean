import Mathlib.Data.List.Basic

/-! # The first element of every key

A list with the elements dropped whose key was seen before.
-/

namespace NestGateway

variable {α κ : Type*} [DecidableEq κ]

/-- Keep the first element of every key that is not seen yet. -/
def firstOfKey (key : α → κ) : List κ → List α → List α
  | _, [] => []
  | seen, x :: xs =>
      if key x ∈ seen then firstOfKey key seen xs
      else x :: firstOfKey key (key x :: seen) xs

variable {key : α → κ}

/-- An element is kept if it is the first of its key. -/
theorem mem_firstOfKey {seen : List κ} {xs : List α} {a : α} :
    a ∈ firstOfKey key seen xs ↔ key a ∉ seen ∧ xs.find? (fun x => key x = key a) = some a := by
  induction xs generalizing seen with
  | nil => simp [firstOfKey]
  | cons x xs ih =>
      rw [firstOfKey, List.find?_cons]
      by_cases hsame : key x = key a
      · rw [decide_eq_true hsame]
        split
        next hseen =>
          rw [ih, ← hsame]
          exact iff_of_false (fun h => h.1 hseen) (fun h => h.1 hseen)
        next hfresh =>
          rw [List.mem_cons, ih]
          constructor
          · rintro (rfl | ⟨hnot, _⟩)
            · exact ⟨hfresh, rfl⟩
            · exact absurd (hsame ▸ List.mem_cons_self) hnot
          · rintro ⟨_, hfirst⟩
            exact Or.inl (Option.some.inj hfirst).symm
      · rw [decide_eq_false hsame]
        split
        next hseen => exact ih
        next hfresh =>
          rw [List.mem_cons, ih, List.mem_cons, not_or]
          constructor
          · rintro (rfl | ⟨⟨_, hnot⟩, hfirst⟩)
            · exact absurd rfl hsame
            · exact ⟨hnot, hfirst⟩
          · rintro ⟨hnot, hfirst⟩
            exact Or.inr ⟨⟨fun h => hsame h.symm, hnot⟩, hfirst⟩

theorem mem_of_mem_firstOfKey {seen : List κ} {xs : List α} {a : α}
    (h : a ∈ firstOfKey key seen xs) : a ∈ xs :=
  List.mem_of_find?_eq_some (mem_firstOfKey.mp h).2

theorem find?_firstOfKey (xs : List α) (k : κ) :
    (firstOfKey key [] xs).find? (fun x => key x = k) = xs.find? fun x => key x = k := by
  cases hfind : xs.find? (fun x => key x = k) with
  | none =>
      rw [List.find?_eq_none] at hfind ⊢
      exact fun x hx => hfind x (mem_of_mem_firstOfKey hx)
  | some a =>
      have ha : key a = k := by simpa using List.find?_some hfind
      have hmem : a ∈ firstOfKey key [] xs := mem_firstOfKey.mpr ⟨List.not_mem_nil, ha ▸ hfind⟩
      cases hkept : (firstOfKey key [] xs).find? (fun x => key x = k) with
      | none => exact absurd (decide_eq_true ha) (List.find?_eq_none.mp hkept a hmem)
      | some b =>
          have hb : key b = k := by simpa using List.find?_some hkept
          have hfirst := (mem_firstOfKey.mp (List.mem_of_find?_eq_some hkept)).2
          rw [hb, hfind] at hfirst
          exact hfirst.symm

theorem nodup_firstOfKey (seen : List κ) (xs : List α) :
    ((firstOfKey key seen xs).map key).Nodup := by
  induction xs generalizing seen with
  | nil => exact List.nodup_nil
  | cons x xs ih =>
      rw [firstOfKey]
      split
      · exact ih seen
      · refine List.nodup_cons.mpr ⟨fun hmem => ?_, ih (key x :: seen)⟩
        obtain ⟨y, hy, hsame⟩ := List.mem_map.mp hmem
        exact (mem_firstOfKey.mp hy).1 (hsame ▸ List.mem_cons_self)

theorem mem_firstOfKey_filter {seen : List κ} {xs : List α} {a : α} {p : α → Bool}
    (h : a ∈ firstOfKey key seen xs) (hp : p a = true) :
    a ∈ firstOfKey key seen (xs.filter p) := by
  obtain ⟨hfresh, hfirst⟩ := mem_firstOfKey.mp h
  refine mem_firstOfKey.mpr ⟨hfresh, ?_⟩
  obtain ⟨hkey, before, after, rfl, hbefore⟩ := List.find?_eq_some_iff_append.mp hfirst
  rw [List.filter_append, List.filter_cons_of_pos hp]
  refine List.find?_eq_some_iff_append.mpr ⟨hkey, _, _, rfl, fun x hx => ?_⟩
  exact hbefore x (List.mem_of_mem_filter hx)

end NestGateway
