import Mathlib.Algebra.BigOperators.Group.List.Lemmas
import Mathlib.Algebra.Ring.Nat
import NestGateway.Core.FirstOfKey
import NestGateway.Core.JsMap

/-! # Counting by key

The elements of a list counted under their keys in a map, and what the map holds
in the end: the keys as they first came, each with the number of its elements.
-/

namespace NestGateway

variable {α κ : Type*} [DecidableEq κ] (key : α → κ)

/-- How many elements have the key. -/
def countOf (xs : List α) (k : κ) : Nat := xs.countP (key · = k)

def countKey (counts : JsMap κ Nat) (x : α) : JsMap κ Nat :=
  counts.set (key x) ((counts.get (key x)).getD 0 + 1)

def countByKey (xs : List α) : JsMap κ Nat := xs.foldl (countKey key) JsMap.empty

/-- The keys in the order in which they first come. -/
def firstKeys (xs : List α) : List κ := (firstOfKey key [] xs).map key

variable {key}

theorem nodup_firstKeys (xs : List α) : (firstKeys key xs).Nodup := nodup_firstOfKey [] xs

theorem mem_firstKeys {xs : List α} {k : κ} : k ∈ firstKeys key xs ↔ k ∈ xs.map key := by
  unfold firstKeys
  constructor
  · intro h
    obtain ⟨a, ha, rfl⟩ := List.mem_map.mp h
    exact List.mem_map_of_mem (mem_of_mem_firstOfKey ha)
  · intro h
    obtain ⟨a, ha, rfl⟩ := List.mem_map.mp h
    cases hfind : (firstOfKey key [] xs).find? (fun x => key x = key a) with
    | none =>
        rw [find?_firstOfKey] at hfind
        exact absurd (decide_eq_true rfl) (List.find?_eq_none.mp hfind a ha)
    | some b =>
        have hb : key b = key a := by simpa using List.find?_some hfind
        exact hb ▸ List.mem_map_of_mem (List.mem_of_find?_eq_some hfind)

theorem firstOfKey_append_singleton (seen : List κ) (xs : List α) (x : α) :
    firstOfKey key seen (xs ++ [x]) =
      firstOfKey key seen xs ++ if key x ∈ seen ∨ key x ∈ xs.map key then [] else [x] := by
  induction xs generalizing seen with
  | nil =>
      by_cases hseen : key x ∈ seen
      · simp [firstOfKey, hseen]
      · simp [firstOfKey, hseen]
  | cons y ys ih =>
      rw [List.cons_append]
      unfold firstOfKey
      split
      next hseen =>
        have hiff : key x ∈ seen ∨ key x ∈ (y :: ys).map key ↔
            key x ∈ seen ∨ key x ∈ ys.map key := by
          rw [List.map_cons, List.mem_cons]
          constructor
          · rintro (h | h | h)
            · exact Or.inl h
            · exact Or.inl (h ▸ hseen)
            · exact Or.inr h
          · rintro (h | h)
            · exact Or.inl h
            · exact Or.inr (Or.inr h)
        rw [ih]
        simp only [hiff]
      next =>
        have hiff : key x ∈ seen ∨ key x ∈ (y :: ys).map key ↔
            key x ∈ key y :: seen ∨ key x ∈ ys.map key := by
          rw [List.map_cons, List.mem_cons, List.mem_cons]
          tauto
        rw [ih]
        simp only [hiff, List.cons_append]

theorem firstKeys_append_singleton (xs : List α) (x : α) :
    firstKeys key (xs ++ [x]) =
      firstKeys key xs ++ if key x ∈ xs.map key then [] else [key x] := by
  unfold firstKeys
  rw [firstOfKey_append_singleton, List.map_append]
  simp only [List.not_mem_nil, false_or]
  split
  · rfl
  · rfl

theorem countOf_append_singleton (xs : List α) (x : α) (k : κ) :
    countOf key (xs ++ [x]) k = if key x = k then countOf key xs k + 1 else countOf key xs k := by
  unfold countOf
  rw [List.countP_append, List.countP_singleton]
  split <;> simp_all

theorem countOf_of_not_mem {xs : List α} {k : κ} (h : k ∉ xs.map key) : countOf key xs k = 0 := by
  unfold countOf
  rw [List.countP_eq_zero]
  intro x hx hkey
  exact h (of_decide_eq_true hkey ▸ List.mem_map_of_mem hx)

/-- The map holds every key once, as the keys first came, with its number of elements. -/
theorem entries_countByKey (xs : List α) :
    (countByKey key xs).entries = (firstKeys key xs).map fun k => (k, countOf key xs k) := by
  induction xs using List.reverseRecOn with
  | nil => rfl
  | append_singleton xs x ih =>
      have hget : (countByKey key xs).get (key x) =
          ((firstKeys key xs).map fun k => (k, countOf key xs k)).lookup (key x) := by
        unfold JsMap.get
        rw [ih]
      have hstep : (countByKey key (xs ++ [x])).entries =
          JsMap.setEntry (key x) (((countByKey key xs).get (key x)).getD 0 + 1)
            (countByKey key xs).entries := by
        unfold countByKey
        rw [List.foldl_append]
        rfl
      rw [hstep, ih, hget, firstKeys_append_singleton]
      by_cases hmem : key x ∈ firstKeys key xs
      · rw [JsMap.lookup_map hmem, Option.getD_some,
          JsMap.setEntry_map (nodup_firstKeys xs) hmem, if_pos (mem_firstKeys.mp hmem),
          List.append_nil]
        refine List.map_congr_left fun k _ => ?_
        rw [countOf_append_singleton]
        split
        next heq => rw [heq]
        next => rfl
      · have hnew : key x ∉ xs.map key := fun h => hmem (mem_firstKeys.mpr h)
        have hfresh : key x ∉
            ((firstKeys key xs).map fun k => (k, countOf key xs k)).map Prod.fst := by
          rw [List.map_map]
          exact (List.map_id (firstKeys key xs)).symm ▸ hmem
        rw [JsMap.lookup_of_not_mem hfresh, Option.getD_none,
          JsMap.setEntry_of_not_mem _ hfresh, if_neg hnew, List.map_append]
        refine congrArg₂ _ (List.map_congr_left fun k hk => ?_) ?_
        · rw [countOf_append_singleton, if_neg]
          rintro rfl
          exact hmem hk
        · rw [List.map_singleton, countOf_append_singleton, if_pos rfl, countOf_of_not_mem hnew]

theorem sum_countOf (xs : List α) :
    ((firstKeys key xs).map (countOf key xs)).sum = xs.length := by
  have hperm : (firstKeys key xs).Perm (xs.map key).dedup := by
    refine (List.perm_ext_iff_of_nodup (nodup_firstKeys xs) (List.nodup_dedup _)).mpr fun k => ?_
    rw [mem_firstKeys, List.mem_dedup]
  have hcount : countOf key xs = fun k => (xs.map key).count k := by
    funext k
    unfold countOf List.count
    rw [List.countP_map]
    refine List.countP_congr fun x _ => ?_
    simp
  rw [(hperm.map _).sum_eq, hcount, List.sum_map_count_dedup_eq_length, List.length_map]

end NestGateway
