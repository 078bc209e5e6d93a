import Mathlib.Data.List.Nodup

/-! # Insertion-ordered maps

The `Map` of JavaScript: every key has one entry, setting a key that is there
keeps its place and a new key goes to the end.
-/

namespace NestGateway

structure JsMap (κ ν : Type*) where
  entries : List (κ × ν)
  nodup : (entries.map Prod.fst).Nodup

namespace JsMap

variable {κ ν : Type*} [DecidableEq κ]

def empty : JsMap κ ν := ⟨[], List.nodup_nil⟩

def keys (m : JsMap κ ν) : List κ := m.entries.map Prod.fst

def values (m : JsMap κ ν) : List ν := m.entries.map Prod.snd

def get (m : JsMap κ ν) (k : κ) : Option ν := m.entries.lookup k

def has (m : JsMap κ ν) (k : κ) : Bool := (m.get k).isSome

/-- Replace the value of a key, or add the key at the end. -/
def setEntry (k : κ) (v : ν) : List (κ × ν) → List (κ × ν)
  | [] => [(k, v)]
  | e :: es => if e.1 = k then (k, v) :: es else e :: setEntry k v es

theorem mem_keys_setEntry {k k' : κ} {v : ν} {es : List (κ × ν)} :
    k' ∈ (setEntry k v es).map Prod.fst ↔ k' = k ∨ k' ∈ es.map Prod.fst := by
  induction es with
  | nil => simp [setEntry]
  | cons e es ih =>
      by_cases he : e.1 = k
      · simp [setEntry, he]
      · simp only [setEntry, he, if_false, List.map_cons, List.mem_cons, ih]
        tauto

theorem nodup_setEntry {k : κ} {v : ν} {es : List (κ × ν)} (h : (es.map Prod.fst).Nodup) :
    ((setEntry k v es).map Prod.fst).Nodup := by
  induction es with
  | nil => simp [setEntry]
  | cons e es ih =>
      obtain ⟨hfresh, hrest⟩ := List.nodup_cons.mp h
      by_cases he : e.1 = k
      · rw [setEntry, if_pos he, List.map_cons, List.nodup_cons]
        exact ⟨he ▸ hfresh, hrest⟩
      · rw [setEntry, if_neg he, List.map_cons, List.nodup_cons]
        refine ⟨fun hmem => ?_, ih hrest⟩
        rcases mem_keys_setEntry.mp hmem with hk | hmem
        · exact he hk
        · exact hfresh hmem

theorem setEntry_of_not_mem {k : κ} (v : ν) {es : List (κ × ν)} (h : k ∉ es.map Prod.fst) :
    setEntry k v es = es ++ [(k, v)] := by
  induction es with
  | nil => rfl
  | cons e es ih =>
      obtain ⟨hne, hrest⟩ := not_or.mp (mt List.mem_cons.mpr h)
      rw [setEntry, if_neg (Ne.symm hne), ih hrest, List.cons_append]

def set (m : JsMap κ ν) (k : κ) (v : ν) : JsMap κ ν :=
  ⟨setEntry k v m.entries, nodup_setEntry m.nodup⟩

def delete (m : JsMap κ ν) (k : κ) : JsMap κ ν :=
  ⟨m.entries.filter (·.1 ≠ k), (List.filter_sublist.map Prod.fst).nodup m.nodup⟩

omit [DecidableEq κ] in
@[simp] theorem keys_empty : (empty : JsMap κ ν).keys = [] := rfl

@[simp] theorem get_empty (k : κ) : (empty : JsMap κ ν).get k = none := rfl

theorem lookup_cons (k k' : κ) (v : ν) (es : List (κ × ν)) :
    ((k, v) :: es).lookup k' = if k' = k then some v else es.lookup k' := by
  by_cases h : k' = k
  · subst h
    simp
  · have hb : (k' == k) = false := beq_false_of_ne h
    simp [List.lookup_cons, hb, h]

theorem lookup_setEntry (k k' : κ) (v : ν) (es : List (κ × ν)) :
    (setEntry k v es).lookup k' = if k' = k then some v else es.lookup k' := by
  induction es with
  | nil => exact lookup_cons k k' v []
  | cons e es ih =>
      obtain ⟨key, w⟩ := e
      by_cases hk : key = k
      · subst hk
        by_cases h : k' = key <;> simp [setEntry, lookup_cons, h]
      · by_cases h : k' = key
        · subst h
          simp [setEntry, hk]
        · simpa [setEntry, lookup_cons, hk, h] using ih

theorem lookup_filter_ne (k k' : κ) (es : List (κ × ν)) :
    (es.filter (·.1 ≠ k)).lookup k' = if k' = k then none else es.lookup k' := by
  induction es with
  | nil => simp
  | cons e es ih =>
      obtain ⟨key, w⟩ := e
      by_cases hk : key = k
      · subst hk
        by_cases h : k' = key
        · simpa [h] using ih
        · simpa [h, lookup_cons] using ih
      · by_cases h : k' = key
        · subst h
          simp [hk]
        · simpa [hk, h, lookup_cons] using ih

theorem get_set (m : JsMap κ ν) (k k' : κ) (v : ν) :
    (m.set k v).get k' = if k' = k then some v else m.get k' :=
  lookup_setEntry k k' v m.entries

theorem get_delete (m : JsMap κ ν) (k k' : κ) :
    (m.delete k).get k' = if k' = k then none else m.get k' :=
  lookup_filter_ne k k' m.entries

theorem mem_keys {m : JsMap κ ν} {k : κ} : k ∈ m.keys ↔ ∃ v, m.get k = some v := by
  rw [keys, get]
  induction m.entries with
  | nil => simp
  | cons e es ih =>
      obtain ⟨key, w⟩ := e
      by_cases h : k = key
      · subst h
        simp
      · simp [lookup_cons, h, ih]

theorem has_iff {m : JsMap κ ν} {k : κ} : m.has k = true ↔ k ∈ m.keys := by
  rw [has, mem_keys, Option.isSome_iff_exists]

theorem get_of_not_has {m : JsMap κ ν} {k : κ} (h : ¬ m.has k = true) : m.get k = none := by
  cases hget : m.get k with
  | none => rfl
  | some v =>
      rw [has, hget] at h
      exact absurd rfl h

theorem get_of_keys_nil {m : JsMap κ ν} (h : m.keys = []) (k : κ) : m.get k = none := by
  refine get_of_not_has fun hhas => ?_
  rw [has_iff, h] at hhas
  cases hhas

theorem mem_keys_set {m : JsMap κ ν} {k k' : κ} {v : ν} :
    k' ∈ (m.set k v).keys ↔ k' = k ∨ k' ∈ m.keys :=
  mem_keys_setEntry

theorem mem_keys_delete {m : JsMap κ ν} {k k' : κ} :
    k' ∈ (m.delete k).keys ↔ k' ≠ k ∧ k' ∈ m.keys := by
  rw [mem_keys, mem_keys]
  simp only [get_delete]
  by_cases h : k' = k <;> simp [h]

theorem length_keys_delete {m : JsMap κ ν} {k : κ} (h : k ∈ m.keys) :
    (m.delete k).keys.length < m.keys.length := by
  obtain ⟨e, hmem, rfl⟩ := List.mem_map.mp h
  rw [keys, keys, List.length_map, List.length_map]
  exact List.length_filter_lt_length_iff_exists.mpr ⟨e, hmem, by simp⟩

theorem mem_keys_of_has {m : JsMap κ ν} {k k' : κ} (h : m.has k = true) :
    k' ∈ m.keys ↔ k' = k ∨ k' ∈ m.keys := by
  rw [has_iff] at h
  refine ⟨Or.inr, ?_⟩
  rintro (rfl | h')
  · exact h
  · exact h'

theorem mem_keys_of_not_has {m : JsMap κ ν} {k k' : κ} (h : ¬ m.has k = true) :
    k' ∈ m.keys ↔ k' ≠ k ∧ k' ∈ m.keys := by
  rw [has_iff] at h
  refine ⟨fun h' => ⟨?_, h'⟩, fun h' => h'.2⟩
  rintro rfl
  exact h h'

theorem entries_set_new {m : JsMap κ ν} {k : κ} (h : ¬ m.has k = true) (v : ν) :
    (m.set k v).entries = m.entries ++ [(k, v)] :=
  setEntry_of_not_mem v (mt has_iff.mpr h)

theorem entries_foldl_set {α : Type*} (key : α → κ) (value : α → ν) (xs : List α) {m : JsMap κ ν}
    (nodup : (xs.map key).Nodup) (fresh : ∀ x ∈ xs, key x ∉ m.keys) :
    (xs.foldl (fun m x => m.set (key x) (value x)) m).entries =
      m.entries ++ xs.map fun x => (key x, value x) := by
  induction xs generalizing m with
  | nil => simp
  | cons x xs ih =>
      obtain ⟨hhead, hrest⟩ := List.nodup_cons.mp nodup
      have hnew : ¬ m.has (key x) = true := mt has_iff.mp (fresh x List.mem_cons_self)
      have hfresh : ∀ y ∈ xs, key y ∉ (m.set (key x) (value x)).keys := by
        intro y hy hmem
        rcases mem_keys_set.mp hmem with heq | hold
        · exact hhead (heq ▸ List.mem_map_of_mem hy)
        · exact fresh y (List.mem_cons_of_mem x hy) hold
      rw [List.foldl_cons, ih hrest hfresh, entries_set_new hnew, List.append_assoc]
      rfl

theorem lookup_of_not_mem {k : κ} {es : List (κ × ν)} (h : k ∉ es.map Prod.fst) :
    es.lookup k = none := by
  refine List.lookup_eq_none_iff.mpr fun e he => ?_
  rw [bne_iff_ne]
  rintro rfl
  exact h (List.mem_map_of_mem he)

/-- The order of the entries does not matter. -/
theorem lookup_perm {es es' : List (κ × ν)} (h : es.Perm es') (nodup : (es.map Prod.fst).Nodup)
    (k : κ) : es.lookup k = es'.lookup k := by
  induction h with
  | nil => rfl
  | cons e _ ih =>
      obtain ⟨key, v⟩ := e
      rw [lookup_cons, lookup_cons, ih (List.nodup_cons.mp nodup).2]
  | swap e e' es =>
      obtain ⟨key, v⟩ := e
      obtain ⟨key', v'⟩ := e'
      have hne : key' ≠ key := by
        rintro rfl
        exact (List.nodup_cons.mp nodup).1 List.mem_cons_self
      simp only [lookup_cons]
      by_cases hkey : k = key
      · rw [if_pos hkey, if_pos hkey, if_neg fun hkey' => hne (hkey'.symm.trans hkey)]
      · rw [if_neg hkey, if_neg hkey]
  | trans h _ ih ih' => exact (ih nodup).trans (ih' ((h.map Prod.fst).nodup_iff.mp nodup))

theorem lookup_map {f : κ → ν} {ks : List κ} {k : κ} (h : k ∈ ks) :
    (ks.map fun k => (k, f k)).lookup k = some (f k) := by
  induction ks with
  | nil => cases h
  | cons key ks ih =>
      rw [List.map_cons, lookup_cons]
      split
      next heq => rw [heq]
      next hne => exact ih (List.mem_of_ne_of_mem hne h)

theorem setEntry_map {f : κ → ν} {ks : List κ} (nodup : ks.Nodup) {k : κ} (h : k ∈ ks) (v : ν) :
    setEntry k v (ks.map fun key => (key, f key)) =
      ks.map fun key => (key, if k = key then v else f key) := by
  induction ks with
  | nil => cases h
  | cons key ks ih =>
      obtain ⟨hnot, hrest⟩ := List.nodup_cons.mp nodup
      rw [List.map_cons, List.map_cons]
      unfold setEntry
      by_cases heq : key = k
      · subst heq
        rw [if_pos rfl, if_pos rfl]
        refine congrArg _ (List.map_congr_left fun other hother => ?_)
        rw [if_neg]
        rintro rfl
        exact hnot hother
      · rw [if_neg heq, if_neg (Ne.symm heq)]
        exact congrArg _ (ih hrest (List.mem_of_ne_of_mem (Ne.symm heq) h))

theorem mem_values_of_get {m : JsMap κ ν} {k : κ} {v : ν} (h : m.get k = some v) :
    v ∈ m.values := by
  obtain ⟨before, later, hentries, _⟩ := List.lookup_eq_some_iff.mp h
  rw [values, hentries]
  simp

theorem get_of_mem {m : JsMap κ ν} {k : κ} {v : ν} (h : (k, v) ∈ m.entries) :
    m.get k = some v := by
  obtain ⟨es, hnodup⟩ := m
  change es.lookup k = some v
  induction es with
  | nil => cases h
  | cons e es ih =>
      obtain ⟨key, w⟩ := e
      obtain ⟨hfresh, hrest⟩ := List.nodup_cons.mp hnodup
      rw [lookup_cons]
      rcases List.mem_cons.mp h with heq | hmem
      · cases heq
        exact if_pos rfl
      · have hne : k ≠ key := by
          rintro rfl
          exact hfresh (List.mem_map.mpr ⟨(k, v), hmem, rfl⟩)
        rw [if_neg hne]
        exact ih hrest hmem

theorem nodup_values {m : JsMap κ ν}
    (inj : ∀ k k' v, m.get k = some v → m.get k' = some v → k = k') : m.values.Nodup := by
  refine List.Nodup.map_on ?_ m.nodup.of_map
  rintro ⟨k, v⟩ hk ⟨k', v'⟩ hk' heq
  obtain rfl : v = v' := heq
  rw [inj k k' v (get_of_mem hk) (get_of_mem hk')]

end JsMap

end NestGateway
