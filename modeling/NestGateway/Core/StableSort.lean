import Mathlib.Data.List.Sort

/-! # Stable sorting and truncated merges

General facts about the stable sort of a list under a total preorder. Sorting a
concatenation is merging the sorted parts, a truncated merge only looks at the
truncated parts, and so cutting every sorted part at `n` before sorting does
not change the first `n` elements. The insertion sort of Mathlib is used as the
executable sort; it agrees with the stable merge sort of the core library.
-/

namespace NestGateway.StableSort

open List

variable {α : Type*} {r : α → α → Prop} [DecidableRel r]

theorem orderedInsert_eq_merge (a : α) (ys : List α) :
    orderedInsert r a ys = merge [a] ys (r · ·) := by
  induction ys with
  | nil => simp
  | cons y ys ih =>
      by_cases h : r a y
      · simp [h]
      · simp [h, ih]

theorem orderedInsert_merge (trans : ∀ a b c, r a b → r b c → r a c)
    (total : ∀ a b, r a b ∨ r b a) (a : α) (xs ys : List α) :
    orderedInsert r a (merge xs ys (r · ·)) = merge (orderedInsert r a xs) ys (r · ·) := by
  induction xs generalizing ys with
  | nil => simpa using orderedInsert_eq_merge a ys
  | cons x xs ihx =>
      induction ys with
      | nil => simp
      | cons y ys ihy =>
          by_cases hxy : r x y
          · by_cases hax : r a x
            · have hay : r a y := trans a x y hax hxy
              simp [hxy, hax, hay]
            · simp [hxy, hax, ihx]
          · have hyx : r y x := (total x y).resolve_left hxy
            by_cases hay : r a y
            · have hax : r a x := trans a y x hay hyx
              simp [hxy, hax, hay]
            · -- both candidates for the head of the left argument lie above `y`
              by_cases hax : r a x
              · simpa [hxy, hay, hax] using ihy
              · simpa [hxy, hay, hax] using ihy

/-- Sorting a concatenation is the stable merge of the sorted parts. -/
theorem insertionSort_append (trans : ∀ a b c, r a b → r b c → r a c)
    (total : ∀ a b, r a b ∨ r b a) (xs ys : List α) :
    insertionSort r (xs ++ ys) =
      merge (insertionSort r xs) (insertionSort r ys) (r · ·) := by
  induction xs with
  | nil => simp
  | cons x xs ih =>
      rw [cons_append, insertionSort_cons, ih, orderedInsert_merge trans total,
        insertionSort_cons]

private theorem take_cons_take (n : Nat) (x : α) (xs : List α) :
    (x :: xs.take n).take n = (x :: xs).take n := by
  cases n with
  | zero => rfl
  | succ n => simp [take_take]

theorem take_merge (le : α → α → Bool) (n : Nat) (xs ys : List α) :
    (merge xs ys le).take n = (merge (xs.take n) (ys.take n) le).take n := by
  induction n generalizing xs ys with
  | zero => simp
  | succ n ih =>
      cases xs with
      | nil => simp [take_take]
      | cons x xs =>
          cases ys with
          | nil => simp [take_take]
          | cons y ys =>
              simp only [take_succ_cons, cons_merge_cons]
              split
              · rw [take_succ_cons, take_succ_cons, ih xs,
                  ih (xs.take n) (y :: ys.take n), take_cons_take, take_take, Nat.min_self]
              · rw [take_succ_cons, take_succ_cons, ih (x :: xs),
                  ih (x :: xs.take n) (ys.take n), take_cons_take, take_take, Nat.min_self]

/-- Cutting every sorted part at `n` keeps the first `n` of the sorted whole. -/
theorem take_insertionSort_flatMap_take (trans : ∀ a b c, r a b → r b c → r a c)
    (total : ∀ a b, r a b ∨ r b a) (n : Nat) (parts : List (List α))
    (sorted : ∀ part ∈ parts, part.Pairwise r) :
    (insertionSort r (parts.flatMap (take n))).take n =
      (insertionSort r parts.flatten).take n := by
  induction parts with
  | nil => rfl
  | cons part parts ih =>
      have hpart : part.Pairwise r := sorted part mem_cons_self
      have hrest := ih (fun p hp => sorted p (mem_cons_of_mem part hp))
      have htake : (part.take n).Pairwise r := hpart.sublist (take_sublist n part)
      rw [flatMap_cons, flatten_cons, insertionSort_append trans total,
        insertionSort_append trans total, Pairwise.insertionSort_eq hpart,
        Pairwise.insertionSort_eq htake, take_merge, hrest, take_take, Nat.min_self,
        ← take_merge]

theorem orderedInsert_append_of_not (a : α) (xs ys : List α) (hxs : ∀ x ∈ xs, ¬ r a x)
    (hys : ∀ y ∈ ys, r a y) : orderedInsert r a (xs ++ ys) = xs ++ a :: ys := by
  induction xs with
  | nil =>
      cases ys with
      | nil => rfl
      | cons y ys => simp [hys y mem_cons_self]
  | cons x xs ih =>
      have hx : ¬ r a x := hxs x mem_cons_self
      simp [hx, ih (fun z hz => hxs z (mem_cons_of_mem x hz))]

/-- Under a total preorder the two stable sorts agree. -/
theorem mergeSort_eq_insertionSort (trans : ∀ a b c, r a b → r b c → r a c)
    (total : ∀ a b, r a b ∨ r b a) (xs : List α) :
    mergeSort xs (r · ·) = insertionSort r xs := by
  have htrans : ∀ a b c, decide (r a b) = true → decide (r b c) = true →
      decide (r a c) = true := by simpa using trans
  have htotal : ∀ a b, (decide (r a b) || decide (r b a)) = true := by simpa using total
  induction xs with
  | nil => simp
  | cons x xs ih =>
      obtain ⟨below, above, hcons, hrest, hbelow⟩ := mergeSort_cons htrans htotal x xs
      have hsorted := pairwise_mergeSort htrans htotal (x :: xs)
      rw [hcons] at hsorted
      have habove : ∀ y ∈ above, r x y := by
        have htail := (pairwise_append.mp hsorted).2.1
        simpa using (pairwise_cons.mp htail).1
      rw [insertionSort_cons, ← ih, hrest, hcons,
        orderedInsert_append_of_not x below above (by simpa using hbelow) habove]

theorem filter_orderedInsert (trans : ∀ a b c, r a b → r b c → r a c) (p : α → Bool) (a : α)
    {xs : List α} (sorted : xs.Pairwise r) :
    (orderedInsert r a xs).filter p =
      if p a then orderedInsert r a (xs.filter p) else xs.filter p := by
  induction xs with
  | nil => cases hp : p a <;> simp [hp]
  | cons x xs ih =>
      obtain ⟨hx, hxs⟩ := pairwise_cons.mp sorted
      by_cases hax : r a x
      · rw [orderedInsert_cons_of_le r xs hax]
        cases hp : p a with
        | false => simp [hp]
        | true =>
            have hle : ∀ y ∈ (x :: xs).filter p, r a y := by
              intro y hy
              rcases mem_cons.mp (mem_of_mem_filter hy) with rfl | hmem
              · exact hax
              · exact trans a x y hax (hx y hmem)
            rw [filter_cons_of_pos hp, if_pos rfl]
            simpa using (orderedInsert_append_of_not (r := r) a [] _ (by simp) hle).symm
      · cases hpx : p x <;> cases hp : p a <;> simp_all

theorem filter_insertionSort (trans : ∀ a b c, r a b → r b c → r a c)
    (total : ∀ a b, r a b ∨ r b a) (p : α → Bool) (xs : List α) :
    (insertionSort r xs).filter p = insertionSort r (xs.filter p) := by
  induction xs with
  | nil => rfl
  | cons x xs ih =>
      have : Std.Total r := ⟨total⟩
      have : IsTrans α r := ⟨trans⟩
      rw [insertionSort_cons, filter_orderedInsert trans p x (pairwise_insertionSort r xs), ih]
      cases hp : p x with
      | false => simp [hp]
      | true => simp [hp]

/-- Before another element in a stable sort: elements that tie stay in the order of their
positions. -/
def Before (r : α → α → Prop) (position : α → Nat) (a b : α) : Prop :=
  r a b ∧ (r b a → position a < position b)

instance (position : α → Nat) : DecidableRel (Before r position) :=
  fun a b => inferInstanceAs (Decidable (r a b ∧ (r b a → position a < position b)))

omit [DecidableRel r] in
theorem Before.asymm {position : α → Nat} {a b : α} (hab : Before r position a b)
    (hba : Before r position b a) : False :=
  absurd (hab.2 hba.1) (Nat.lt_asymm (hba.2 hab.1))

/-- A stable sort of a list in the order of positions. -/
theorem pairwise_before (trans : ∀ a b c, r a b → r b c → r a c)
    (total : ∀ a b, r a b ∨ r b a) {position : α → Nat} {xs : List α}
    (h : xs.Pairwise (position · < position ·)) :
    (insertionSort r xs).Pairwise (Before r position) := by
  induction h with
  | nil => exact Pairwise.nil
  | @cons x xs hx _ ih =>
      have : Std.Total r := ⟨total⟩
      have : IsTrans α r := ⟨trans⟩
      have hsorted := pairwise_insertionSort r xs
      have hpos : ∀ y ∈ insertionSort r xs, position x < position y :=
        fun y hy => hx y ((mem_insertionSort r).mp hy)
      rw [insertionSort_cons]
      generalize insertionSort r xs = sorted at ih hsorted hpos
      induction sorted with
      | nil => exact pairwise_singleton _ _
      | cons y ys ihy =>
          obtain ⟨hy, hys⟩ := pairwise_cons.mp ih
          obtain ⟨hry, hrys⟩ := pairwise_cons.mp hsorted
          by_cases hxy : r x y
          · rw [orderedInsert_cons_of_le r ys hxy]
            refine pairwise_cons.mpr ⟨fun z hz => ⟨?_, fun _ => hpos z hz⟩, ih⟩
            rcases mem_cons.mp hz with rfl | hz
            · exact hxy
            · exact trans x y z hxy (hry z hz)
          · rw [orderedInsert_of_not_le r ys hxy]
            refine pairwise_cons.mpr ⟨fun z hz => ?_, ihy hys hrys fun z hz =>
              hpos z (mem_cons_of_mem y hz)⟩
            rcases (mem_orderedInsert r).mp hz with rfl | hz
            · exact ⟨(total z y).resolve_left hxy, fun h => absurd h hxy⟩
            · exact hy z hz

theorem take_perm_of_first {B : α → α → Prop} (asymm : ∀ {a b}, B a b → B b a → False)
    {xs front : List α} (sorted : xs.Pairwise B) (nodup : front.Nodup) (subset : front ⊆ xs)
    (first : ∀ a ∈ front, ∀ d ∈ xs, d ∉ front → B a d) :
    (xs.take front.length).Perm front := by
  have hlen : front.length ≤ xs.length := (subperm_of_subset nodup subset).length_le
  have hnodup : xs.Nodup := by
    refine Pairwise.imp ?_ sorted
    rintro a _ h rfl
    exact asymm h h
  obtain ⟨n, hn⟩ : ∃ n, front.length = n := ⟨_, rfl⟩
  rw [hn] at hlen ⊢
  refine (Subperm.perm_of_length_le (subperm_of_subset nodup fun a ha => ?_) ?_).symm
  · by_contra hout
    rw [← take_append_drop n xs] at sorted
    have hdrop : a ∈ xs.drop n := by
      have hmem := subset ha
      rw [← take_append_drop n xs] at hmem
      exact (mem_append.mp hmem).resolve_left hout
    -- with `a` behind them, all of the first `n` would be in the set
    have hall : ∀ d ∈ xs.take n, d ∈ front := by
      intro d hd
      by_contra hnot
      exact asymm (first a ha d (mem_of_mem_take hd) hnot)
        ((pairwise_append.mp sorted).2.2 d hd a hdrop)
    have hcons : (a :: xs.take n).Nodup :=
      nodup_cons.mpr ⟨hout, hnodup.sublist (take_sublist n xs)⟩
    have hle := (subperm_of_subset hcons (cons_subset.mpr ⟨ha, hall⟩)).length_le
    rw [length_cons, length_take] at hle
    omega
  · rw [length_take]
    omega

theorem getLast?_of_last {B : α → α → Prop} (asymm : ∀ {a b}, B a b → B b a → False)
    {xs : List α} (sorted : xs.Pairwise B) {e : α} (he : e ∈ xs)
    (last : ∀ d ∈ xs, d ≠ e → B d e) : xs.getLast? = some e := by
  obtain ⟨front, z, rfl⟩ : ∃ front z, xs = front ++ [z] :=
    ⟨_, _, (dropLast_append_getLast (ne_nil_of_mem he)).symm⟩
  rw [getLast?_concat]
  by_cases hz : z = e
  · rw [hz]
  · have hfront : e ∈ front :=
      (mem_append.mp he).resolve_right fun h => hz (mem_singleton.mp h).symm
    exact (asymm (last z (mem_append_right _ mem_cons_self) hz)
      ((pairwise_append.mp sorted).2.2 e hfront z mem_cons_self)).elim

end NestGateway.StableSort
