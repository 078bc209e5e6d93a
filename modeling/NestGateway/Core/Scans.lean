import Mathlib.Data.List.Forall2

/-! # Scans for occurrences

A scan goes through a text from left to right, takes every occurrence it comes
to, and goes on behind it. The occurrences it takes are one list for any
property of positions and any length. Two scans, of one text in two forms, take
corresponding occurrences exactly when what either takes corresponds to
something that occurs in the other form.
-/

namespace NestGateway.Scans

/-- The positions that a scan takes from `s` on, where `occurs` says where an occurrence begins and
`m` is the length of one. -/
inductive Scan (occurs : Nat → Prop) (m : Nat) : Nat → List Nat → Prop where
  | done {s : Nat} (none : ∀ p, s ≤ p → ¬ occurs p) : Scan occurs m s []
  | take {s p : Nat} {ps : List Nat} (later : s ≤ p) (here : occurs p)
      (first : ∀ p', s ≤ p' → occurs p' → p ≤ p') (rest : Scan occurs m (p + m) ps) :
      Scan occurs m s (p :: ps)

section Scan

variable {occurs : Nat → Prop} {m : Nat}

theorem Scan.occurs_of_mem {s p : Nat} {ps : List Nat} (h : Scan occurs m s ps) (hp : p ∈ ps) :
    occurs p := by
  induction h with
  | done none => cases hp
  | take later here first rest ih =>
      rcases List.mem_cons.mp hp with rfl | hp
      · exact here
      · exact ih hp

theorem Scan.le_of_mem {s p : Nat} {ps : List Nat} (h : Scan occurs m s ps) (hp : p ∈ ps) :
    s ≤ p := by
  induction h with
  | done none => cases hp
  | take later here first rest ih =>
      rcases List.mem_cons.mp hp with rfl | hp
      · exact later
      · have := ih hp
        omega

end Scan

section Pairs

variable {occurs occurs' : Nat → Prop} {m m' : Nat} {corr : Nat → Nat → Prop}

/-- What begins at corresponding positions is in the same order in both forms, and so are the ends
of one occurrence and the beginning of another. -/
structure Aligned (corr : Nat → Nat → Prop) (m m' : Nat) : Prop where
  begins : ∀ {p q p' q'}, corr p q → corr p' q' → (p ≤ p' ↔ q ≤ q')
  ends : ∀ {p q p' q'}, corr p q → corr p' q' → (p + m ≤ p' ↔ q + m' ≤ q')

theorem forall₂_of_scans (haligned : Aligned corr m m') {s t : Nat} {ps qs : List Nat}
    (hps : Scan occurs m s ps) (hqs : Scan occurs' m' t qs)
    (hstart : ∀ {p q}, corr p q → (s ≤ p ↔ t ≤ q))
    (hleft : ∀ p ∈ ps, ∃ q, occurs' q ∧ corr p q) (hright : ∀ q ∈ qs, ∃ p, occurs p ∧ corr p q) :
    List.Forall₂ corr ps qs := by
  induction hps generalizing t qs with
  | done none =>
      cases hqs with
      | done => exact List.Forall₂.nil
      | take later =>
          obtain ⟨p, hp, hcorr⟩ := hright _ List.mem_cons_self
          exact absurd hp (none p ((hstart hcorr).mpr later))
  | @take s p ps later here first rest ih =>
      obtain ⟨q', hq', hcorr'⟩ := hleft p List.mem_cons_self
      have hlater' := (hstart hcorr').mp later
      cases hqs with
      | done none => exact absurd hq' (none q' hlater')
      | @take _ q qs laterq hereq firstq restq =>
          -- the first positions correspond, as neither can come before the other
          obtain ⟨p', hp', hcorr⟩ := hright q List.mem_cons_self
          have hle : p ≤ p' := first p' ((hstart hcorr).mpr laterq) hp'
          obtain rfl : q = q' := Nat.le_antisymm (firstq q' hlater' hq')
            ((haligned.begins hcorr' hcorr).mp hle)
          refine List.Forall₂.cons hcorr' (ih restq (fun h => haligned.ends hcorr' h)
            (fun r hr => hleft r (List.mem_cons_of_mem p hr))
            (fun r hr => hright r (List.mem_cons_of_mem q hr)))

/-- Two scans take corresponding positions exactly when each takes what corresponds to an
occurrence. -/
theorem forall₂_iff (haligned : Aligned corr m m') {s t : Nat} {ps qs : List Nat}
    (hps : Scan occurs m s ps) (hqs : Scan occurs' m' t qs)
    (hstart : ∀ {p q}, corr p q → (s ≤ p ↔ t ≤ q)) :
    List.Forall₂ corr ps qs ↔
      (∀ p ∈ ps, ∃ q, occurs' q ∧ corr p q) ∧ (∀ q ∈ qs, ∃ p, occurs p ∧ corr p q) := by
  constructor
  · intro h
    have hps' : ∀ p ∈ ps, occurs p := fun p => hps.occurs_of_mem
    have hqs' : ∀ q ∈ qs, occurs' q := fun q => hqs.occurs_of_mem
    clear hps hqs hstart
    induction h with
    | nil => exact ⟨fun p hp => absurd hp List.not_mem_nil, fun q hq => absurd hq List.not_mem_nil⟩
    | @cons p q ps qs hcorr _ ih =>
        obtain ⟨hp, hps⟩ := List.forall_mem_cons.mp hps'
        obtain ⟨hq, hqs⟩ := List.forall_mem_cons.mp hqs'
        obtain ⟨hleft, hright⟩ := ih hps hqs
        exact ⟨List.forall_mem_cons.mpr ⟨⟨q, hq, hcorr⟩, hleft⟩,
          List.forall_mem_cons.mpr ⟨⟨p, hp, hcorr⟩, hright⟩⟩
  · rintro ⟨hleft, hright⟩
    exact forall₂_of_scans haligned hps hqs hstart hleft hright

end Pairs

theorem forall₂_iff_getElem? {α β : Type} {R : α → β → Prop} {xs : List α} {ys : List β} :
    List.Forall₂ R xs ys ↔ xs.length = ys.length ∧
      ∀ (k : Nat) (x : α), xs[k]? = some x → ∃ y, ys[k]? = some y ∧ R x y := by
  rw [List.forall₂_iff_get]
  refine and_congr_right fun hlen => ?_
  constructor
  · intro h k x hx
    obtain ⟨hk, rfl⟩ := List.getElem?_eq_some_iff.mp hx
    exact ⟨_, List.getElem?_eq_getElem (hlen ▸ hk), h k hk (hlen ▸ hk)⟩
  · intro h k hk hk'
    obtain ⟨y, hy, hxy⟩ := h k _ (List.getElem?_eq_getElem hk)
    obtain ⟨_, rfl⟩ := List.getElem?_eq_some_iff.mp hy
    exact hxy

theorem take_append_between {α : Type} (text : List α) {s p : Nat} (hsp : s ≤ p) :
    (text.drop s).take (p - s) ++ text.drop p = text.drop s := by
  have hdrop : (text.drop s).drop (p - s) = text.drop p := by
    rw [List.drop_drop, Nat.add_sub_cancel' hsp]
  rw [← hdrop, List.take_append_drop]

theorem length_front_le_iff {α β : Type} (write : α → List β) {a a' rest rest' : List α} {y : α}
    (h : a ++ rest = a' ++ y :: rest') (hy : write y ≠ []) :
    (a.flatMap write).length ≤ (a'.flatMap write).length ↔ a.length ≤ a'.length := by
  have hpos := List.length_pos_iff.mpr hy
  constructor
  · intro hle
    by_contra hgt
    have hbegin : a' <+: a := List.prefix_of_prefix_length_le ⟨y :: rest', h.symm⟩
      (List.prefix_append a rest) (by omega)
    obtain ⟨more, rfl⟩ := hbegin
    rw [List.append_assoc] at h
    cases more with
    | nil => simp at hgt
    | cons c more =>
        obtain ⟨rfl, _⟩ := List.cons.inj (List.append_cancel_left h)
        rw [List.flatMap_append, List.flatMap_cons, List.length_append, List.length_append] at hle
        omega
  · intro hle
    have hbegin : a <+: a' := List.prefix_of_prefix_length_le ⟨rest, h⟩
      (List.prefix_append a' _) hle
    obtain ⟨more, rfl⟩ := hbegin
    rw [List.flatMap_append, List.length_append]
    exact Nat.le_add_right _ _

section Hits

variable {α : Type} (occurs : List α → Bool) (m : Nat)

/-- The positions from `p` on that a scan takes: after one it skips the `m - 1` positions that
follow. -/
def hitsFrom : Nat → Nat → List α → List Nat
  | _, _, [] => []
  | p, skip + 1, _ :: cs => hitsFrom (p + 1) skip cs
  | p, 0, c :: cs =>
      if occurs (c :: cs) then p :: hitsFrom (p + 1) (m - 1) cs else hitsFrom (p + 1) 0 cs

def hits (text : List α) : List Nat := hitsFrom occurs m 0 0 text

variable {occurs m}

theorem hitsFrom_skip (p skip : Nat) (cs : List α) :
    hitsFrom occurs m p skip cs = hitsFrom occurs m (p + skip) 0 (cs.drop skip) := by
  induction skip generalizing p cs with
  | zero => rfl
  | succ skip ih =>
      cases cs with
      | nil => simp [hitsFrom]
      | cons c cs =>
          rw [hitsFrom, ih, List.drop_succ_cons]
          congr 1
          omega

theorem length_hitsFrom_le (p skip : Nat) (cs : List α) :
    (hitsFrom occurs m p skip cs).length ≤ cs.length := by
  induction cs generalizing p skip with
  | nil => simp [hitsFrom]
  | cons c cs ih =>
      cases skip with
      | zero =>
          rw [hitsFrom]
          split
          · exact Nat.succ_le_succ (ih _ _)
          · exact Nat.le_succ_of_le (ih _ _)
      | succ skip => exact Nat.le_succ_of_le (ih _ _)

/-- The list of hits is a scan, where nothing occurs at the end of the text. -/
theorem scan_hitsFrom (hnil : occurs [] = false) (hm : 1 ≤ m) (text : List α) (p : Nat) :
    Scan (fun q => occurs (text.drop q) = true) m p (hitsFrom occurs m p 0 (text.drop p)) := by
  induction hn : text.length - p using Nat.strongRecOn generalizing p with
  | _ n ih =>
      subst hn
      cases hrest : text.drop p with
      | nil =>
          refine Scan.done fun q hq hocc => ?_
          have hend : text.drop q = [] :=
            List.drop_eq_nil_of_le (Nat.le_trans (List.drop_eq_nil_iff.mp hrest) hq)
          rw [hend, hnil] at hocc
          exact Bool.false_ne_true hocc
      | cons c cs =>
          have hlt : p < text.length := by
            rw [← Nat.not_le, ← List.drop_eq_nil_iff, hrest]
            exact List.cons_ne_nil c cs
          have hcs : cs = text.drop (p + 1) := by
            rw [← List.drop_drop, hrest]
            rfl
          rw [hitsFrom]
          split
          next hocc =>
            rw [hitsFrom_skip, hcs, List.drop_drop]
            have hnext : p + 1 + (m - 1) = p + m := by omega
            rw [hnext]
            refine Scan.take (Nat.le_refl p) (by rwa [hrest]) (fun q hq _ => hq) ?_
            exact ih _ (by omega) (p + m) rfl
          next hocc =>
            rw [hcs]
            have hskip : ∀ q, p ≤ q → occurs (text.drop q) = true → p + 1 ≤ q := by
              intro q hq hq'
              rcases Nat.lt_or_eq_of_le hq with h | rfl
              · exact h
              · rw [hrest] at hq'
                exact absurd hq' hocc
            have hmore := ih _ (by omega) (p + 1) rfl
            generalize hitsFrom occurs m (p + 1) 0 (text.drop (p + 1)) = ps at hmore
            cases hmore with
            | done none => exact Scan.done fun q hq hq' => none q (hskip q hq hq') hq'
            | take later here first rest =>
                exact Scan.take (by omega) here (fun q hq hq' => first q (hskip q hq hq') hq') rest

theorem scan_hits (hnil : occurs [] = false) (hm : 1 ≤ m) (text : List α) :
    Scan (fun q => occurs (text.drop q) = true) m 0 (hits occurs m text) :=
  scan_hitsFrom hnil hm text 0

end Hits

end NestGateway.Scans
