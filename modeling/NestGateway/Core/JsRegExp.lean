import Mathlib.Logic.Relation
import NestGateway.Core.Text

/-! # Regular expressions with lookahead

The part of ECMAScript's patterns that has no captures, over any alphabet. A
matcher backtracks: it runs an expression on what is left of the text and hands
the position it reaches to a continuation. As nothing is captured, all there is
to know is whether some match exists, and `run_iff` says that backtracking finds
one exactly when there is one.
-/

namespace NestGateway.JsRegExp

/-- `bol` is `^`, `eol` is `$`, `cls` a class of characters, and `star` is greedy. -/
inductive Re (α : Type) where
  | bol
  | eol
  | cls (p : α → Bool)
  | seq (a b : Re α)
  | alt (a b : Re α)
  | star (a : Re α)
  /-- The lookahead `(?=a)`. -/
  | ahead (a : Re α)
  | eps

variable {α : Type}

namespace Re

/-- One after the other. -/
def all : List (Re α) → Re α
  | [] => eps
  | [a] => a
  | a :: as => seq a (all as)

/-- `a{n}`. -/
def times : Nat → Re α → Re α
  | 0, _ => eps
  | n + 1, a => seq a (times n a)

/-- The greedy `a{n,}`. -/
def atLeast (n : Nat) (a : Re α) : Re α := seq (times n a) (star a)

end Re

/-- A position: whether it is the first of the text, and what follows it. -/
structure Pos (α : Type) where
  first : Bool
  rest : List α

/-- Repeat a matcher as often as it makes progress, preferring more repetitions. -/
def repeatMatch (m : Pos α → (Pos α → Bool) → Bool) : Nat → Pos α → (Pos α → Bool) → Bool
  | 0, s, k => k s
  | fuel + 1, s, k =>
      m s (fun t => decide (t.rest.length < s.rest.length) && repeatMatch m fuel t k) || k s

/-- Match an expression from a position on and continue. -/
def Re.run : Re α → Pos α → (Pos α → Bool) → Bool
  | bol, s, k => s.first && k s
  | eol, s, k => s.rest.isEmpty && k s
  | cls p, s, k =>
      match s.rest with
      | [] => false
      | c :: rest => p c && k ⟨false, rest⟩
  | seq a b, s, k => a.run s fun t => b.run t k
  | alt a b, s, k => a.run s k || b.run s k
  | star a, s, k => repeatMatch a.run s.rest.length s k
  | ahead a, s, k => a.run s (fun _ => true) && k s
  | eps, s, k => k s

/-- Whether the expression matches at or after a position. -/
def testFrom (re : Re α) : Bool → List α → Bool
  | first, [] => re.run ⟨first, []⟩ fun _ => true
  | first, c :: cs => re.run ⟨first, c :: cs⟩ (fun _ => true) || testFrom re false cs

/-- `regexp.test(text)` -/
def test (re : Re α) (text : List α) : Bool := testFrom re true text

/-! ## Matches -/

/-- The expression has a match from one position to another. -/
def Re.Matches : Re α → Pos α → Pos α → Prop
  | bol, s, t => s = t ∧ s.first = true
  | eol, s, t => s = t ∧ s.rest = []
  | cls p, s, t => ∃ c, s.rest = c :: t.rest ∧ p c = true ∧ t.first = false
  | seq a b, s, t => ∃ u, a.Matches s u ∧ b.Matches u t
  | alt a b, s, t => a.Matches s t ∨ b.Matches s t
  | star a, s, t => Relation.ReflTransGen a.Matches s t
  | ahead a, s, t => s = t ∧ ∃ u, a.Matches s u
  | eps, s, t => s = t

theorem Re.Matches.progress {a : Re α} {s t : Pos α} (h : a.Matches s t) :
    s = t ∨ t.rest.length < s.rest.length := by
  induction a generalizing s t with
  | bol => exact Or.inl h.1
  | eol => exact Or.inl h.1
  | cls p =>
      obtain ⟨c, hrest, _, _⟩ := h
      right
      simp [hrest]
  | seq a b iha ihb =>
      obtain ⟨u, hsu, hut⟩ := h
      rcases iha hsu with rfl | hlt
      · exact ihb hut
      · rcases ihb hut with rfl | hlt'
        · exact Or.inr hlt
        · exact Or.inr (hlt'.trans hlt)
  | alt a b iha ihb =>
      rcases h with h | h
      · exact iha h
      · exact ihb h
  | star a ih =>
      unfold Re.Matches at h
      induction h with
      | refl => exact Or.inl rfl
      | tail _ hut ihsu =>
          rcases ih hut with rfl | hlt
          · exact ihsu
          · rcases ihsu with rfl | hlt'
            · exact Or.inr hlt
            · exact Or.inr (hlt.trans hlt')
  | ahead a _ => exact Or.inl h.1
  | eps => exact Or.inl h

theorem repeatMatch_of_done {m : Pos α → (Pos α → Bool) → Bool} {s : Pos α} {k : Pos α → Bool}
    (h : k s = true) (fuel : Nat) : repeatMatch m fuel s k = true := by
  cases fuel with
  | zero => exact h
  | succ fuel => simp [repeatMatch, h]

theorem repeatMatch_iff {a : Re α}
    (ha : ∀ (s : Pos α) (k : Pos α → Bool), a.run s k = true ↔ ∃ t, a.Matches s t ∧ k t = true)
    {fuel : Nat} {s : Pos α} (k : Pos α → Bool) (hfuel : s.rest.length ≤ fuel) :
    repeatMatch a.run fuel s k = true ↔ ∃ t, (Re.star a).Matches s t ∧ k t = true := by
  constructor
  · intro h
    induction fuel generalizing s with
    | zero => exact ⟨s, Relation.ReflTransGen.refl, h⟩
    | succ fuel ih =>
        rw [repeatMatch, Bool.or_eq_true] at h
        cases h with
        | inr hdone => exact ⟨s, Relation.ReflTransGen.refl, hdone⟩
        | inl hmore =>
            obtain ⟨t, hst, ht⟩ := (ha s _).mp hmore
            simp only [Bool.and_eq_true, decide_eq_true_eq] at ht
            obtain ⟨u, htu, hu⟩ := ih (by omega) ht.2
            exact ⟨u, Relation.ReflTransGen.head hst htu, hu⟩
  · rintro ⟨t, hst, ht⟩
    unfold Re.Matches at hst
    induction hst using Relation.ReflTransGen.head_induction_on generalizing fuel with
    | refl => exact repeatMatch_of_done ht fuel
    | head hsu _ ih =>
        rcases hsu.progress with rfl | hlt
        · exact ih hfuel
        · cases fuel with
          | zero => omega
          | succ fuel =>
              rw [repeatMatch, Bool.or_eq_true]
              left
              rw [ha]
              exact ⟨_, hsu, by simp [hlt, ih (by omega : _ ≤ fuel)]⟩

/-- Backtracking succeeds exactly when some match continues well. -/
theorem run_iff (a : Re α) (s : Pos α) (k : Pos α → Bool) :
    a.run s k = true ↔ ∃ t, a.Matches s t ∧ k t = true := by
  induction a generalizing s k with
  | bol =>
      rw [Re.run, Bool.and_eq_true]
      exact ⟨fun h => ⟨s, ⟨rfl, h.1⟩, h.2⟩, fun ⟨t, ⟨hst, hs⟩, ht⟩ => ⟨hs, hst ▸ ht⟩⟩
  | eol =>
      rw [Re.run, Bool.and_eq_true, List.isEmpty_iff]
      exact ⟨fun h => ⟨s, ⟨rfl, h.1⟩, h.2⟩, fun ⟨t, ⟨hst, hs⟩, ht⟩ => ⟨hs, hst ▸ ht⟩⟩
  | cls p =>
      unfold Re.run Re.Matches
      cases hrest : s.rest with
      | nil => simp
      | cons c rest =>
          simp only [Bool.and_eq_true]
          constructor
          · intro h
            exact ⟨⟨false, rest⟩, ⟨c, rfl, h.1, rfl⟩, h.2⟩
          · rintro ⟨⟨first, rest'⟩, ⟨d, hd, hp, hfirst⟩, ht⟩
            obtain ⟨rfl, rfl⟩ := List.cons.inj hd
            obtain rfl : first = false := hfirst
            exact ⟨hp, ht⟩
  | seq a b iha ihb =>
      rw [Re.run, iha]
      constructor
      · rintro ⟨u, hsu, hu⟩
        obtain ⟨t, hut, ht⟩ := (ihb u k).mp hu
        exact ⟨t, ⟨u, hsu, hut⟩, ht⟩
      · rintro ⟨t, ⟨u, hsu, hut⟩, ht⟩
        exact ⟨u, hsu, (ihb u k).mpr ⟨t, hut, ht⟩⟩
  | alt a b iha ihb =>
      rw [Re.run, Bool.or_eq_true, iha, ihb, ← exists_or]
      exact exists_congr fun t => or_and_right.symm
  | star a ih => exact repeatMatch_iff ih k le_rfl
  | ahead a ih =>
      rw [Re.run, Bool.and_eq_true, ih]
      constructor
      · rintro ⟨⟨u, hsu, _⟩, hs⟩
        exact ⟨s, ⟨rfl, u, hsu⟩, hs⟩
      · rintro ⟨t, ⟨rfl, u, hsu⟩, ht⟩
        exact ⟨⟨u, hsu, rfl⟩, ht⟩
  | eps =>
      unfold Re.run Re.Matches
      simp

def Re.MatchesAt (a : Re α) (s : Pos α) : Prop := ∃ t, a.Matches s t

theorem run_true_iff {a : Re α} {s : Pos α} : a.run s (fun _ => true) = true ↔ a.MatchesAt s := by
  rw [run_iff]
  exact exists_congr fun t => and_iff_left rfl

/-- The expression matches at the beginning of the text only. -/
def Re.Anchored (a : Re α) : Prop := ∀ s, a.MatchesAt s → s.first = true

theorem anchored_bol (a : Re α) : (Re.seq Re.bol a).Anchored := by
  rintro s ⟨t, u, hsu, _⟩
  exact hsu.2

theorem Re.Anchored.alt {a b : Re α} (ha : a.Anchored) (hb : b.Anchored) :
    (Re.alt a b).Anchored := by
  rintro s ⟨t, h | h⟩
  · exact ha s ⟨t, h⟩
  · exact hb s ⟨t, h⟩

theorem test_anchored {a : Re α} (ha : a.Anchored) (text : List α) :
    test a text = true ↔ a.MatchesAt ⟨true, text⟩ := by
  have hlater : ∀ cs : List α, testFrom a false cs = false := by
    have hno : ∀ cs : List α, a.run ⟨false, cs⟩ (fun _ => true) = false := fun cs => by
      rw [← Bool.not_eq_true, run_true_iff]
      exact fun h => Bool.false_ne_true (ha _ h)
    intro cs
    induction cs with
    | nil => exact hno []
    | cons c cs ih => rw [testFrom, hno, ih, Bool.false_or]
  unfold test
  cases text with
  | nil => exact run_true_iff
  | cons c cs => rw [testFrom, hlater, Bool.or_false, run_true_iff]

/-! ## Where the parts match -/

theorem matchesAt_alt {a b : Re α} {s : Pos α} :
    (Re.alt a b).MatchesAt s ↔ a.MatchesAt s ∨ b.MatchesAt s := exists_or

theorem matchesAt_bol {a : Re α} {text : List α} :
    (Re.seq Re.bol a).MatchesAt ⟨true, text⟩ ↔ a.MatchesAt ⟨true, text⟩ := by
  constructor
  · rintro ⟨t, u, ⟨rfl, _⟩, ht⟩
    exact ⟨t, ht⟩
  · rintro ⟨t, ht⟩
    exact ⟨t, _, ⟨rfl, rfl⟩, ht⟩

/-- A lookahead is a condition on the text from where it stands. -/
theorem matchesAt_ahead {a b : Re α} {s : Pos α} :
    (Re.seq (Re.ahead a) b).MatchesAt s ↔ a.MatchesAt s ∧ b.MatchesAt s := by
  constructor
  · rintro ⟨t, u, ⟨rfl, hahead⟩, ht⟩
    exact ⟨hahead, t, ht⟩
  · rintro ⟨hahead, t, ht⟩
    exact ⟨t, s, ⟨rfl, hahead⟩, ht⟩

theorem matchesAt_seq_alt {a b c : Re α} {s : Pos α} :
    (Re.seq (Re.alt a b) c).MatchesAt s ↔ (Re.seq a c).MatchesAt s ∨ (Re.seq b c).MatchesAt s := by
  constructor
  · rintro ⟨t, u, ha | hb, ht⟩
    · exact Or.inl ⟨t, u, ha, ht⟩
    · exact Or.inr ⟨t, u, hb, ht⟩
  · rintro (⟨t, u, ha, ht⟩ | ⟨t, u, hb, ht⟩)
    · exact ⟨t, u, Or.inl ha, ht⟩
    · exact ⟨t, u, Or.inr hb, ht⟩

theorem matchesAt_seq_assoc {a b c : Re α} {s : Pos α} :
    (Re.seq (Re.seq a b) c).MatchesAt s ↔ (Re.seq a (Re.seq b c)).MatchesAt s := by
  constructor
  · rintro ⟨t, u, ⟨v, hsv, hvu⟩, hut⟩
    exact ⟨t, v, hsv, u, hvu, hut⟩
  · rintro ⟨t, v, hsv, u, hvu, hut⟩
    exact ⟨t, u, ⟨v, hsv, hvu⟩, hut⟩

theorem matches_star_cls {p : α → Bool} {s : Pos α} {rest : List α} :
    (∃ f, (Re.star (Re.cls p)).Matches s ⟨f, rest⟩) ↔
      ∃ xs, s.rest = xs ++ rest ∧ ∀ c ∈ xs, p c = true := by
  constructor
  · rintro ⟨f, h⟩
    have hpassed : ∀ t, (Re.star (Re.cls p)).Matches s t →
        ∃ xs, s.rest = xs ++ t.rest ∧ ∀ c ∈ xs, p c = true := by
      intro t hst
      unfold Re.Matches at hst
      induction hst with
      | refl => exact ⟨[], rfl, fun c hc => absurd hc List.not_mem_nil⟩
      | tail _ hut ih =>
          obtain ⟨xs, hrest, hall⟩ := ih
          obtain ⟨c, hc, hp, _⟩ := hut
          refine ⟨xs ++ [c], by rw [hrest, hc, List.append_assoc, List.singleton_append], ?_⟩
          intro d hd
          rcases List.mem_append.mp hd with hd | hd
          · exact hall d hd
          · exact List.mem_singleton.mp hd ▸ hp
    exact hpassed _ h
  · rintro ⟨xs, hrest, hall⟩
    induction xs generalizing s with
    | nil =>
        obtain ⟨first, cs⟩ := s
        obtain rfl : cs = rest := hrest
        exact ⟨first, Relation.ReflTransGen.refl⟩
    | cons c xs ih =>
        obtain ⟨f, hmore⟩ := ih (s := ⟨false, xs ++ rest⟩) rfl fun d hd =>
          hall d (List.mem_cons_of_mem _ hd)
        have hc : (Re.cls p).Matches s ⟨false, xs ++ rest⟩ :=
          ⟨c, hrest, hall c List.mem_cons_self, rfl⟩
        exact ⟨f, Relation.ReflTransGen.head hc hmore⟩

/-- `.*q` from a position on, where `p` is the class of the dot. -/
theorem matchesAt_scan {p q : α → Bool} {s : Pos α} :
    (Re.seq (Re.star (Re.cls p)) (Re.cls q)).MatchesAt s ↔
      ∃ xs c rest, s.rest = xs ++ c :: rest ∧ (∀ d ∈ xs, p d = true) ∧ q c = true := by
  constructor
  · rintro ⟨t, u, hstar, c, hc, hq, _⟩
    obtain ⟨xs, hrest, hall⟩ := matches_star_cls.mp ⟨u.first, hstar⟩
    exact ⟨xs, c, t.rest, by rw [hrest, hc], hall, hq⟩
  · rintro ⟨xs, c, rest, hrest, hall, hq⟩
    obtain ⟨f, hstar⟩ := matches_star_cls.mpr ⟨xs, hrest, hall⟩
    exact ⟨⟨false, rest⟩, _, hstar, c, rfl, hq, rfl⟩

theorem matchesAt_scan_line {p q : α → Bool} {s : Pos α} (h : ∀ c ∈ s.rest, p c = true) :
    (Re.seq (Re.star (Re.cls p)) (Re.cls q)).MatchesAt s ↔ ∃ c ∈ s.rest, q c = true := by
  rw [matchesAt_scan]
  constructor
  · rintro ⟨xs, c, rest, hrest, _, hq⟩
    exact ⟨c, by simp [hrest], hq⟩
  · rintro ⟨c, hc, hq⟩
    obtain ⟨xs, rest, hrest⟩ := List.append_of_mem hc
    exact ⟨xs, c, rest, hrest, fun d hd => h d (by simp [hrest, hd]), hq⟩

theorem matchesAt_atLeast_eol {p : α → Bool} {n : Nat} {s : Pos α} :
    (Re.seq (Re.atLeast n (Re.cls p)) Re.eol).MatchesAt s ↔
      n ≤ s.rest.length ∧ ∀ c ∈ s.rest, p c = true := by
  have hstar : ∀ s : Pos α, (Re.seq (Re.star (Re.cls p)) Re.eol).MatchesAt s ↔
      ∀ c ∈ s.rest, p c = true := by
    intro s
    constructor
    · rintro ⟨t, u, hstar, rfl, hnil⟩
      obtain ⟨xs, hrest, hall⟩ := matches_star_cls.mp ⟨u.first, hstar⟩
      rwa [hrest, hnil, List.append_nil]
    · intro hall
      obtain ⟨f, hstar⟩ := matches_star_cls.mpr ⟨s.rest, (List.append_nil _).symm, hall⟩
      exact ⟨_, _, hstar, rfl, rfl⟩
  unfold Re.atLeast
  rw [matchesAt_seq_assoc]
  induction n generalizing s with
  | zero =>
      have heps : (Re.seq (Re.times 0 (Re.cls p)) (Re.seq (Re.star (Re.cls p)) Re.eol)).MatchesAt s
          ↔ (Re.seq (Re.star (Re.cls p)) Re.eol).MatchesAt s :=
        ⟨fun ⟨t, _, rfl, ht⟩ => ⟨t, ht⟩, fun ⟨t, ht⟩ => ⟨t, s, rfl, ht⟩⟩
      rw [heps, hstar]
      simp
  | succ n ih =>
      constructor
      · rintro ⟨t, u, ⟨v, ⟨c, hc, hp, _⟩, hvu⟩, hut⟩
        have hmore := ih.mp ⟨t, u, hvu, hut⟩
        rw [hc]
        exact ⟨Nat.succ_le_succ hmore.1, List.forall_mem_cons.mpr ⟨hp, hmore.2⟩⟩
      · rintro ⟨hlen, hall⟩
        cases hrest : s.rest with
        | nil => simp [hrest] at hlen
        | cons c cs =>
            rw [hrest] at hlen hall
            obtain ⟨hp, hmore⟩ := List.forall_mem_cons.mp hall
            obtain ⟨t, u, hvu, hut⟩ := (ih (s := ⟨false, cs⟩)).mpr
              ⟨Nat.le_of_succ_le_succ hlen, hmore⟩
            exact ⟨t, u, ⟨⟨false, cs⟩, ⟨c, hrest, hp, rfl⟩, hvu⟩, hut⟩

end NestGateway.JsRegExp
