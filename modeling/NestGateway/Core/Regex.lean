import NestGateway.Core.Text

/-! # Regular expressions

The fragment of Go's `regexp` syntax that the log-streamer uses, matched by
backtracking: leftmost, then preferring the first alternative and the longer
repetition. A matcher runs an expression on what is left of the text and hands
the state it reaches to a continuation.
-/

namespace NestGateway.Regex

/-- `bol` is `^`, `eol` is `$`, `cls` a class of characters, and `star` is greedy. -/
inductive Re where
  | bol
  | eol
  | cls (p : Char → Bool)
  | seq (a b : Re)
  | alt (a b : Re)
  | star (a : Re)
  /-- The capture group with a number. -/
  | group (n : Nat) (a : Re)
  | eps

namespace Re

def char (c : Char) : Re := cls (· == c)

/-- One after the other. -/
def all : List Re → Re
  | [] => eps
  | [a] => a
  | a :: as => seq a (all as)

/-- The literal text. -/
def lit (s : String) : Re := all (s.toList.map char)

/-- The greedy `a+`. -/
def plus (a : Re) : Re := seq a (star a)

/-- The greedy `a?`. -/
def opt (a : Re) : Re := alt a eps

/-- `a{n}`. -/
def times (n : Nat) (a : Re) : Re := all (List.replicate n a)

/-- At most `n` times, greedily. -/
def upTo : Nat → Re → Re
  | 0, _ => eps
  | n + 1, a => opt (seq a (upTo n a))

/-- The greedy `a{m,n}`. -/
def between (m n : Nat) (a : Re) : Re := seq (times m a) (upTo (n - m) a)

/-- `\d`. -/
def digit : Re := cls Text.isDigit

/-- `\s`. -/
def space : Re := cls fun c => c ∈ ['\t', '\n', Char.ofNat 0x0C, '\r', ' ']

/-- `\S`. -/
def nonSpace : Re := cls fun c => !(c ∈ ['\t', '\n', Char.ofNat 0x0C, '\r', ' '])

/-- `\w`. -/
def word : Re :=
  cls fun c => Text.isDigit c || ('a' ≤ c && c ≤ 'z') || ('A' ≤ c && c ≤ 'Z') || c == '_'

/-- `.`, any character but a line feed. -/
def dot : Re := cls (· != '\n')

/-- `[^c]`. -/
def notChar (c : Char) : Re := cls (· != c)

end Re

/-- A position in the text, with the groups captured on the way, the latest first. -/
structure State where
  first : Bool
  rest : List Char
  groups : List (Nat × String)

def State.textTo (s t : State) : String :=
  String.ofList (s.rest.take (s.rest.length - t.rest.length))

/-- Repeat a matcher as often as it makes progress, preferring more repetitions. -/
def repeatMatch {α : Type} (m : State → (State → Option α) → Option α) :
    Nat → State → (State → Option α) → Option α
  | 0, s, k => k s
  | fuel + 1, s, k =>
      (m s fun t => if t.rest.length < s.rest.length then repeatMatch m fuel t k else none).or
        (k s)

/-- Match an expression from a state on and continue. -/
def Re.run {α : Type} : Re → State → (State → Option α) → Option α
  | bol, s, k => if s.first then k s else none
  | eol, s, k => if s.rest.isEmpty then k s else none
  | cls p, s, k =>
      match s.rest with
      | [] => none
      | c :: rest => if p c then k ⟨false, rest, s.groups⟩ else none
  | seq a b, s, k => a.run s fun t => b.run t k
  | alt a b, s, k => (a.run s k).or (b.run s k)
  | star a, s, k => repeatMatch a.run s.rest.length s k
  | group n a, s, k => a.run s fun t => k { t with groups := (n, s.textTo t) :: t.groups }
  | eps, s, k => k s

/-- A match: the groups and what follows it. -/
structure Match where
  groups : List (Nat × String)
  rest : List Char
  deriving Repr, DecidableEq

/-- The text of a group, empty when it took no part in the match. -/
def Match.group (m : Match) (n : Nat) : String := (m.groups.lookup n).getD ""

/-- The leftmost match at or after a position. -/
def findFrom (re : Re) : Bool → List Char → Option Match
  | first, [] => re.run ⟨first, [], []⟩ fun t => some ⟨t.groups, t.rest⟩
  | first, c :: cs =>
      (re.run ⟨first, c :: cs, []⟩ fun t => some ⟨t.groups, t.rest⟩).or (findFrom re false cs)

/-- `FindStringSubmatch`. -/
def find (re : Re) (s : String) : Option Match := findFrom re true s.toList

/-- `MatchString`. -/
def test (re : Re) (s : String) : Bool := (find re s).isSome

/-- The successive matches of an expression that does not match the empty text. -/
def findAllFrom (re : Re) : Nat → Bool → List Char → List Match
  | 0, _, _ => []
  | fuel + 1, first, cs =>
      match findFrom re first cs with
      | none => []
      | some m => m :: findAllFrom re fuel false m.rest

/-- `FindAllStringSubmatch`. -/
def findAll (re : Re) (s : String) : List Match :=
  findAllFrom re (s.toList.length + 1) true s.toList

section Run

variable {α : Type} (a b : Re) (s : State) (k : State → Option α)

theorem run_bol : Re.bol.run s k = if s.first then k s else none := rfl

theorem run_eol : Re.eol.run s k = if s.rest.isEmpty then k s else none := rfl

theorem run_seq : (Re.seq a b).run s k = a.run s fun t => b.run t k := rfl

theorem run_alt : (Re.alt a b).run s k = (a.run s k).or (b.run s k) := rfl

theorem run_star : (Re.star a).run s k = repeatMatch a.run s.rest.length s k := rfl

theorem run_group (n : Nat) : (Re.group n a).run s k =
    a.run s fun t => k { t with groups := (n, s.textTo t) :: t.groups } := rfl

theorem repeatMatch_succ (m : State → (State → Option α) → Option α) (fuel : Nat) :
    repeatMatch m (fuel + 1) s k =
      (m s fun t => if t.rest.length < s.rest.length then repeatMatch m fuel t k else none).or
        (k s) := rfl

end Run

theorem findFrom_cons (re : Re) (first : Bool) (c : Char) (cs : List Char) :
    findFrom re first (c :: cs) =
      (re.run ⟨first, c :: cs, []⟩ fun t => some ⟨t.groups, t.rest⟩).or (findFrom re false cs) :=
  rfl

/-- The match that is found, as `find` builds it. -/
def State.toMatch (t : State) : Option Match := some ⟨t.groups, t.rest⟩

theorem findFrom_of_run {re : Re} {first : Bool} {cs : List Char} {m : Match}
    (h : re.run ⟨first, cs, []⟩ State.toMatch = some m) : findFrom re first cs = some m := by
  cases cs with
  | nil => exact h
  | cons c cs => exact Option.or_eq_some_iff.mpr (Or.inl h)

/-! ## Matches without backtracking -/

/-- An expression takes `xs` when `rest` follows, and continues where the continuation succeeds. -/
def Takes (a : Re) (xs rest : List Char) : Prop :=
  ∀ (k : State → Option Match) (first : Bool) (groups : List (Nat × String)),
    (∀ f, (k ⟨f, rest, groups⟩).isSome = true) →
      ∃ f, a.run ⟨first, xs ++ rest, groups⟩ k = k ⟨f, rest, groups⟩

def Fails (a : Re) (cs : List Char) : Prop :=
  ∀ (k : State → Option Match) (first : Bool) (groups : List (Nat × String)),
    a.run ⟨first, cs, groups⟩ k = none

/-- The text does not begin with a character of the class. -/
def NoHead (p : Char → Bool) (cs : List Char) : Prop := ∀ c ∈ cs.head?, p c = false

theorem noHead_cons {p : Char → Bool} {c : Char} (h : p c = false) (cs : List Char) :
    NoHead p (c :: cs) := fun _ hd => Option.some.inj hd ▸ h

theorem noHead_nil {p : Char → Bool} : NoHead p [] := fun _ hd => by cases hd

theorem takes_eps (rest : List Char) : Takes Re.eps [] rest := fun _ first _ _ => ⟨first, rfl⟩

theorem run_cls {α : Type} {p : Char → Bool} {c : Char} (h : p c = true) (first : Bool)
    (cs : List Char) (groups : List (Nat × String)) (k : State → Option α) :
    (Re.cls p).run ⟨first, c :: cs, groups⟩ k = k ⟨false, cs, groups⟩ :=
  if_pos h

theorem takes_cls {p : Char → Bool} {c : Char} (h : p c = true) (rest : List Char) :
    Takes (Re.cls p) [c] rest := by
  intro k first groups _
  exact ⟨false, run_cls h first rest groups k⟩

theorem takes_char (c : Char) (rest : List Char) : Takes (Re.char c) [c] rest :=
  takes_cls (beq_self_eq_true c) rest

theorem fails_cls {p : Char → Bool} {cs : List Char} (h : NoHead p cs) : Fails (Re.cls p) cs := by
  intro k first groups
  cases cs with
  | nil => rfl
  | cons c cs => exact if_neg (by rw [h c rfl]; decide)

theorem Takes.seq {a b : Re} {xs ys rest : List Char} (ha : Takes a xs (ys ++ rest))
    (hb : Takes b ys rest) : Takes (Re.seq a b) (xs ++ ys) rest := by
  intro k first groups hk
  obtain ⟨f, hrun⟩ := ha (fun t => b.run t k) first groups fun f => by
    obtain ⟨f', hb'⟩ := hb k f groups hk
    rw [hb']
    exact hk f'
  obtain ⟨f', hb'⟩ := hb k f groups hk
  exact ⟨f', by rw [List.append_assoc, run_seq, hrun, hb']⟩

theorem Takes.cons {p : Char → Bool} {c : Char} (h : p c = true) {b : Re} {ys rest : List Char}
    (hb : Takes b ys rest) : Takes (Re.seq (Re.cls p) b) (c :: ys) rest :=
  Takes.seq (takes_cls h _) hb

theorem Fails.seq {a b : Re} {cs : List Char} (ha : Fails a cs) : Fails (Re.seq a b) cs :=
  fun _ first groups => ha _ first groups

theorem Fails.group {a : Re} {cs : List Char} (ha : Fails a cs) (n : Nat) :
    Fails (Re.group n a) cs :=
  fun _ first groups => ha _ first groups

theorem Takes.alt_left {a b : Re} {xs rest : List Char} (ha : Takes a xs rest) :
    Takes (Re.alt a b) xs rest := by
  intro k first groups hk
  obtain ⟨f, hrun⟩ := ha k first groups hk
  refine ⟨f, ?_⟩
  rw [run_alt, hrun, Option.or_of_isSome (hk f)]

theorem Takes.alt_right {a b : Re} {xs rest : List Char} (ha : Fails a (xs ++ rest))
    (hb : Takes b xs rest) : Takes (Re.alt a b) xs rest := by
  intro k first groups hk
  obtain ⟨f, hrun⟩ := hb k first groups hk
  exact ⟨f, by rw [run_alt, ha, hrun, Option.none_or]⟩

theorem takes_opt_nil {a : Re} {rest : List Char} (ha : Fails a rest) : Takes (Re.opt a) [] rest :=
  Takes.alt_right ha (takes_eps rest)

theorem takes_star {p : Char → Bool} {xs rest : List Char} (hall : ∀ c ∈ xs, p c = true)
    (hend : NoHead p rest) : Takes (Re.star (Re.cls p)) xs rest := by
  intro k first groups hk
  have hrepeat : ∀ fuel, xs.length ≤ fuel → ∃ f,
      repeatMatch (Re.cls p).run fuel ⟨first, xs ++ rest, groups⟩ k = k ⟨f, rest, groups⟩ := by
    induction xs generalizing first with
    | nil =>
        intro fuel _
        refine ⟨first, ?_⟩
        cases fuel with
        | zero => rfl
        | succ fuel => rw [repeatMatch_succ, List.nil_append, fails_cls hend, Option.none_or]
    | cons c xs ih =>
        intro fuel hfuel
        cases fuel with
        | zero => cases hfuel
        | succ fuel =>
            obtain ⟨f, hrun⟩ := ih (fun d hd => hall d (List.mem_cons_of_mem _ hd)) false fuel
              (Nat.le_of_succ_le_succ hfuel)
            refine ⟨f, ?_⟩
            rw [repeatMatch_succ, List.cons_append, run_cls (hall c List.mem_cons_self),
              if_pos (by simp), hrun]
            exact Option.or_of_isSome (hk f)
  exact hrepeat _ (by simp)

theorem takes_plus {p : Char → Bool} {xs rest : List Char} (hne : xs ≠ [])
    (hall : ∀ c ∈ xs, p c = true) (hend : NoHead p rest) :
    Takes (Re.plus (Re.cls p)) xs rest := by
  cases xs with
  | nil => exact absurd rfl hne
  | cons c xs =>
      exact Takes.cons (hall c List.mem_cons_self)
        (takes_star (fun d hd => hall d (List.mem_cons_of_mem _ hd)) hend)

theorem findFrom_group {a : Re} {xs rest : List Char} (ha : Takes a xs rest) :
    findFrom (Re.all [Re.bol, Re.group 1 a]) true (xs ++ rest) =
      some ⟨[(1, String.ofList xs)], rest⟩ := by
  have hrun : (Re.all [Re.bol, Re.group 1 a]).run ⟨true, xs ++ rest, []⟩
      (fun t => some ⟨t.groups, t.rest⟩) = some (⟨[(1, String.ofList xs)], rest⟩ : Match) := by
    obtain ⟨f, hrun⟩ := ha
      (fun t => some
        ⟨(1, State.textTo ⟨true, xs ++ rest, []⟩ t) :: t.groups, t.rest⟩) true [] fun _ => rfl
    simp only [Re.all, run_seq, run_bol, run_group, if_true]
    rw [hrun]
    simp [State.textTo]
  exact findFrom_of_run hrun

/-! ## Matches with groups -/

/-- An expression takes `xs` when `rest` follows and captures `gs`, and continues where the
continuation succeeds. -/
def Captures (a : Re) (xs rest : List Char) (gs : List (Nat × String)) : Prop :=
  ∀ (k : State → Option Match) (first : Bool) (groups : List (Nat × String)),
    (∀ f, (k ⟨f, rest, gs ++ groups⟩).isSome = true) →
      ∃ f, a.run ⟨first, xs ++ rest, groups⟩ k = k ⟨f, rest, gs ++ groups⟩

theorem Takes.captures {a : Re} {xs rest : List Char} (h : Takes a xs rest) :
    Captures a xs rest [] := h

theorem Captures.seq {a b : Re} {xs ys rest : List Char} {gs hs : List (Nat × String)}
    (ha : Captures a xs (ys ++ rest) gs) (hb : Captures b ys rest hs) :
    Captures (Re.seq a b) (xs ++ ys) rest (hs ++ gs) := by
  intro k first groups hk
  simp only [List.append_assoc] at hk ⊢
  obtain ⟨f, hrun⟩ := ha (fun t => b.run t k) first groups fun f => by
    obtain ⟨f', hb'⟩ := hb k f (gs ++ groups) hk
    rw [hb']
    exact hk f'
  obtain ⟨f', hb'⟩ := hb k f (gs ++ groups) hk
  exact ⟨f', by rw [run_seq, hrun, hb']⟩

theorem Captures.group {a : Re} {xs rest : List Char} {gs : List (Nat × String)} (n : Nat)
    (ha : Captures a xs rest gs) :
    Captures (Re.group n a) xs rest ((n, String.ofList xs) :: gs) := by
  intro k first groups hk
  obtain ⟨f, hrun⟩ := ha (fun t => k { t with
    groups := (n, State.textTo ⟨first, xs ++ rest, groups⟩ t) :: t.groups }) first groups
    fun f => by
      simp only [State.textTo, List.length_append, Nat.add_sub_cancel, List.take_left']
      exact hk f
  refine ⟨f, ?_⟩
  rw [run_group, hrun]
  simp [State.textTo]

theorem Captures.alt_left {a b : Re} {xs rest : List Char} {gs : List (Nat × String)}
    (ha : Captures a xs rest gs) : Captures (Re.alt a b) xs rest gs := by
  intro k first groups hk
  obtain ⟨f, hrun⟩ := ha k first groups hk
  refine ⟨f, ?_⟩
  rw [run_alt, hrun, Option.or_of_isSome (hk f)]

theorem Captures.opt {a : Re} {xs rest : List Char} {gs : List (Nat × String)}
    (ha : Captures a xs rest gs) : Captures (Re.opt a) xs rest gs :=
  ha.alt_left

theorem Captures.alt_right {a b : Re} {xs rest : List Char} {gs : List (Nat × String)}
    (ha : Fails a (xs ++ rest)) (hb : Captures b xs rest gs) :
    Captures (Re.alt a b) xs rest gs := by
  intro k first groups hk
  obtain ⟨f, hrun⟩ := hb k first groups hk
  exact ⟨f, by rw [run_alt, ha, hrun, Option.none_or]⟩

theorem captures_eol : Captures Re.eol [] [] [] := fun _ first _ _ => ⟨first, rfl⟩

theorem findFrom_captures {a : Re} {xs rest : List Char} {gs : List (Nat × String)}
    (ha : Captures a xs rest gs) (first : Bool) :
    findFrom a first (xs ++ rest) = some ⟨gs, rest⟩ := by
  obtain ⟨f, hrun⟩ := ha (fun t => some ⟨t.groups, t.rest⟩) first [] fun _ => rfl
  rw [List.append_nil] at hrun
  exact findFrom_of_run hrun

theorem Captures.isSome {a : Re} {cs : List Char} {gs : List (Nat × String)}
    (h : Captures a cs [] gs) (first : Bool) : (findFrom a first cs).isSome = true := by
  rw [← List.append_nil cs, findFrom_captures h]
  rfl

theorem find_bol {a : Re} {xs rest : List Char} {gs : List (Nat × String)}
    (ha : Captures a xs rest gs) :
    find (Re.seq Re.bol a) (String.ofList (xs ++ rest)) = some ⟨gs, rest⟩ := by
  have hrun : (Re.seq Re.bol a).run ⟨true, xs ++ rest, []⟩
      (fun t => some ⟨t.groups, t.rest⟩) = some (⟨gs, rest⟩ : Match) := by
    obtain ⟨f, hrun⟩ := ha (fun t => some ⟨t.groups, t.rest⟩) true [] fun _ => rfl
    rw [run_seq, run_bol, if_pos rfl, hrun, List.append_nil]
  rw [find, String.toList_ofList]
  exact findFrom_of_run hrun

/-- An expression can take nothing but `xs` when `rest` follows. -/
def Forces (a : Re) (xs rest : List Char) : Prop :=
  ∀ (k : State → Option Match) (first : Bool) (groups : List (Nat × String)),
    ∃ f, a.run ⟨first, xs ++ rest, groups⟩ k = k ⟨f, rest, groups⟩

theorem forces_cls {p : Char → Bool} {c : Char} (h : p c = true) (rest : List Char) :
    Forces (Re.cls p) [c] rest := by
  intro k first groups
  exact ⟨false, run_cls h first rest groups k⟩

theorem Forces.seq {a b : Re} {xs ys rest : List Char} (ha : Forces a xs (ys ++ rest))
    (hb : Forces b ys rest) : Forces (Re.seq a b) (xs ++ ys) rest := by
  intro k first groups
  obtain ⟨f, hrun⟩ := ha (fun t => b.run t k) first groups
  obtain ⟨f', hb'⟩ := hb k f groups
  exact ⟨f', by rw [List.append_assoc, run_seq, hrun, hb']⟩

theorem Forces.fails {a b : Re} {xs rest : List Char} (ha : Forces a xs rest)
    (hb : Fails b rest) : Fails (Re.seq a b) (xs ++ rest) := by
  intro k first groups
  obtain ⟨f, hrun⟩ := ha (fun t => b.run t k) first groups
  rw [run_seq, hrun, hb]

theorem forces_plus {p : Char → Bool} {c : Char} (h : p c = true) {rest : List Char}
    (hend : NoHead p rest) : Forces (Re.plus (Re.cls p)) [c] rest := by
  intro k first groups
  refine ⟨false, ?_⟩
  rw [Re.plus, run_seq, List.singleton_append, run_cls h, run_star]
  cases rest with
  | nil => rfl
  | cons d rest =>
      show repeatMatch (Re.cls p).run (rest.length + 1) _ k = _
      rw [repeatMatch_succ, fails_cls hend, Option.none_or]

/-- A repetition up to the first character it cannot take, where something else has to follow. -/
theorem forces_until {p q : Char → Bool} {xs : List Char} {d : Char}
    (hall : ∀ c ∈ xs, p c = true ∧ q c = false) (hp : p d = false) (hq : q d = true)
    (rest : List Char) : Forces (Re.seq (Re.star (Re.cls p)) (Re.cls q)) (xs ++ [d]) rest := by
  intro k first groups
  refine ⟨false, ?_⟩
  have hrepeat : ∀ fuel, xs.length < fuel →
      repeatMatch (Re.cls p).run fuel ⟨first, xs ++ d :: rest, groups⟩
        (fun t => (Re.cls q).run t k) = k ⟨false, rest, groups⟩ := by
    induction xs generalizing first with
    | nil =>
        intro fuel hfuel
        obtain ⟨fuel, rfl⟩ := Nat.exists_eq_succ_of_ne_zero (Nat.ne_zero_of_lt hfuel)
        have hstop : NoHead p (d :: rest) := noHead_cons hp rest
        rw [repeatMatch_succ, List.nil_append, fails_cls hstop, Option.none_or, run_cls hq]
    | cons c xs ih =>
        intro fuel hfuel
        obtain ⟨fuel, rfl⟩ := Nat.exists_eq_succ_of_ne_zero (Nat.ne_zero_of_lt hfuel)
        obtain ⟨hc, hqc⟩ := hall c List.mem_cons_self
        have hnone : NoHead q (c :: (xs ++ d :: rest)) := noHead_cons hqc _
        have hmore := ih (fun e he => hall e (List.mem_cons_of_mem _ he)) false fuel
          (Nat.lt_of_succ_lt_succ hfuel)
        rw [repeatMatch_succ, List.cons_append, run_cls hc, if_pos (by simp), hmore,
          fails_cls hnone, Option.or_none]
  rw [run_seq, run_star, List.append_assoc, List.singleton_append]
  exact hrepeat _ (by simp)

/-! ## Repetitions that take too much -/

/-- A repetition of forced pieces that goes on to take `last`, after which nothing continues, gives
that piece back. -/
theorem repeatMatch_back {a : Re} {pieces : List (List Char)} {last tail : List Char}
    (hforces : ∀ xs ∈ last :: pieces, xs ≠ [] ∧ ∀ rest, Forces a xs rest) (hstop : Fails a tail)
    {k : State → Option Match} {groups : List (Nat × String)}
    (hnone : ∀ f, k ⟨f, tail, groups⟩ = none)
    (hsome : ∀ f, (k ⟨f, last ++ tail, groups⟩).isSome = true) {fuel : Nat}
    (hfuel : pieces.length < fuel) (first : Bool) :
    ∃ f, repeatMatch a.run fuel ⟨first, pieces.flatten ++ (last ++ tail), groups⟩ k =
      k ⟨f, last ++ tail, groups⟩ := by
  induction pieces generalizing fuel first with
  | nil =>
      obtain ⟨fuel, rfl⟩ := Nat.exists_eq_succ_of_ne_zero (Nat.ne_zero_of_lt hfuel)
      obtain ⟨hne, hlast⟩ := hforces last List.mem_cons_self
      obtain ⟨f, hrun⟩ := hlast tail (fun t =>
        if t.rest.length < (last ++ tail).length then repeatMatch a.run fuel t k else none)
        first groups
      have hshort : tail.length < (last ++ tail).length := by
        have := List.length_pos_iff.mpr hne
        rw [List.length_append]
        omega
      have hend : repeatMatch a.run fuel ⟨f, tail, groups⟩ k = none := by
        cases fuel with
        | zero => exact hnone f
        | succ fuel => rw [repeatMatch_succ, hstop, hnone, Option.none_or]
      refine ⟨first, ?_⟩
      rw [repeatMatch_succ, List.flatten_nil, List.nil_append, hrun, if_pos hshort, hend,
        Option.none_or]
  | cons xs pieces ih =>
      obtain ⟨fuel, rfl⟩ := Nat.exists_eq_succ_of_ne_zero (Nat.ne_zero_of_lt hfuel)
      obtain ⟨hne, hxs⟩ := hforces xs (by simp)
      have hrest : ∀ ys ∈ last :: pieces, ys ≠ [] ∧ ∀ rest, Forces a ys rest := by
        intro ys hys
        apply hforces
        rcases List.mem_cons.mp hys with rfl | hys
        · exact List.mem_cons_self
        · exact List.mem_cons_of_mem _ (List.mem_cons_of_mem _ hys)
      obtain ⟨f, hrun⟩ := hxs (pieces.flatten ++ (last ++ tail)) (fun t =>
        if t.rest.length < (xs ++ (pieces.flatten ++ (last ++ tail))).length then
          repeatMatch a.run fuel t k else none) first groups
      have hshort : (pieces.flatten ++ (last ++ tail)).length <
          (xs ++ (pieces.flatten ++ (last ++ tail))).length := by
        have := List.length_pos_iff.mpr hne
        simp only [List.length_append]
        omega
      obtain ⟨f', hmore⟩ := ih hrest (Nat.lt_of_succ_lt_succ hfuel) f
      refine ⟨f', ?_⟩
      rw [repeatMatch_succ, List.flatten_cons, List.append_assoc, hrun, if_pos hshort, hmore]
      exact Option.or_of_isSome (hsome f')

theorem length_le_flatten {pieces : List (List Char)} (h : ∀ xs ∈ pieces, xs ≠ []) :
    pieces.length ≤ pieces.flatten.length := by
  induction pieces with
  | nil => exact Nat.le_refl _
  | cons xs pieces ih =>
      have hxs := List.length_pos_iff.mpr (h xs List.mem_cons_self)
      have hrest := ih fun ys hys => h ys (List.mem_cons_of_mem _ hys)
      rw [List.length_cons, List.flatten_cons, List.length_append]
      omega

theorem Captures.back {a b : Re} {pieces : List (List Char)} {last tail ys rest : List Char}
    {gs : List (Nat × String)}
    (hforces : ∀ xs ∈ last :: pieces, xs ≠ [] ∧ ∀ rest, Forces a xs rest)
    (hstop : Fails a tail) (hb : Fails b tail) (htext : last ++ tail = ys ++ rest)
    (hgo : Captures b ys rest gs) (n : Nat) :
    Captures (Re.seq (Re.group n (Re.star a)) b) (pieces.flatten ++ ys) rest
      (gs ++ [(n, String.ofList pieces.flatten)]) := by
  intro k first groups hk
  have hline : pieces.flatten ++ ys ++ rest = pieces.flatten ++ (last ++ tail) := by
    rw [htext, List.append_assoc]
  -- what the repetition continues with
  let after : State → Option Match := fun t =>
    b.run { t with groups :=
      (n, State.textTo ⟨first, pieces.flatten ++ (last ++ tail), groups⟩ t) :: t.groups } k
  have hafter : ∀ f, ∃ f', after ⟨f, last ++ tail, groups⟩ =
      k ⟨f', rest, gs ++ [(n, String.ofList pieces.flatten)] ++ groups⟩ := by
    intro f
    have hgroup : State.textTo ⟨first, pieces.flatten ++ (last ++ tail), groups⟩
        ⟨f, last ++ tail, groups⟩ = String.ofList pieces.flatten := by simp [State.textTo]
    rw [List.append_assoc, List.singleton_append] at hk ⊢
    obtain ⟨f', hrun⟩ := hgo k f ((n, String.ofList pieces.flatten) :: groups) hk
    refine ⟨f', ?_⟩
    show b.run ⟨f, last ++ tail, (n, State.textTo _ _) :: groups⟩ k = _
    rw [hgroup, htext, hrun]
  have hlength : pieces.length < (pieces.flatten ++ (last ++ tail)).length := by
    have hpieces := length_le_flatten fun xs hxs => (hforces xs (List.mem_cons_of_mem _ hxs)).1
    have hlast := List.length_pos_iff.mpr (hforces last List.mem_cons_self).1
    simp only [List.length_append]
    omega
  have hsome : ∀ f, (after ⟨f, last ++ tail, groups⟩).isSome = true := by
    intro f
    obtain ⟨f', hf'⟩ := hafter f
    rw [hf']
    exact hk f'
  obtain ⟨f, hrepeat⟩ :=
    repeatMatch_back hforces hstop (k := after) (fun f => hb k f _) hsome hlength first
  obtain ⟨f', hf'⟩ := hafter f
  refine ⟨f', ?_⟩
  rw [hline, ← hf', ← hrepeat]
  rfl

/-! ## What a match has passed -/

def Re.numbers : Re → List Nat
  | seq a b => a.numbers ++ b.numbers
  | alt a b => a.numbers ++ b.numbers
  | star a => a.numbers
  | group n a => n :: a.numbers
  | _ => []

/-- A state that is reached from another by capturing groups with some of the numbers. -/
def Reached (numbers : List Nat) (s t : State) : Prop :=
  t.rest <:+ s.rest ∧ ∃ gs, t.groups = gs ++ s.groups ∧ ∀ g ∈ gs, g.1 ∈ numbers

theorem Reached.refl {numbers : List Nat} (s : State) : Reached numbers s s :=
  ⟨List.suffix_refl _, [], rfl, fun _ hg => absurd hg List.not_mem_nil⟩

theorem Reached.trans {ms ns : List Nat} {s t u : State} (hst : Reached ms s t)
    (htu : Reached ns t u) : Reached (ms ++ ns) s u := by
  obtain ⟨hst, gs, hgs, hms⟩ := hst
  obtain ⟨htu, hs, hhs, hns⟩ := htu
  refine ⟨htu.trans hst, hs ++ gs, by rw [hhs, hgs, List.append_assoc], fun g hg => ?_⟩
  rcases List.mem_append.mp hg with hg | hg
  · exact List.mem_append_right _ (hns g hg)
  · exact List.mem_append_left _ (hms g hg)

theorem Reached.mono {ms ns : List Nat} {s t : State} (h : Reached ms s t) (hsub : ms ⊆ ns) :
    Reached ns s t :=
  ⟨h.1, h.2.choose, h.2.choose_spec.1, fun g hg => hsub (h.2.choose_spec.2 g hg)⟩

theorem exists_of_run_cls {α : Type} {p : Char → Bool} {s : State} {k : State → Option α} {r : α}
    (h : (Re.cls p).run s k = some r) :
    ∃ c rest, s.rest = c :: rest ∧ p c = true ∧ k ⟨false, rest, s.groups⟩ = some r := by
  obtain ⟨first, cs, groups⟩ := s
  cases cs with
  | nil => cases h
  | cons c rest =>
      have hrun : (if p c then k ⟨false, rest, groups⟩ else none) = some r := h
      split at hrun
      next hc => exact ⟨c, rest, rfl, hc, hrun⟩
      next => cases hrun

/-- A match that is found continues from a state that the expression has reached. -/
theorem exists_reached {α : Type} (a : Re) {s : State} {k : State → Option α} {r : α}
    (h : a.run s k = some r) : ∃ t, k t = some r ∧ Reached a.numbers s t := by
  induction a generalizing s k with
  | bol | eol =>
      simp only [run_bol, run_eol] at h
      split at h
      · exact ⟨s, h, Reached.refl s⟩
      · cases h
  | eps => exact ⟨s, h, Reached.refl s⟩
  | cls p =>
      obtain ⟨c, rest, hrest, _, hk⟩ := exists_of_run_cls h
      exact ⟨_, hk, hrest ▸ List.suffix_cons c rest, [], rfl,
        fun _ hg => absurd hg List.not_mem_nil⟩
  | seq a b iha ihb =>
      obtain ⟨t, ht, hst⟩ := iha h
      obtain ⟨u, hu, htu⟩ := ihb ht
      exact ⟨u, hu, hst.trans htu⟩
  | alt a b iha ihb =>
      rcases Option.or_eq_some_iff.mp h with ha | ⟨_, hb⟩
      · obtain ⟨t, ht, hst⟩ := iha ha
        exact ⟨t, ht, hst.mono (List.subset_append_left ..)⟩
      · obtain ⟨t, ht, hst⟩ := ihb hb
        exact ⟨t, ht, hst.mono (List.subset_append_right ..)⟩
  | group n a ih =>
      obtain ⟨t, ht, hrest, gs, hgs, hns⟩ := ih h
      refine ⟨_, ht, hrest, (n, s.textTo t) :: gs, by rw [hgs]; rfl, fun g hg => ?_⟩
      rcases List.mem_cons.mp hg with rfl | hg
      · exact List.mem_cons_self
      · exact List.mem_cons_of_mem _ (hns g hg)
  | star a ih =>
      have hrepeat : ∀ (fuel : Nat) (s : State), repeatMatch a.run fuel s k = some r →
          ∃ t, k t = some r ∧ Reached a.numbers s t := by
        intro fuel
        induction fuel with
        | zero => exact fun s h => ⟨s, h, Reached.refl s⟩
        | succ fuel ihfuel =>
            intro s h
            rcases Option.or_eq_some_iff.mp h with hmore | ⟨_, hdone⟩
            · obtain ⟨t, ht, hst⟩ := ih hmore
              split at ht
              · obtain ⟨u, hu, htu⟩ := ihfuel t ht
                exact ⟨u, hu, (hst.trans htu).mono (by simp)⟩
              · cases ht
            · exact ⟨s, hdone, Reached.refl s⟩
      exact hrepeat _ s h

theorem exists_of_run_seq {α : Type} {a b : Re} {s : State} {k : State → Option α} {r : α}
    (h : (Re.seq a b).run s k = some r) : ∃ t, b.run t k = some r ∧ Reached a.numbers s t := by
  rw [run_seq] at h
  exact exists_reached a h

theorem exists_of_run_cons {α : Type} {p : Char → Bool} {b : Re} {s : State}
    {k : State → Option α} {r : α} (h : (Re.seq (Re.cls p) b).run s k = some r) :
    ∃ c rest, s.rest = c :: rest ∧ p c = true ∧ b.run ⟨false, rest, s.groups⟩ k = some r := by
  rw [run_seq] at h
  exact exists_of_run_cls h

theorem group_eq {b : Re} {n : Nat} {text : String} {f : Bool} {rest : List Char}
    {groups : List (Nat × String)} {m : Match} (hn : n ∉ b.numbers)
    (h : b.run ⟨f, rest, (n, text) :: groups⟩ State.toMatch = some m) : m.group n = text := by
  obtain ⟨t, ht, _, gs, hgs, hnumbers⟩ := exists_reached b h
  have hnone : gs.lookup n = none := by
    rw [List.lookup_eq_none_iff]
    intro g hg
    refine bne_iff_ne.mpr fun heq => ?_
    exact hn (heq ▸ hnumbers g hg)
  obtain rfl := Option.some.inj ht
  rw [Match.group, hgs, List.lookup_append, hnone, Option.none_or, List.lookup_cons_self]
  rfl

theorem run_of_find_bol {a : Re} {s : String} {m : Match} (h : find (Re.seq Re.bol a) s = some m) :
    a.run ⟨true, s.toList, []⟩ State.toMatch = some m := by
  have hlater : ∀ cs, findFrom (Re.seq Re.bol a) false cs = none := by
    intro cs
    induction cs with
    | nil => rfl
    | cons c cs ih => rw [findFrom_cons, ih]; rfl
  rw [find] at h
  cases hcs : s.toList with
  | nil =>
      rw [hcs] at h
      exact h
  | cons c cs =>
      rw [hcs, findFrom_cons, hlater, Option.or_none] at h
      exact h

theorem find_bol_none {a : Re} {s : String} (h : Fails a s.toList) :
    find (Re.seq Re.bol a) s = none := by
  cases hfind : find (Re.seq Re.bol a) s with
  | none => rfl
  | some m =>
      have hrun := run_of_find_bol hfind
      rw [h] at hrun
      cases hrun

theorem takes_times {p : Char → Bool} {xs : List Char} (hall : ∀ c ∈ xs, p c = true)
    (rest : List Char) : Takes (Re.times xs.length (Re.cls p)) xs rest := by
  induction xs with
  | nil => exact takes_eps rest
  | cons c xs ih =>
      have htail := ih fun d hd => hall d (List.mem_cons_of_mem _ hd)
      have hc := hall c List.mem_cons_self
      cases xs with
      | nil => exact takes_cls hc rest
      | cons d xs => exact Takes.cons hc htail

theorem takes_upTo {p : Char → Bool} {xs rest : List Char} (hall : ∀ c ∈ xs, p c = true)
    (hend : NoHead p rest) {n : Nat} (hn : xs.length ≤ n) :
    Takes (Re.upTo n (Re.cls p)) xs rest := by
  induction xs generalizing n with
  | nil =>
      cases n with
      | zero => exact takes_eps rest
      | succ n => exact takes_opt_nil (Fails.seq (fails_cls hend))
  | cons c xs ih =>
      cases n with
      | zero => cases hn
      | succ n =>
          exact Takes.alt_left (Takes.cons (hall c List.mem_cons_self)
            (ih (fun d hd => hall d (List.mem_cons_of_mem _ hd)) (Nat.le_of_succ_le_succ hn)))

theorem takes_between {p : Char → Bool} {xs rest : List Char} (hall : ∀ c ∈ xs, p c = true)
    (hend : NoHead p rest) {m n : Nat} (hm : m ≤ xs.length) (hn : xs.length ≤ n) :
    Takes (Re.between m n (Re.cls p)) xs rest := by
  have hfirst : ∀ c ∈ xs.take m, p c = true := fun c hc => hall c (List.mem_of_mem_take hc)
  have hlater : ∀ c ∈ xs.drop m, p c = true := fun c hc => hall c (List.mem_of_mem_drop hc)
  have hfront := takes_times hfirst (xs.drop m ++ rest)
  have hback := takes_upTo hlater hend
    (show (xs.drop m).length ≤ n - m by rw [List.length_drop]; omega)
  rw [List.length_take, Nat.min_eq_left hm] at hfront
  have hboth := Takes.seq hfront hback
  rwa [List.take_append_drop] at hboth

theorem textTo_eq {s : State} {xs rest : List Char} (h : s.rest = xs ++ rest) (f : Bool)
    (groups : List (Nat × String)) : s.textTo ⟨f, rest, groups⟩ = String.ofList xs := by
  rw [State.textTo, h, List.length_append, Nat.add_sub_cancel, List.take_left]

theorem exists_of_run_times {α : Type} {p : Char → Bool} {n : Nat} {s : State}
    {k : State → Option α} {r : α} (h : (Re.times n (Re.cls p)).run s k = some r) :
    ∃ xs rest f, s.rest = xs ++ rest ∧ xs.length = n ∧ (∀ c ∈ xs, p c = true) ∧
      k ⟨f, rest, s.groups⟩ = some r := by
  induction n generalizing s with
  | zero => exact ⟨[], s.rest, s.first, rfl, rfl, fun c hc => absurd hc List.not_mem_nil, h⟩
  | succ n ih =>
      cases n with
      | zero =>
          obtain ⟨c, rest, hrest, hc, hk⟩ := exists_of_run_cls h
          exact ⟨[c], rest, false, hrest, rfl, fun d hd => List.mem_singleton.mp hd ▸ hc, hk⟩
      | succ n =>
          obtain ⟨c, rest, hrest, hc, hmore⟩ := exists_of_run_cons h
          obtain ⟨xs, rest', f, hrest', hlen, hall, hk⟩ := ih hmore
          refine ⟨c :: xs, rest', f, ?_, by rw [List.length_cons, hlen], ?_, hk⟩
          · rw [hrest, List.cons_append]
            exact congrArg (List.cons c) hrest'
          · intro d hd
            rcases List.mem_cons.mp hd with rfl | hd
            · exact hc
            · exact hall d hd

theorem exists_of_run_upTo {α : Type} {p : Char → Bool} {n : Nat} {s : State}
    {k : State → Option α} {r : α} (h : (Re.upTo n (Re.cls p)).run s k = some r) :
    ∃ xs rest f, s.rest = xs ++ rest ∧ xs.length ≤ n ∧ (∀ c ∈ xs, p c = true) ∧
      k ⟨f, rest, s.groups⟩ = some r := by
  have hnone : ∀ {s : State} {n : Nat}, k s = some r → ∃ xs rest f, s.rest = xs ++ rest ∧
      xs.length ≤ n ∧ (∀ c ∈ xs, p c = true) ∧ k ⟨f, rest, s.groups⟩ = some r :=
    fun {s n} hk => ⟨[], s.rest, s.first, rfl, Nat.zero_le n,
      fun c hc => absurd hc List.not_mem_nil, hk⟩
  induction n generalizing s with
  | zero => exact hnone h
  | succ n ih =>
      rcases Option.or_eq_some_iff.mp h with hmore | ⟨_, hk⟩
      · obtain ⟨c, rest, hrest, hc, hmore⟩ := exists_of_run_cons hmore
        obtain ⟨xs, rest', f, hrest', hlen, hall, hk⟩ := ih hmore
        refine ⟨c :: xs, rest', f, ?_, Nat.succ_le_succ hlen, ?_, hk⟩
        · rw [hrest, List.cons_append]
          exact congrArg (List.cons c) hrest'
        · intro d hd
          rcases List.mem_cons.mp hd with rfl | hd
          · exact hc
          · exact hall d hd
      · exact hnone hk

theorem exists_of_run_field {α : Type} {p : Char → Bool} {g n : Nat} {b : Re} {s : State}
    {k : State → Option α} {r : α}
    (h : (Re.seq (Re.group g (Re.times n (Re.cls p))) b).run s k = some r) :
    ∃ xs rest f, s.rest = xs ++ rest ∧ xs.length = n ∧ (∀ c ∈ xs, p c = true) ∧
      b.run ⟨f, rest, (g, String.ofList xs) :: s.groups⟩ k = some r := by
  rw [run_seq, run_group] at h
  obtain ⟨xs, rest, f, hrest, hlen, hall, hk⟩ := exists_of_run_times h
  rw [textTo_eq hrest] at hk
  exact ⟨xs, rest, f, hrest, hlen, hall, hk⟩

theorem takes_chars (cs rest : List Char) : Takes (Re.all (cs.map Re.char)) cs rest := by
  induction cs with
  | nil => exact takes_eps rest
  | cons c cs ih =>
      cases cs with
      | nil => exact takes_char c rest
      | cons d cs => exact Takes.seq (takes_char c _) ih

theorem takes_lit (text : String) (rest : List Char) : Takes (Re.lit text) text.toList rest :=
  takes_chars text.toList rest

theorem exists_of_run_chars {α : Type} {cs : List Char} {s : State} {k : State → Option α} {r : α}
    (h : (Re.all (cs.map Re.char)).run s k = some r) :
    ∃ rest f, s.rest = cs ++ rest ∧ k ⟨f, rest, s.groups⟩ = some r := by
  induction cs generalizing s with
  | nil => exact ⟨s.rest, s.first, rfl, h⟩
  | cons c cs ih =>
      cases cs with
      | nil =>
          obtain ⟨d, rest, hrest, hd, hk⟩ := exists_of_run_cls h
          obtain rfl := beq_iff_eq.mp hd
          exact ⟨rest, false, hrest, hk⟩
      | cons e cs =>
          obtain ⟨d, rest, hrest, hd, hmore⟩ := exists_of_run_cons h
          obtain rfl := beq_iff_eq.mp hd
          obtain ⟨rest', f, hrest', hk⟩ := ih hmore
          refine ⟨rest', f, ?_, hk⟩
          rw [hrest]
          exact congrArg (List.cons d) hrest'

theorem exists_of_run_lit {α : Type} {text : String} {s : State} {k : State → Option α} {r : α}
    (h : (Re.lit text).run s k = some r) :
    ∃ rest f, s.rest = text.toList ++ rest ∧ k ⟨f, rest, s.groups⟩ = some r :=
  exists_of_run_chars h

theorem exists_of_run_star {α : Type} {p : Char → Bool} {s : State} {k : State → Option α} {r : α}
    (h : (Re.star (Re.cls p)).run s k = some r) :
    ∃ xs rest f, s.rest = xs ++ rest ∧ (∀ c ∈ xs, p c = true) ∧
      k ⟨f, rest, s.groups⟩ = some r := by
  have hrepeat : ∀ (fuel : Nat) (s : State), repeatMatch (Re.cls p).run fuel s k = some r →
      ∃ xs rest f, s.rest = xs ++ rest ∧ (∀ c ∈ xs, p c = true) ∧
        k ⟨f, rest, s.groups⟩ = some r := by
    intro fuel
    induction fuel with
    | zero => exact fun s h => ⟨[], s.rest, s.first, rfl, fun c hc => absurd hc List.not_mem_nil, h⟩
    | succ fuel ih =>
        intro s h
        rcases Option.or_eq_some_iff.mp h with hmore | ⟨_, hdone⟩
        · obtain ⟨c, rest, hrest, hc, hmore⟩ := exists_of_run_cls hmore
          dsimp only at hmore
          rw [hrest, if_pos (by simp)] at hmore
          obtain ⟨xs, rest', f, hrest', hall, hk⟩ := ih _ hmore
          refine ⟨c :: xs, rest', f, ?_, List.forall_mem_cons.mpr ⟨hc, hall⟩, hk⟩
          rw [hrest]
          exact congrArg (List.cons c) hrest'
        · exact ⟨[], s.rest, s.first, rfl, fun c hc => absurd hc List.not_mem_nil, hdone⟩
  exact hrepeat _ s h

theorem exists_of_run_plus {α : Type} {p : Char → Bool} {s : State} {k : State → Option α} {r : α}
    (h : (Re.plus (Re.cls p)).run s k = some r) :
    ∃ xs rest f, s.rest = xs ++ rest ∧ xs ≠ [] ∧ (∀ c ∈ xs, p c = true) ∧
      k ⟨f, rest, s.groups⟩ = some r := by
  obtain ⟨c, rest, hrest, hc, hmore⟩ := exists_of_run_cons h
  obtain ⟨xs, rest', f, hrest', hall, hk⟩ := exists_of_run_star hmore
  refine ⟨c :: xs, rest', f, ?_, List.cons_ne_nil c xs, List.forall_mem_cons.mpr ⟨hc, hall⟩, hk⟩
  rw [hrest]
  exact congrArg (List.cons c) hrest'

theorem exists_of_run_eol {α : Type} {s : State} {k : State → Option α} {r : α}
    (h : Re.eol.run s k = some r) : s.rest = [] ∧ k s = some r := by
  rw [run_eol] at h
  split at h
  next hend => exact ⟨List.isEmpty_iff.mp hend, h⟩
  next => cases h

theorem exists_of_findFrom {re : Re} {first : Bool} {cs : List Char} {m : Match}
    (h : findFrom re first cs = some m) :
    ∃ front rest f, cs = front ++ rest ∧ re.run ⟨f, rest, []⟩ State.toMatch = some m := by
  induction cs generalizing first with
  | nil => exact ⟨[], [], first, rfl, h⟩
  | cons c cs ih =>
      rcases Option.or_eq_some_iff.mp h with hhere | ⟨_, hlater⟩
      · exact ⟨[], c :: cs, first, rfl, hhere⟩
      · obtain ⟨front, rest, f, hcs, hrun⟩ := ih hlater
        exact ⟨c :: front, rest, f, congrArg (List.cons c) hcs, hrun⟩

theorem findFrom_append {re : Re} {rest : List Char}
    (h : ∀ first, (findFrom re first rest).isSome = true) (first : Bool) (front : List Char) :
    (findFrom re first (front ++ rest)).isSome = true := by
  induction front generalizing first with
  | nil => exact h first
  | cons c front ih => rw [List.cons_append, findFrom_cons, Option.isSome_or, ih, Bool.or_true]

/-! ## Text that is not read -/

/-- A match in front of more text. -/
def Match.before (m : Match) (tail : List Char) : Match := ⟨m.groups, m.rest ++ tail⟩

/-- An expression takes nothing of a text that comes behind. -/
def Ignores (a : Re) (tail : List Char) : Prop :=
  ∀ (k k' : State → Option Match) (first : Bool) (cs : List Char) (groups : List (Nat × String)),
    (∀ f rest gs, k' ⟨f, rest ++ tail, gs⟩ = (k ⟨f, rest, gs⟩).map (·.before tail)) →
      a.run ⟨first, cs ++ tail, groups⟩ k' =
        (a.run ⟨first, cs, groups⟩ k).map (·.before tail)

theorem ignores_cls {p : Char → Bool} {tail : List Char} (h : NoHead p tail) :
    Ignores (Re.cls p) tail := by
  intro k k' first cs groups hk
  cases cs with
  | nil => exact fails_cls h k' first groups
  | cons c cs =>
      cases hc : p c with
      | true => rw [List.cons_append, run_cls hc, run_cls hc, hk]
      | false =>
          have hnone : ∀ cs, NoHead p (c :: cs) := fun cs => noHead_cons hc cs
          rw [List.cons_append, fails_cls (hnone _), fails_cls (hnone _)]
          rfl

theorem Ignores.seq {a b : Re} {tail : List Char} (ha : Ignores a tail) (hb : Ignores b tail) :
    Ignores (Re.seq a b) tail :=
  fun _ _ first cs groups hk => ha _ _ first cs groups fun f rest gs => hb _ _ f rest gs hk

theorem Ignores.all {as : List Re} {tail : List Char} (h : ∀ a ∈ as, Ignores a tail) :
    Ignores (Re.all as) tail := by
  induction as with
  | nil => exact fun _ _ first cs groups hk => hk first cs groups
  | cons a as ih =>
      obtain ⟨ha, has⟩ := List.forall_mem_cons.mp h
      cases as with
      | nil => exact ha
      | cons b as => exact ha.seq (ih has)

theorem Ignores.times {a : Re} {tail : List Char} (h : Ignores a tail) (n : Nat) :
    Ignores (Re.times n a) tail :=
  Ignores.all fun _ hb => List.eq_of_mem_replicate hb ▸ h

theorem Ignores.group {a : Re} {tail : List Char} (h : Ignores a tail) (n : Nat) :
    Ignores (Re.group n a) tail := by
  intro k k' first cs groups hk
  refine h _ _ first cs groups fun f rest gs => ?_
  have htext : State.textTo ⟨first, cs ++ tail, groups⟩ ⟨f, rest ++ tail, gs⟩ =
      State.textTo ⟨first, cs, groups⟩ ⟨f, rest, gs⟩ := by
    unfold State.textTo
    rw [List.length_append, List.length_append, Nat.add_sub_add_right,
      List.take_append_of_le_length (Nat.sub_le _ _)]
  rw [← hk, htext]

/-- A search that finds nothing in the text behind finds what it found without it. -/
theorem findFrom_ignores {re : Re} {tail : List Char} (h : Ignores re tail)
    (hnone : ∀ first, findFrom re first tail = none) (first : Bool) (cs : List Char) :
    findFrom re first (cs ++ tail) = (findFrom re first cs).map (·.before tail) := by
  have hrun : ∀ first cs, re.run ⟨first, cs ++ tail, []⟩ State.toMatch =
      (re.run ⟨first, cs, []⟩ State.toMatch).map (·.before tail) :=
    fun first cs => h _ _ first cs [] fun _ _ _ => rfl
  induction cs generalizing first with
  | nil =>
      have hstart : re.run ⟨first, tail, []⟩ State.toMatch = none := by
        cases hhere : re.run ⟨first, tail, []⟩ State.toMatch with
        | none => rfl
        | some m =>
            have hsome := findFrom_of_run hhere
            rw [hnone] at hsome
            cases hsome
      rw [List.nil_append, hnone]
      exact hstart.symm.trans (hrun first [])
  | cons c cs ih =>
      rw [List.cons_append, findFrom_cons, findFrom_cons, ih, ← List.cons_append, Option.map_or]
      exact congrArg (Option.or · _) (hrun first (c :: cs))

end NestGateway.Regex
