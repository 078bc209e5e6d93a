import Mathlib.Tactic.TypeStar

/-! # Runs of a state machine

A machine is a partial step function: an event that cannot happen in a state
has no successor. A property of a run is a property of each of its steps, up to
the first event that cannot happen.
-/

namespace NestGateway.Runs

variable {σ ε : Type*} (step : σ → ε → Option σ)

/-- The state after a sequence of events, if all of them can happen. -/
def run : σ → List ε → Option σ
  | s, [] => some s
  | s, e :: es =>
      match step s e with
      | none => none
      | some s' => run s' es

/-- Every step of the run satisfies `R`. -/
def EachStep (R : σ → ε → σ → Prop) : σ → List ε → Prop
  | _, [] => True
  | s, e :: es =>
      match step s e with
      | none => True
      | some s' => R s e s' ∧ EachStep R s' es

variable {step}

theorem exists_of_run_cons {s s' : σ} {e : ε} {es : List ε} (h : run step s (e :: es) = some s') :
    ∃ t, step s e = some t ∧ run step t es = some s' := by
  rw [run] at h
  cases hs : step s e with
  | none => rw [hs] at h; cases h
  | some t =>
      rw [hs] at h
      exact ⟨t, rfl, h⟩

theorem eachStep_cons {R : σ → ε → σ → Prop} {s s' : σ} {e : ε} {es : List ε}
    (h : step s e = some s') :
    EachStep step R s (e :: es) ↔ R s e s' ∧ EachStep step R s' es := by
  simp only [EachStep, h]

theorem eachStep_stuck {R : σ → ε → σ → Prop} {s : σ} {e : ε} {es : List ε}
    (h : step s e = none) : EachStep step R s (e :: es) := by
  simp only [EachStep, h]

/-- A property of runs can be evaluated when it can at every step. -/
instance decidableEachStep {R : σ → ε → σ → Prop} [∀ s e s', Decidable (R s e s')] :
    (s : σ) → (es : List ε) → Decidable (EachStep step R s es)
  | _, [] => isTrue trivial
  | s, e :: es =>
      match h : step s e with
      | none => isTrue (eachStep_stuck h)
      | some s' =>
          have : Decidable (EachStep step R s' es) := decidableEachStep s' es
          decidable_of_iff (R s e s' ∧ EachStep step R s' es) (eachStep_cons h).symm

/-- The invariant rule: what the allowed steps preserve holds at every step of a run made of
allowed steps. -/
theorem eachStep_of_invariant {I : σ → Prop} {ok : σ → ε → Prop} {R : σ → ε → σ → Prop}
    (preserve : ∀ s e s', I s → ok s e → step s e = some s' → I s' ∧ R s e s')
    {s : σ} {es : List ε} (init : I s) (allowed : EachStep step (fun s e _ => ok s e) s es) :
    EachStep step R s es := by
  induction es generalizing s with
  | nil => trivial
  | cons e es ih =>
      cases h : step s e with
      | none => exact eachStep_stuck h
      | some s' =>
          obtain ⟨hok, hrest⟩ := (eachStep_cons h).mp allowed
          obtain ⟨hinv, hstep⟩ := preserve s e s' init hok h
          exact (eachStep_cons h).mpr ⟨hstep, ih hinv hrest⟩

/-- The invariant rule with an exact condition, for runs whose events satisfy `given`: when a
step from a good state satisfies `R` exactly if it is allowed, a run satisfies `R` throughout
exactly if its steps are allowed. -/
theorem eachStep_iff_given {I : σ → Prop} {given ok : σ → ε → Prop} {R : σ → ε → σ → Prop}
    (preserve : ∀ s e s', I s → given s e → ok s e → step s e = some s' → I s' ∧ R s e s')
    (necessary : ∀ s e s', I s → given s e → R s e s' → step s e = some s' → ok s e)
    {s : σ} {es : List ε} (init : I s) (hgiven : EachStep step (fun s e _ => given s e) s es) :
    EachStep step R s es ↔ EachStep step (fun s e _ => ok s e) s es := by
  induction es generalizing s with
  | nil => exact Iff.rfl
  | cons e es ih =>
      cases h : step s e with
      | none => exact iff_of_true (eachStep_stuck h) (eachStep_stuck h)
      | some s' =>
          obtain ⟨hg, hrest⟩ := (eachStep_cons h).mp hgiven
          rw [eachStep_cons h, eachStep_cons h]
          refine ⟨fun ⟨hstep, hall⟩ => ?_, fun ⟨hok, hall⟩ => ?_⟩
          · have hok := necessary s e s' init hg hstep h
            exact ⟨hok, (ih (preserve s e s' init hg hok h).1 hrest).mp hall⟩
          · obtain ⟨hinv, hstep⟩ := preserve s e s' init hg hok h
            exact ⟨hstep, (ih hinv hrest).mpr hall⟩

theorem eachStep_true (s : σ) (es : List ε) : EachStep step (fun _ _ _ => True) s es := by
  induction es generalizing s with
  | nil => trivial
  | cons e es ih =>
      cases h : step s e with
      | none => exact eachStep_stuck h
      | some s' => exact (eachStep_cons h).mpr ⟨trivial, ih s'⟩

/-- The invariant rule with an exact condition, for all runs. -/
theorem eachStep_iff {I : σ → Prop} {ok : σ → ε → Prop} {R : σ → ε → σ → Prop}
    (preserve : ∀ s e s', I s → ok s e → step s e = some s' → I s' ∧ R s e s')
    (necessary : ∀ s e s', I s → R s e s' → step s e = some s' → ok s e)
    {s : σ} {es : List ε} (init : I s) :
    EachStep step R s es ↔ EachStep step (fun s e _ => ok s e) s es :=
  eachStep_iff_given
    (fun s e s' hs _ => preserve s e s' hs) (fun s e s' hs _ => necessary s e s' hs) init
    (eachStep_true s es)

theorem eachStep_of_append {R : σ → ε → σ → Prop} {s s' : σ} {es es' : List ε}
    (h : EachStep step R s (es ++ es')) (hrun : run step s es = some s') :
    EachStep step R s' es' := by
  induction es generalizing s with
  | nil => exact Option.some.inj hrun ▸ h
  | cons e es ih =>
      obtain ⟨t, hs, hrest⟩ := exists_of_run_cons hrun
      exact ih ((eachStep_cons hs).mp h).2 hrest

theorem holds_of_eachStep {P : σ → Prop} {s s' : σ} {es : List ε} (init : P s)
    (h : EachStep step (fun _ _ s' => P s') s es) (hrun : run step s es = some s') : P s' := by
  induction es generalizing s with
  | nil => exact Option.some.inj hrun ▸ init
  | cons e es ih =>
      obtain ⟨t, hs, hrun⟩ := exists_of_run_cons hrun
      obtain ⟨ht, hrest⟩ := (eachStep_cons hs).mp h
      exact ih ht hrest hrun

/-- An invariant of all steps holds at the end of every run. -/
theorem run_invariant {I : σ → Prop} (preserve : ∀ s e s', I s → step s e = some s' → I s')
    {s s' : σ} {es : List ε} (init : I s) (h : run step s es = some s') : I s' := by
  induction es generalizing s with
  | nil => exact Option.some.inj h ▸ init
  | cons e es ih =>
      obtain ⟨t, hs, hrest⟩ := exists_of_run_cons h
      exact ih (preserve s e t init hs) hrest

/-- Some run leads from one state to another. -/
def Reaches (step : σ → ε → Option σ) (s s' : σ) : Prop := ∃ es, run step s es = some s'

theorem Reaches.refl (s : σ) : Reaches step s s := ⟨[], rfl⟩

theorem Reaches.head {s t u : σ} {e : ε} (h : step s e = some t) (hrest : Reaches step t u) :
    Reaches step s u := by
  obtain ⟨es, hrun⟩ := hrest
  refine ⟨e :: es, ?_⟩
  simp only [run, h]
  exact hrun

theorem Reaches.one {s t : σ} {e : ε} (h : step s e = some t) : Reaches step s t :=
  .head h (.refl t)

theorem Reaches.trans {s t u : σ} (h : Reaches step s t) (h' : Reaches step t u) :
    Reaches step s u := by
  obtain ⟨es, hrun⟩ := h
  induction es generalizing s with
  | nil => exact Option.some.inj hrun ▸ h'
  | cons e es ih =>
      obtain ⟨r, hs, hrest⟩ := exists_of_run_cons hrun
      exact .head hs (ih hrest)

theorem Reaches.invariant {I : σ → Prop} (preserve : ∀ s e s', I s → step s e = some s' → I s')
    {s s' : σ} (h : Reaches step s s') (init : I s) : I s' := by
  obtain ⟨es, hrun⟩ := h
  exact run_invariant preserve init hrun

/-- What every turn of a loop comes closer to is reached. -/
theorem exists_reaches {I P : σ → Prop} (left : σ → Nat)
    (turn : ∀ s, I s → P s ∨ ∃ t, Reaches step s t ∧ I t ∧ left t < left s) {s : σ} (init : I s) :
    ∃ t, Reaches step s t ∧ I t ∧ P t := by
  induction hn : left s using Nat.strongRecOn generalizing s with
  | ind n ih =>
      rcases turn s init with hdone | ⟨t, hreach, hinit, hlt⟩
      · exact ⟨s, .refl s, init, hdone⟩
      · obtain ⟨u, hrest, hu⟩ := ih (left t) (hn ▸ hlt) hinit rfl
        exact ⟨u, hreach.trans hrest, hu⟩

end NestGateway.Runs
