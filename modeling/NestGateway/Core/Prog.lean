import Mathlib.Tactic.Basic

/-! # Programs that ask for effects

A program ends with a value, throws an exception, or asks its surroundings for
the reply to an effect and goes on with it. A handler that answers the effects
on a state runs the program, and the weakest precondition of a postcondition is
read off the program step by step.
-/

namespace NestGateway

universe u v

/-- `R e` is the type of the replies to the effect `e`, and `ε` that of the exceptions. -/
inductive Prog (E : Type u) (R : E → Type u) (ε α : Type u) where
  | ret (a : α)
  | throw (error : ε)
  | ask (e : E) (next : R e → Prog E R ε α)

theorem exists_of_except_bind {ε α β : Type u} {x : Except ε α} {f : α → Except ε β} {b : β}
    (h : x >>= f = .ok b) : ∃ a, x = .ok a ∧ f a = .ok b := by
  cases x with
  | error error => cases h
  | ok a => exact ⟨a, rfl, h⟩

namespace Prog

variable {E : Type u} {R : E → Type u} {ε α β : Type u} {σ : Type v}

def bind : Prog E R ε α → (α → Prog E R ε β) → Prog E R ε β
  | .ret a, f => f a
  | .throw error, _ => .throw error
  | .ask e next, f => .ask e fun reply => (next reply).bind f

instance : Monad (Prog E R ε) where
  pure := .ret
  bind := .bind

/-- Ask for one effect and return the reply. -/
def call (e : E) : Prog E R ε (R e) := .ask e .ret

def ofExcept : Except ε α → Prog E R ε α
  | .ok a => .ret a
  | .error error => .throw error

/-- What a program ends with, and the state the handler is left in. -/
def exec (h : (e : E) → σ → R e × σ) : Prog E R ε α → σ → Except ε α × σ
  | .ret a, s => (.ok a, s)
  | .throw error, s => (.error error, s)
  | .ask e next, s => exec h (next (h e s).1) (h e s).2

/-- The weakest precondition: `Q` holds of the result and of the final state. -/
def wp (h : (e : E) → σ → R e × σ) (x : Prog E R ε α) (Q : Except ε α → σ → Prop) (s : σ) : Prop :=
  Q (x.exec h s).1 (x.exec h s).2

variable {h : (e : E) → σ → R e × σ} {Q Q' : Except ε β → σ → Prop} {s : σ}

@[simp] theorem wp_pure (b : β) : wp h (pure b : Prog E R ε β) Q s ↔ Q (.ok b) s := Iff.rfl

@[simp] theorem wp_call (e : E) {Q : Except ε (R e) → σ → Prop} :
    wp h (call e) Q s ↔ Q (.ok (h e s).1) (h e s).2 := Iff.rfl

@[simp] theorem wp_call_bind (e : E) (f : R e → Prog E R ε β) :
    wp h (call e >>= f) Q s ↔ wp h (f (h e s).1) Q (h e s).2 := Iff.rfl

theorem wp_ofExcept (r : Except ε β) : wp h (ofExcept r) Q s ↔ Q r s := by
  cases r with
  | ok b => exact Iff.rfl
  | error error => exact Iff.rfl

/-- The rule of sequence: an exception of the first part ends the whole. -/
theorem wp_bind (x : Prog E R ε α) (f : α → Prog E R ε β) :
    wp h (x >>= f) Q s ↔
      wp h x (fun r s' => match r with
        | .ok a => wp h (f a) Q s'
        | .error error => Q (.error error) s') s := by
  induction x generalizing s with
  | ret a => exact Iff.rfl
  | throw error => exact Iff.rfl
  | ask e next ih => exact ih (h e s).1

/-- The rule of consequence. -/
theorem wp_mono {x : Prog E R ε β} (hwp : wp h x Q s) (himp : ∀ r s', Q r s' → Q' r s') :
    wp h x Q' s := himp _ _ hwp

theorem wp_bind_of {P : Except ε α → σ → Prop} {x : Prog E R ε α} {f : α → Prog E R ε β}
    (hx : wp h x P s) (hok : ∀ a s', P (.ok a) s' → wp h (f a) Q s')
    (herror : ∀ error s', P (.error error) s' → Q (.error error) s') : wp h (x >>= f) Q s := by
  refine (wp_bind x f).mpr (wp_mono hx fun r s' hP => ?_)
  cases r with
  | ok a => exact hok a s' hP
  | error error => exact herror error s' hP

theorem wp_bind_ok {x : Prog E R ε α} {f : α → Prog E R ε β} {a : α} {s' : σ}
    (hx : wp h x (fun r t => r = .ok a ∧ t = s') s) : wp h (x >>= f) Q s ↔ wp h (f a) Q s' := by
  obtain ⟨hr, ht⟩ := hx
  rw [wp_bind, wp, hr, ht]

/-- Every effect the program can come to ask for satisfies `P`. -/
inductive Only (P : E → Prop) : Prog E R ε α → Prop
  | ret (a : α) : Only P (.ret a)
  | throw (error : ε) : Only P (.throw error)
  | ask {e : E} {next : R e → Prog E R ε α} (allowed : P e)
      (rest : ∀ reply, Only P (next reply)) : Only P (.ask e next)

section Only

variable {P P' : E → Prop}

theorem Only.call {e : E} (he : P e) : (Prog.call e : Prog E R ε (R e)).Only P :=
  .ask he fun reply => .ret reply

theorem Only.ofExcept (r : Except ε α) : (Prog.ofExcept r : Prog E R ε α).Only P := by
  cases r with
  | ok a => exact .ret a
  | error error => exact .throw error

theorem Only.bind {x : Prog E R ε α} {f : α → Prog E R ε β} (hx : x.Only P)
    (hf : ∀ a, (f a).Only P) : (x >>= f).Only P := by
  induction hx with
  | ret a => exact hf a
  | throw error => exact .throw error
  | ask allowed rest ih => exact .ask allowed ih

theorem Only.mono {x : Prog E R ε α} (hx : x.Only P) (himp : ∀ e, P e → P' e) : x.Only P' := by
  induction hx with
  | ret a => exact .ret a
  | throw error => exact .throw error
  | ask allowed rest ih => exact .ask (himp _ allowed) ih

/-- What the allowed effects preserve, a program that asks for no others preserves. -/
theorem Only.wp_invariant {I : σ → Prop} {x : Prog E R ε β} (hx : x.Only P)
    (preserve : ∀ e s, P e → I s → I (h e s).2) (hs : I s) : wp h x (fun _ s' => I s') s := by
  induction hx generalizing s with
  | ret b => exact hs
  | throw error => exact hs
  | ask allowed rest ih => exact ih _ (preserve _ s allowed hs)

end Only

/-- The invariant rule: what every effect preserves, every program preserves. -/
theorem wp_invariant {I : σ → Prop} (preserve : ∀ e s, I s → I (h e s).2) (x : Prog E R ε β)
    (hs : I s) : wp h x (fun _ s' => I s') s := by
  induction x generalizing s with
  | ret b => exact hs
  | throw error => exact hs
  | ask e next ih => exact ih (h e s).1 (preserve e s hs)

/-- Every value the program can return satisfies `P`, when every reply to an effect is one that
`ok` allows. -/
inductive Returns (ok : (e : E) → R e → Prop) (P : α → Prop) : Prog E R ε α → Prop
  | ret {a : α} (holds : P a) : Returns ok P (.ret a)
  | throw (error : ε) : Returns ok P (.throw error)
  | ask {e : E} {next : R e → Prog E R ε α}
      (rest : ∀ reply, ok e reply → Returns ok P (next reply)) : Returns ok P (.ask e next)

section Returns

variable {ok : (e : E) → R e → Prop} {P : α → Prop} {P' : β → Prop}

theorem Returns.call (e : E) : (Prog.call e : Prog E R ε (R e)).Returns ok (ok e) :=
  .ask fun _ hreply => .ret hreply

theorem Returns.ofExcept (r : Except ε α) :
    (Prog.ofExcept r : Prog E R ε α).Returns ok (fun a => r = .ok a) := by
  cases r with
  | ok a => exact .ret rfl
  | error error => exact .throw error

theorem Returns.bind {x : Prog E R ε α} {f : α → Prog E R ε β} (hx : x.Returns ok P)
    (hf : ∀ a, P a → (f a).Returns ok P') : (x >>= f).Returns ok P' := by
  induction hx with
  | ret holds => exact hf _ holds
  | throw error => exact .throw error
  | ask rest ih => exact .ask ih

theorem Returns.any (x : Prog E R ε α) : x.Returns ok (fun _ => True) := by
  induction x with
  | ret a => exact .ret trivial
  | throw error => exact .throw error
  | ask e next ih => exact .ask fun reply _ => ih reply

theorem Returns.bind_any {x : Prog E R ε α} {f : α → Prog E R ε β}
    (hf : ∀ a, (f a).Returns ok P') : (x >>= f).Returns ok P' :=
  (Returns.any x).bind fun a _ => hf a

/-- A handler that keeps an invariant under which its replies are allowed. -/
theorem Returns.wp {I : σ → Prop} {x : Prog E R ε α} (hx : x.Returns ok P)
    (replies : ∀ e s, I s → ok e (h e s).1 ∧ I (h e s).2) (hs : I s) :
    wp h x (fun r _ => ∀ a, r = .ok a → P a) s := by
  induction hx generalizing s with
  | ret holds => exact fun a heq => Except.ok.inj heq ▸ holds
  | throw error => exact fun a heq => by cases heq
  | ask rest ih => exact ih _ (replies _ s hs).1 (replies _ s hs).2

end Returns

/-- The effects an execution asks for, in order. -/
def asked (h : (e : E) → σ → R e × σ) : Prog E R ε α → σ → List E
  | .ret _, _ => []
  | .throw _, _ => []
  | .ask e next, s => e :: (next (h e s).1).asked h (h e s).2

theorem Only.asked {P : E → Prop} {x : Prog E R ε β} (hx : x.Only P) (s : σ) :
    ∀ e ∈ x.asked h s, P e := by
  induction hx generalizing s with
  | ret b => exact fun e he => (List.not_mem_nil he).elim
  | throw error => exact fun e he => (List.not_mem_nil he).elim
  | ask allowed rest ih =>
      intro e he
      rcases List.mem_cons.mp he with rfl | he
      · exact allowed
      · exact ih _ _ e he

/-- The program when effects can fail: it ends with the first effect that does, which then does
nothing. -/
def faulty (fails : E → Bool) : Prog E R ε α → Prog E R (E ⊕ ε) α
  | .ret a => .ret a
  | .throw error => .throw (.inr error)
  | .ask e next =>
      if fails e then .throw (.inl e) else .ask e fun reply => (next reply).faulty fails

section Faulty

variable {fails : E → Bool}

theorem faulty_bind (x : Prog E R ε α) (f : α → Prog E R ε β) :
    (x >>= f).faulty fails = x.faulty fails >>= fun a => (f a).faulty fails := by
  induction x with
  | ret a => rfl
  | throw error => rfl
  | ask e next ih =>
      change (ask e fun reply => next reply >>= f).faulty fails = _
      rw [faulty, faulty]
      split
      · rfl
      · exact congrArg (Prog.ask e) (funext fun reply => ih reply)

theorem Only.faulty {P : E → Prop} {x : Prog E R ε β} (hx : x.Only P) :
    (x.faulty fails).Only P := by
  induction hx with
  | ret b => exact .ret b
  | throw error => exact .throw _
  | ask allowed rest ih =>
      rw [Prog.faulty]
      split
      · exact .throw _
      · exact .ask allowed ih

variable {h : (e : E) → σ → R e × σ} {Q : Except (E ⊕ ε) β → σ → Prop} {s : σ}

theorem Only.wp_faulty {P : E → Prop} {x : Prog E R ε β} (hx : x.Only P)
    (hP : ∀ e, P e → fails e = false) :
    wp h (x.faulty fails) (fun r _ => ∀ e, r ≠ .error (.inl e)) s := by
  induction hx generalizing s with
  | ret b => exact nofun
  | throw error => exact nofun
  | ask allowed rest ih =>
      rw [Prog.faulty, hP _ allowed, if_neg Bool.false_ne_true]
      exact ih _

theorem wp_faulty_call_bind (e : E) (f : R e → Prog E R ε β) :
    wp h ((call e >>= f).faulty fails) Q s ↔
      if fails e then Q (.error (.inl e)) s
      else wp h ((f (h e s).1).faulty fails) Q (h e s).2 := by
  change wp h ((ask e f).faulty fails) Q s ↔ _
  rw [Prog.faulty]
  split
  · exact Iff.rfl
  · exact Iff.rfl

theorem wp_faulty_ofExcept (r : Except ε β) :
    wp h ((ofExcept r).faulty fails) Q s ↔ Q (r.mapError Sum.inr) s := by
  cases r with
  | ok b => exact Iff.rfl
  | error error => exact Iff.rfl

end Faulty

end Prog

end NestGateway
