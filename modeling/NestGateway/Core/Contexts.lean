import NestGateway.Core.Heap

/-! # Contexts

Contexts that are cancelled from above. Every context but the background has a
cancel function of its own; it is done once that function or the one of an
ancestor has been called, and it stays done.
-/

namespace NestGateway

/-- The cancel functions that end a context, its own first. -/
structure Context where
  cancels : List Nat
  deriving Repr, DecidableEq

namespace Context

def background : Context := ⟨[]⟩

/-- The context below `parent` whose own cancel function is `cancel`. -/
def child (cancel : Nat) (parent : Context) : Context := ⟨cancel :: parent.cancels⟩

end Context

/-- The cancel functions that were made, with whether they have been called. -/
structure Contexts where
  cancels : Heap Bool
  deriving Repr, DecidableEq

namespace Contexts

def empty : Contexts := ⟨Heap.empty⟩

/-- The next cancel function. -/
def size (cs : Contexts) : Nat := cs.cancels.size

/-- A context below `parent`, with its cancel function. -/
def withCancel (cs : Contexts) (parent : Context) : Context × Nat × Contexts :=
  (.child cs.size parent, cs.size, ⟨cs.cancels.alloc false⟩)

def cancel (cs : Contexts) (n : Nat) : Contexts := ⟨cs.cancels.modify n fun _ => true⟩

def Called (cs : Contexts) (n : Nat) : Prop := cs.cancels.get n = some true

instance (cs : Contexts) (n : Nat) : Decidable (cs.Called n) :=
  inferInstanceAs (Decidable (_ = _))

def Done (cs : Contexts) (ctx : Context) : Prop := ∃ n ∈ ctx.cancels, cs.Called n

instance (cs : Contexts) (ctx : Context) : Decidable (cs.Done ctx) :=
  inferInstanceAs (Decidable (∃ n ∈ ctx.cancels, cs.Called n))

theorem called_withCancel {cs : Contexts} {parent : Context} {n : Nat} :
    (cs.withCancel parent).2.2.Called n ↔ cs.Called n := by
  simp only [Called, withCancel, Heap.get_alloc]
  split
  next hnew =>
    rw [hnew, Heap.get_size]
    simp
  next => exact Iff.rfl

theorem called_cancel {cs : Contexts} {m n : Nat} :
    (cs.cancel m).Called n ↔ cs.Called n ∨ n = m ∧ n < cs.size := by
  simp only [Called, cancel, Heap.get_modify]
  split
  next heq =>
    subst heq
    cases hget : cs.cancels.get n with
    | none =>
        have hle : ¬ n < cs.size := fun hlt => by
          obtain ⟨b, hb⟩ := Heap.get_of_lt (h := cs.cancels) hlt
          rw [hget] at hb
          cases hb
        simp [hle]
    | some b =>
        have hlt : n < cs.size := Heap.lt_size hget
        simp [hlt]
  next hne => simp [hne]

@[simp] theorem size_withCancel (cs : Contexts) (parent : Context) :
    (cs.withCancel parent).2.2.size = cs.size + 1 := by simp [withCancel, size]

@[simp] theorem size_cancel (cs : Contexts) (n : Nat) : (cs.cancel n).size = cs.size := by
  simp [cancel, size]

theorem done_child {cs : Contexts} {n : Nat} {parent : Context} :
    cs.Done (.child n parent) ↔ cs.Called n ∨ cs.Done parent := by
  simp [Done, Context.child]

/-- No function is taken back. -/
structure Grows (cs cs' : Contexts) : Prop where
  size : cs.size ≤ cs'.size
  called : ∀ n, cs.Called n → cs'.Called n

theorem Grows.refl (cs : Contexts) : cs.Grows cs := ⟨Nat.le_refl _, fun _ => id⟩

theorem grows_withCancel (cs : Contexts) (parent : Context) :
    cs.Grows (cs.withCancel parent).2.2 where
  size := by
    rw [size_withCancel]
    exact Nat.le_succ _
  called _ h := called_withCancel.mpr h

theorem grows_cancel (cs : Contexts) (n : Nat) : cs.Grows (cs.cancel n) where
  size := Nat.le_of_eq (size_cancel cs n).symm
  called _ h := called_cancel.mpr (Or.inl h)

theorem Grows.done {cs cs' : Contexts} (grows : cs.Grows cs') {ctx : Context}
    (done : cs.Done ctx) : cs'.Done ctx := by
  obtain ⟨m, hmem, hcalled⟩ := done
  exact ⟨m, hmem, grows.called m hcalled⟩

/-- A context is done when its cancel function is called. -/
theorem done_cancel_child {cs : Contexts} {n : Nat} (hlt : n < cs.size) (parent : Context) :
    (cs.cancel n).Done (.child n parent) :=
  done_child.mpr (Or.inl (called_cancel.mpr (Or.inr ⟨rfl, hlt⟩)))

end Contexts

end NestGateway
