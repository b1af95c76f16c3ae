import WinVpwn.Rust.Outcome

/-!
# Computations side by side

Two computations on different states that answer alike and keep the states
related, whatever way they end. Values and faults are the same; errors are
compared by a relation of their own, as two implementations may word them
differently.
-/

namespace Rust

namespace Outcome
variable {ε ε' α : Type}

inductive Agree (E : ε → ε' → Prop) : Outcome ε α → Outcome ε' α → Prop
  | ok (a : α) : Agree E (.ok a) (.ok a)
  | err {e : ε} {e' : ε'} (h : E e e') : Agree E (.err e) (.err e')
  | fault (p : Fault) : Agree E (.fault p) (.fault p)

theorem Agree.refl {E : ε → ε → Prop} (hE : ∀ e, E e e) (x : Outcome ε α) : Agree E x x := by
  cases x with
  | ok a => exact .ok a
  | err e => exact .err (hE e)
  | fault p => exact .fault p

end Outcome

namespace Act
variable {σ τ ε ε' α β ι : Type}

/-- Started in related states the two answer alike and leave related states. -/
def Tied (R : σ → τ → Prop) (E : ε → ε' → Prop) (x : Act σ ε α) (y : Act τ ε' α) : Prop :=
  ∀ s t, R s t → Outcome.Agree E (x s).1 (y t).1 ∧ R (x s).2 (y t).2

section Rules
variable {R : σ → τ → Prop} {E : ε → ε' → Prop}

theorem tied_pure (a : α) : Tied R E (pure a) (pure a) := fun _ _ h => ⟨.ok a, h⟩

theorem tied_lift {x : Outcome ε α} {y : Outcome ε' α} (h : Outcome.Agree E x y) :
    Tied R E (lift x) (lift y) := fun _ _ hst => ⟨h, hst⟩

theorem tied_modify {f : σ → σ} {g : τ → τ} (h : ∀ s t, R s t → R (f s) (g t)) :
    Tied R E (modify f) (modify g) := fun s t hst => ⟨.ok (), h s t hst⟩

theorem tied_bind {x : Act σ ε α} {y : Act τ ε' α} {f : α → Act σ ε β} {g : α → Act τ ε' β}
    (hx : Tied R E x y) (hf : ∀ a, Tied R E (f a) (g a)) : Tied R E (x >>= f) (y >>= g) := by
  intro s t hst
  obtain ⟨hval, hrel⟩ := hx s t hst
  rw [bind_apply, bind_apply]
  generalize x s = r at *
  generalize y t = r' at *
  obtain ⟨o, s'⟩ := r
  obtain ⟨o', t'⟩ := r'
  cases hval with
  | ok a => exact hf a s' t' hrel
  | err h => exact ⟨.err h, hrel⟩
  | fault p => exact ⟨.fault p, hrel⟩

theorem tied_forM {f : ι → Act σ ε Unit} {g : ι → Act τ ε' Unit} {xs : List ι}
    (hf : ∀ x ∈ xs, Tied R E (f x) (g x)) : Tied R E (xs.forM f) (xs.forM g) := by
  induction xs with
  | nil => exact tied_pure ()
  | cons x xs ih =>
    apply tied_bind (hf x (List.mem_cons_self ..))
    intro _
    exact ih fun y hy => hf y (List.mem_cons_of_mem _ hy)

end Rules
end Act
end Rust
