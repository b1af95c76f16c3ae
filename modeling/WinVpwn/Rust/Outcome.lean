import Mathlib.Data.List.Basic
import Mathlib.Data.List.Induction
import Mathlib.Tactic.Common

/-!
# Fallible computations that can also leave by a fault

A host function either returns a value, returns an error, or never returns: it
panics, or it loops. `Outcome` keeps the three apart, so that "returns `Ok` or
`Err`" is a statement about a computation and not a convention of the model.
`Act` threads a mutable state through such a computation and keeps the state an
early return leaves behind, as a `&mut` receiver does.
-/

namespace Rust

/-- The ways a computation ends without returning. `diverge` is a loop that
outlived the fuel its definition gave it. -/
inductive Fault where
  | overflow
  | capacity
  | slice
  | diverge
  deriving DecidableEq, Repr

inductive Outcome (ε α : Type) where
  | ok (a : α)
  | err (e : ε)
  | fault (f : Fault)
  deriving DecidableEq, Repr

namespace Outcome
variable {ε ε' α β : Type}

instance : Monad (Outcome ε) where
  pure := .ok
  bind x f := match x with
    | .ok a => f a
    | .err e => .err e
    | .fault p => .fault p

@[simp] theorem pure_eq (a : α) : (pure a : Outcome ε α) = .ok a := rfl
@[simp] theorem ok_bind (a : α) (f : α → Outcome ε β) : (Outcome.ok a >>= f) = f a := rfl
@[simp] theorem err_bind (e : ε) (f : α → Outcome ε β) : (Outcome.err e >>= f) = .err e := rfl
@[simp] theorem fault_bind (p : Fault) (f : α → Outcome ε β) :
    (Outcome.fault p >>= f) = .fault p := rfl

def isOk : Outcome ε α → Bool
  | .ok _ => true
  | _ => false

/-- The computation returns: it ends in `ok` or `err`. -/
def Returns (x : Outcome ε α) : Prop := ∀ p, x ≠ .fault p

@[simp] theorem returns_ok (a : α) : (Outcome.ok a : Outcome ε α).Returns := fun _ h => by cases h
@[simp] theorem returns_err (e : ε) : (Outcome.err e : Outcome ε α).Returns := fun _ h => by cases h
@[simp] theorem not_returns_fault (p : Fault) : ¬(Outcome.fault p : Outcome ε α).Returns :=
  fun h => h p rfl

instance (x : Outcome ε α) : Decidable x.Returns :=
  match x with
  | .ok a => .isTrue (returns_ok a)
  | .err e => .isTrue (returns_err e)
  | .fault p => .isFalse (not_returns_fault p)

theorem returns_iff (x : Outcome ε α) : x.Returns ↔ (∃ a, x = .ok a) ∨ ∃ e, x = .err e := by
  cases x <;> simp

theorem bind_eq_ok {x : Outcome ε α} {f : α → Outcome ε β} {b : β} :
    (x >>= f) = .ok b ↔ ∃ a, x = .ok a ∧ f a = .ok b := by
  cases x <;> simp

theorem bind_eq_err {x : Outcome ε α} {f : α → Outcome ε β} {e : ε} :
    (x >>= f) = .err e ↔ x = .err e ∨ ∃ a, x = .ok a ∧ f a = .err e := by
  cases x <;> simp

/-- The computation returns no error; it may still not return. -/
def Errorless (x : Outcome ε α) : Prop := ∀ e, x ≠ .err e

theorem errorless_ok (a : α) : (Outcome.ok a : Outcome ε α).Errorless := fun _ h => by cases h

theorem errorless_bind {x : Outcome ε α} {f : α → Outcome ε β} (hx : x.Errorless)
    (hf : ∀ a, (f a).Errorless) : (x >>= f).Errorless := by
  intro e h
  cases x with
  | ok a => exact hf a e h
  | err e' => exact hx e' rfl
  | fault p => cases h

/-- `Result::map_err`. -/
def mapErr (g : ε → ε') : Outcome ε α → Outcome ε' α
  | .ok a => .ok a
  | .err e => .err (g e)
  | .fault p => .fault p

@[simp] theorem mapErr_ok (g : ε → ε') (a : α) : (Outcome.ok a).mapErr g = .ok a := rfl
@[simp] theorem mapErr_err (g : ε → ε') (e : ε) :
    (Outcome.err e : Outcome ε α).mapErr g = .err (g e) := rfl
@[simp] theorem mapErr_fault (g : ε → ε') (p : Fault) :
    (Outcome.fault p : Outcome ε α).mapErr g = .fault p := rfl

theorem mapErr_eq_err {g : ε → ε'} {x : Outcome ε α} {e : ε'} :
    x.mapErr g = .err e ↔ ∃ e', x = .err e' ∧ g e' = e := by
  cases x <;> simp

theorem mapErr_eq_ok {g : ε → ε'} {x : Outcome ε α} {a : α} : x.mapErr g = .ok a ↔ x = .ok a := by
  cases x <;> simp [mapErr]

/-- `.map(|_| ())`. -/
def void (x : Outcome ε α) : Outcome ε Unit := x >>= fun _ => .ok ()

@[simp] theorem void_ok (a : α) : (Outcome.ok a : Outcome ε α).void = .ok () := rfl
@[simp] theorem void_err (e : ε) : (Outcome.err e : Outcome ε α).void = .err e := rfl
@[simp] theorem void_fault (p : Fault) : (Outcome.fault p : Outcome ε α).void = .fault p := rfl

theorem void_eq_err {x : Outcome ε α} {e : ε} : x.void = .err e ↔ x = .err e := by
  cases x <;> simp

theorem anyM_eq {f : α → Outcome ε Bool} {p : α → Bool} (xs : List α)
    (h : ∀ x ∈ xs, f x = .ok (p x)) : xs.anyM f = .ok (xs.any p) := by
  induction xs with
  | nil => rfl
  | cons x xs ih =>
    rw [List.anyM, h x (List.mem_cons_self ..), ok_bind, List.any_cons]
    cases p x with
    | true => rfl
    | false => exact ih fun y hy => h y (List.mem_cons_of_mem _ hy)

/-- `Option::ok_or`. -/
def okOr (o : Option α) (e : ε) : Outcome ε α :=
  match o with
  | some a => .ok a
  | none => .err e

/-- `if c { return Err(e); }`. -/
def bailIf (c : Prop) [Decidable c] (e : ε) : Outcome ε Unit := if c then .err e else .ok ()

end Outcome

/-- A computation on a mutable state; an early return keeps what was done so far. -/
def Act (σ ε α : Type) := σ → Outcome ε α × σ

namespace Act
variable {σ τ ε ε' α β ι : Type}

/- Sequencing is the `?` of the source: the first `err` or fault ends the
computation, and the state is the one that step left. -/
instance : Monad (Act σ ε) where
  pure a := fun s => (.ok a, s)
  bind x f := fun s => match x s with
    | (.ok a, t) => f a t
    | (.err e, t) => (.err e, t)
    | (.fault p, t) => (.fault p, t)

def get : Act σ ε σ := fun s => (.ok s, s)
def set (t : σ) : Act σ ε Unit := fun _ => (.ok (), t)
def modify (g : σ → σ) : Act σ ε Unit := fun s => (.ok (), g s)
def lift (x : Outcome ε α) : Act σ ε α := fun s => (x, s)

/-- Run a computation on one component of the state, as a call through a field does. -/
def zoom (view : σ → τ) (update : τ → σ → σ) (x : Act τ ε α) : Act σ ε α :=
  fun s => let r := x (view s); (r.1, update r.2 s)

def mapErr (g : ε → ε') (x : Act σ ε α) : Act σ ε' α := fun s => ((x s).1.mapErr g, (x s).2)

@[simp] theorem pure_apply (a : α) (s : σ) : (pure a : Act σ ε α) s = (.ok a, s) := rfl
@[simp] theorem get_apply (s : σ) : (get : Act σ ε σ) s = (.ok s, s) := rfl
@[simp] theorem modify_apply (g : σ → σ) (s : σ) : (modify g : Act σ ε Unit) s = (.ok (), g s) := rfl
@[simp] theorem lift_apply (x : Outcome ε α) (s : σ) : (lift x : Act σ ε α) s = (x, s) := rfl

theorem bind_apply (x : Act σ ε α) (f : α → Act σ ε β) (s : σ) :
    (x >>= f) s = match x s with
      | (.ok a, t) => f a t
      | (.err e, t) => (.err e, t)
      | (.fault p, t) => (.fault p, t) := rfl

theorem bind_of_ok {x : Act σ ε α} {f : α → Act σ ε β} {s t : σ} {a : α}
    (h : x s = (.ok a, t)) : (x >>= f) s = f a t := by
  rw [bind_apply, h]

theorem bind_of_err {x : Act σ ε α} {f : α → Act σ ε β} {s t : σ} {e : ε}
    (h : x s = (.err e, t)) : (x >>= f) s = (.err e, t) := by
  rw [bind_apply, h]

theorem bind_of_fault {x : Act σ ε α} {f : α → Act σ ε β} {s t : σ} {p : Fault}
    (h : x s = (.fault p, t)) : (x >>= f) s = (.fault p, t) := by
  rw [bind_apply, h]

theorem bind_eq_ok {x : Act σ ε α} {f : α → Act σ ε β} {s u : σ} {b : β} :
    (x >>= f) s = (.ok b, u) ↔ ∃ a t, x s = (.ok a, t) ∧ f a t = (.ok b, u) := by
  rw [bind_apply]
  rcases x s with ⟨o, t⟩
  cases o <;> simp

/-! ### Loops

`xs.forM f` is `for x in xs { f(x)?; }`. -/

theorem forM_cons_apply (f : ι → Act σ ε Unit) (x : ι) (xs : List ι) (s : σ) :
    ((x :: xs).forM f) s = (f x >>= fun _ => xs.forM f) s := rfl

theorem forM_append_apply (f : ι → Act σ ε Unit) (xs ys : List ι) (s : σ) :
    ((xs ++ ys).forM f) s = (xs.forM f >>= fun _ => ys.forM f) s := by
  induction xs generalizing s with
  | nil => rfl
  | cons x xs ih =>
    rw [List.cons_append, forM_cons_apply, bind_apply, bind_apply, forM_cons_apply, bind_apply]
    rcases f x s with ⟨a | e | p, t⟩
    · exact ih t
    · rfl
    · rfl

theorem forM_ok_mem {f : ι → Act σ ε Unit} {xs : List ι} {s t : σ}
    (h : (xs.forM f) s = (.ok (), t)) : ∀ x ∈ xs, ∃ s' t', f x s' = (.ok (), t') := by
  induction xs generalizing s with
  | nil => simp
  | cons x xs ih =>
    rw [forM_cons_apply, bind_eq_ok] at h
    obtain ⟨_, m, hx, hrest⟩ := h
    intro y hy
    rcases List.mem_cons.mp hy with rfl | hy
    · exact ⟨s, m, hx⟩
    · exact ih hrest y hy

/-! ### Frames -/

/-- The computation leaves the part `view` of the state as it was, however it ends. -/
def Keeps (view : σ → τ) (x : Act σ ε α) : Prop := ∀ s, view (x s).2 = view s

theorem keeps_lift (view : σ → τ) (x : Outcome ε α) : Keeps view (lift x : Act σ ε α) :=
  fun _ => rfl

theorem keeps_bind {view : σ → τ} {x : Act σ ε α} {f : α → Act σ ε β} (hx : Keeps view x)
    (hf : ∀ a, Keeps view (f a)) : Keeps view (x >>= f) := by
  intro s
  have h := hx s
  rw [bind_apply]
  rcases hrun : x s with ⟨a | e | p, t⟩ <;> rw [hrun] at h
  · exact (hf a t).trans h
  · exact h
  · exact h

theorem keeps_forM {view : σ → τ} {f : ι → Act σ ε Unit} (hf : ∀ x, Keeps view (f x))
    (xs : List ι) : Keeps view (xs.forM f) := by
  induction xs with
  | nil => exact fun _ => rfl
  | cons x xs ih => exact keeps_bind (hf x) fun _ => ih

/-- The state the computation leaves is `R`-related to the one it found, however it ends. -/
def Within (R : σ → σ → Prop) (x : Act σ ε α) : Prop := ∀ s, R s (x s).2

theorem within_lift {R : σ → σ → Prop} (hrefl : ∀ s, R s s) (x : Outcome ε α) :
    Within R (lift x : Act σ ε α) := fun s => hrefl s

theorem within_bind {R : σ → σ → Prop} (htrans : ∀ s t u, R s t → R t u → R s u)
    {x : Act σ ε α} {f : α → Act σ ε β} (hx : Within R x) (hf : ∀ a, Within R (f a)) :
    Within R (x >>= f) := by
  intro s
  have h := hx s
  rw [bind_apply]
  rcases hrun : x s with ⟨a | e | p, t⟩ <;> rw [hrun] at h
  · exact htrans _ _ _ h (hf a t)
  · exact h
  · exact h

theorem within_forM {R : σ → σ → Prop} (hrefl : ∀ s, R s s)
    (htrans : ∀ s t u, R s t → R t u → R s u) {f : ι → Act σ ε Unit} {xs : List ι}
    (hf : ∀ x ∈ xs, Within R (f x)) : Within R (xs.forM f) := by
  induction xs with
  | nil => exact fun s => hrefl s
  | cons x xs ih =>
    apply within_bind htrans (hf x (List.mem_cons_self ..))
    exact fun _ => ih fun y hy => hf y (List.mem_cons_of_mem _ hy)

/-- Every error the computation returns is a `P`. -/
def ErrsIn (P : ε → Prop) (x : Act σ ε α) : Prop := ∀ s e, (x s).1 = .err e → P e

theorem errsIn_lift {P : ε → Prop} {x : Outcome ε α} (h : x.Errorless) :
    ErrsIn P (lift x : Act σ ε α) := fun _ e he => absurd he (h e)

theorem errsIn_bind {P : ε → Prop} {x : Act σ ε α} {f : α → Act σ ε β} (hx : ErrsIn P x)
    (hf : ∀ a, ErrsIn P (f a)) : ErrsIn P (x >>= f) := by
  intro s e he
  have h := hx s
  rw [bind_apply] at he
  generalize x s = r at h he
  obtain ⟨a | e' | p, t⟩ := r
  · exact hf a t e he
  · cases he
    exact h e rfl
  · cases he

theorem errsIn_forM {P : ε → Prop} {f : ι → Act σ ε Unit} (hf : ∀ x, ErrsIn P (f x))
    (xs : List ι) : ErrsIn P (xs.forM f) := by
  induction xs with
  | nil => exact fun _ _ he => by cases he
  | cons x xs ih => exact errsIn_bind (hf x) fun _ => ih

/-! ### Runs of calls

`runAll f` makes one call after the other whatever each returns, as an owner
does who reads the results and goes on. -/

def runAll (f : ι → Act σ ε α) : List ι → σ → List (Outcome ε α) × σ
  | [], s => ([], s)
  | x :: xs, s =>
    let rest := runAll f xs (f x s).2
    ((f x s).1 :: rest.1, rest.2)

@[simp] theorem runAll_nil (f : ι → Act σ ε α) (s : σ) : runAll f [] s = ([], s) := rfl

theorem runAll_cons (f : ι → Act σ ε α) (x : ι) (xs : List ι) (s : σ) :
    runAll f (x :: xs) s =
      ((f x s).1 :: (runAll f xs (f x s).2).1, (runAll f xs (f x s).2).2) := rfl

@[simp] theorem runAll_length (f : ι → Act σ ε α) (xs : List ι) (s : σ) :
    (runAll f xs s).1.length = xs.length := by
  induction xs generalizing s with
  | nil => rfl
  | cons x xs ih => simp only [runAll_cons, List.length_cons, ih]

theorem runAll_snoc (f : ι → Act σ ε α) (xs : List ι) (x : ι) (s : σ) :
    (runAll f (xs ++ [x]) s).2 = (f x (runAll f xs s).2).2 := by
  induction xs generalizing s with
  | nil => rfl
  | cons y ys ih =>
    rw [List.cons_append, runAll_cons, runAll_cons]
    exact ih _

theorem runAll_snoc_results (f : ι → Act σ ε α) (xs : List ι) (x : ι) (s : σ) :
    (runAll f (xs ++ [x]) s).1 = (runAll f xs s).1 ++ [(f x (runAll f xs s).2).1] := by
  induction xs generalizing s with
  | nil => rfl
  | cons y ys ih =>
    rw [List.cons_append, runAll_cons, runAll_cons, List.cons_append]
    exact congrArg _ (ih _)

theorem runAll_invariant {f : ι → Act σ ε α} {P : σ → Prop} {C : σ → ι → Prop}
    (hstep : ∀ s x, P s → C s x → P (f x s).2) {xs : List ι} {s : σ} (hs : P s)
    (hC : ∀ pre x, pre ++ [x] <+: xs → C (runAll f pre s).2 x) :
    ∀ pre, pre <+: xs → P (runAll f pre s).2 := by
  intro pre
  induction pre using List.reverseRec with
  | nil => exact fun _ => hs
  | append_singleton pre x ih =>
    intro hpre
    rw [runAll_snoc]
    exact hstep _ x (ih ((List.prefix_append pre [x]).trans hpre)) (hC pre x hpre)

theorem runAll_invariant_iff {f : ι → Act σ ε α} {P : σ → Prop} {C : σ → ι → Prop}
    (hstep : ∀ s x, P s → (P (f x s).2 ↔ C s x)) {xs : List ι} {s : σ} (hs : P s) :
    (∀ pre, pre <+: xs → P (runAll f pre s).2) ↔
      ∀ pre x, pre ++ [x] <+: xs → C (runAll f pre s).2 x := by
  constructor
  · intro h pre x hpre
    have hnext := h (pre ++ [x]) hpre
    rw [runAll_snoc] at hnext
    exact (hstep _ x (h pre ((List.prefix_append pre [x]).trans hpre))).mp hnext
  · exact runAll_invariant (fun t x ht hC => (hstep t x ht).mpr hC) hs

/- What every call does to the state, each two states of the run are apart by. -/
theorem runAll_between_iff {f : ι → Act σ ε α} {R : σ → σ → Prop} (hrefl : ∀ s, R s s)
    (htrans : ∀ s t u, R s t → R t u → R s u) {xs : List ι} {s : σ} :
    (∀ pre mid, pre <+: mid → mid <+: xs → R (runAll f pre s).2 (runAll f mid s).2) ↔
      ∀ pre x, pre ++ [x] <+: xs → R (runAll f pre s).2 (f x (runAll f pre s).2).2 := by
  constructor
  · intro h pre x hpre
    rw [← runAll_snoc]
    exact h pre _ (List.prefix_append pre [x]) hpre
  · intro h pre mid
    induction mid using List.reverseRec with
    | nil =>
      intro hpre _
      rw [List.prefix_nil.mp hpre]
      exact hrefl _
    | append_singleton mid x ih =>
      intro hpre hmid
      rcases List.prefix_concat_iff.mp hpre with rfl | hpre
      · exact hrefl _
      · have hbefore := ih hpre ((List.prefix_append mid [x]).trans hmid)
        rw [runAll_snoc]
        exact htrans _ _ _ hbefore (h mid x hmid)

theorem runAll_bisim {f : ι → Act σ ε α} {g : ι → Act τ ε α} {R : σ → τ → Prop}
    {S : Outcome ε α → Outcome ε α → Prop} {P : ι → Prop}
    (hstep : ∀ s t x, R s t → P x → S (f x s).1 (g x t).1 ∧ R (f x s).2 (g x t).2) {xs : List ι}
    (hP : ∀ x ∈ xs, P x) {s : σ} {t : τ} (h : R s t) :
    List.Forall₂ S (runAll f xs s).1 (runAll g xs t).1 ∧ R (runAll f xs s).2 (runAll g xs t).2 := by
  induction xs generalizing s t with
  | nil => exact ⟨.nil, h⟩
  | cons x xs ih =>
    obtain ⟨hval, hrel⟩ := hstep s t x h (hP x (List.mem_cons_self ..))
    obtain ⟨hvals, hrels⟩ := ih (fun y hy => hP y (List.mem_cons_of_mem _ hy)) hrel
    rw [runAll_cons, runAll_cons]
    exact ⟨.cons hval hvals, hrels⟩

/-- Every call of the run meets `C` in the state it is made in. -/
def AllCalls (f : ι → Act σ ε α) (C : σ → ι → Prop) : List ι → σ → Prop
  | [], _ => True
  | x :: xs, s => C s x ∧ AllCalls f C xs (f x s).2

instance decidableAllCalls (f : ι → Act σ ε α) (C : σ → ι → Prop) [∀ s x, Decidable (C s x)] :
    ∀ xs s, Decidable (AllCalls f C xs s)
  | [], _ => .isTrue trivial
  | _ :: xs, _ =>
    have := decidableAllCalls f C xs
    inferInstanceAs (Decidable (_ ∧ _))

theorem AllCalls.at_call {f : ι → Act σ ε α} {C : σ → ι → Prop} {xs : List ι} {s : σ}
    (h : AllCalls f C xs s) : ∀ pre x, pre ++ [x] <+: xs → C (runAll f pre s).2 x := by
  intro pre x hpre
  induction pre generalizing xs s with
  | nil =>
    obtain ⟨post, rfl⟩ := hpre
    exact h.1
  | cons y ys ih =>
    obtain ⟨post, rfl⟩ := hpre
    exact ih h.2 (List.prefix_append _ _)

end Act

end Rust
