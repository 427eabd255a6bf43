import Mathlib.Logic.Basic

/-! # Dialogues

A dialogue is a program that ends with a result, or makes a request `s` and goes on with the reply, which is of type
`R s`.  What a request does is not part of the program: a handler says it (`eval`).  `Meets` says which requests a
program makes and what comes of it, for the replies that it may get, whatever is stored.  `Reaches` says that it makes
a certain request before it ends, and `Traced` what it does after each request, given what it has learnt before. -/

namespace Mokosh

inductive Dialogue {S : Type} (R : S → Type) (α : Type) where
  | done (a : α)
  | ask (s : S) (k : R s → Dialogue R α)

namespace Dialogue

variable {S σ α β : Type} {R : S → Type}

protected def bind : Dialogue R α → (α → Dialogue R β) → Dialogue R β
  | .done a, f => f a
  | .ask s k, f => .ask s fun r => (k r).bind f

instance : Monad (Dialogue R) where
  pure := .done
  bind := .bind

instance : LawfulMonad (Dialogue R) :=
  LawfulMonad.mk' (Dialogue R)
    (fun p => by
      induction p with
      | done a => rfl
      | ask s k ih => exact congrArg (Dialogue.ask s) (funext ih))
    (fun _ _ => rfl)
    fun p f g => by
      induction p with
      | done a => rfl
      | ask s k ih => exact congrArg (Dialogue.ask s) (funext ih)

def request (s : S) : Dialogue R (R s) := .ask s .done

/-! ### Runs -/

section Eval

variable (h : (s : S) → σ → R s × σ)

/-- The result of a program whose requests `h` answers, and what is stored then. -/
def eval : Dialogue R α → σ → α × σ
  | .done a, x => (a, x)
  | .ask s k, x => (k (h s x).1).eval (h s x).2

@[simp] theorem eval_pure (a : α) (x : σ) : (pure a : Dialogue R α).eval h x = (a, x) := rfl

@[simp] theorem eval_request (s : S) (x : σ) : (request s : Dialogue R (R s)).eval h x = h s x := rfl

@[simp] theorem eval_bind (p : Dialogue R α) (f : α → Dialogue R β) (x : σ) :
    (p >>= f).eval h x = (f (p.eval h x).1).eval h (p.eval h x).2 := by
  induction p generalizing x with
  | done a => rfl
  | ask s k ih => exact ih _ _

end Eval

/-! ### Requests and results -/

section Meets

/-- The program makes only requests in `B`, and its result is in `Q`, if every reply is in `A`. -/
def Meets (B : S → Prop) (A : (s : S) → R s → Prop) (Q : α → Prop) : Dialogue R α → Prop
  | .done a => Q a
  | .ask s k => B s ∧ ∀ r, A s r → (k r).Meets B A Q

variable {B : S → Prop} {A : (s : S) → R s → Prop} {Q : α → Prop} {Q' : β → Prop} {p : Dialogue R α}

theorem meets_bind {f : α → Dialogue R β} :
    (p >>= f).Meets B A Q' ↔ p.Meets B A fun a => (f a).Meets B A Q' := by
  induction p with
  | done a => exact Iff.rfl
  | ask s k ih => exact and_congr_right fun _ => forall_congr' fun r => imp_congr_right fun _ => ih r

theorem Meets.mono {Q₂ : α → Prop} (hp : p.Meets B A Q) (hQ : ∀ a, Q a → Q₂ a) : p.Meets B A Q₂ := by
  induction p with
  | done a => exact hQ a hp
  | ask s k ih => exact ⟨hp.1, fun r hr => ih r (hp.2 r hr)⟩

theorem Meets.bind {f : α → Dialogue R β} (hp : p.Meets B A Q) (hf : ∀ a, Q a → (f a).Meets B A Q') :
    (p >>= f).Meets B A Q' :=
  meets_bind.mpr (hp.mono hf)

/-- A program that makes only requests in `B` keeps what they keep. -/
theorem Meets.eval {h : (s : S) → σ → R s × σ} {I : σ → Prop} (hp : p.Meets B A Q)
    (hI : ∀ s x, B s → I x → A s (h s x).1 ∧ I (h s x).2) {x : σ} (hx : I x) :
    Q (p.eval h x).1 ∧ I (p.eval h x).2 := by
  induction p generalizing x with
  | done a => exact ⟨hp, hx⟩
  | ask s k ih =>
      obtain ⟨hA, hx⟩ := hI s x hp.1 hx
      exact ih _ (hp.2 _ hA) hx

end Meets

/-! ### Requests to come -/

section Reaches

variable {T B : S → Prop} {A : (s : S) → R s → Prop} {Q : α → Prop} {p : Dialogue R α}

/-- If every reply is in `A`, the program makes a request in `T`, and until then only requests in `B`. -/
def Reaches (T B : S → Prop) (A : (s : S) → R s → Prop) : Dialogue R α → Prop
  | .done _ => False
  | .ask s k => T s ∨ B s ∧ ∀ r, A s r → (k r).Reaches T B A

theorem Reaches.bind (hp : p.Reaches T B A) (f : α → Dialogue R β) : (p >>= f).Reaches T B A := by
  induction p with
  | done a => exact False.elim hp
  | ask s k ih => exact hp.imp_right fun ⟨hs, hk⟩ => ⟨hs, fun r hr => ih r (hk r hr)⟩

theorem Meets.reaches_bind {f : α → Dialogue R β} (hp : p.Meets B A Q) (hf : ∀ a, Q a → (f a).Reaches T B A) :
    (p >>= f).Reaches T B A := by
  induction p with
  | done a => exact hf a hp
  | ask s k ih => exact .inr ⟨hp.1, fun r hr => ih r (hp.2 r hr)⟩

end Reaches

section Traced

variable {μ : Type} {next : μ → (s : S) → R s → μ} {F : μ → (s : S) → R s → Dialogue R α → Prop} {m : μ}

/-- A program that has learnt `m` and learns more by `next`: after each request and its reply it is in `F`. -/
def Traced (next : μ → (s : S) → R s → μ) (F : μ → (s : S) → R s → Dialogue R α → Prop) : μ → Dialogue R α → Prop
  | _, .done _ => True
  | m, .ask s k => ∀ r, F m s r (k r) ∧ (k r).Traced next F (next m s r)

/-- A program that learns nothing from requests after which nothing is demanded, and goes on as `f`. -/
theorem Meets.traced_bind {p : Dialogue R β} {f : β → Dialogue R α} {B : S → Prop} {Q : β → Prop}
    (hp : p.Meets B (fun _ _ => True) Q) (hnext : ∀ s r, B s → next m s r = m) (hF : ∀ s r k, B s → F m s r k)
    (hf : ∀ b, Q b → (f b).Traced next F m) : (p >>= f).Traced next F m := by
  induction p with
  | done b => exact hf b hp
  | ask s k ih =>
      refine fun r => ⟨hF s r _ hp.1, ?_⟩
      rw [hnext s r hp.1]
      exact ih r (hp.2 r trivial)

theorem Meets.traced {p : Dialogue R α} {B : S → Prop} {Q : α → Prop} (hp : p.Meets B (fun _ _ => True) Q)
    (hnext : ∀ s r, B s → next m s r = m) (hF : ∀ s r k, B s → F m s r k) : p.Traced next F m := by
  induction p with
  | done b => trivial
  | ask s k ih =>
      refine fun r => ⟨hF s r _ hp.1, ?_⟩
      rw [hnext s r hp.1]
      exact ih r (hp.2 r trivial)

end Traced

end Dialogue

end Mokosh
