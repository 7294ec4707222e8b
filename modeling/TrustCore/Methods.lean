import Mathlib.Logic.Basic

/-!
# Methods and pairs of methods

A `Method` reads and writes a state and returns or throws. `Sim P m n Q E` runs two
methods side by side, each on its own state: from states related by `P` both return, with
results and states related by `Q`, or both throw, with errors and states related by `E`.
The rules follow the structure of the methods.
-/

namespace TrustCore.Methods

abbrev Method (σ ε α : Type) := ExceptT ε (StateM σ) α

variable {σ τ ε δ α β γ κ : Type}

namespace Method

/-- The result or the error of a method, and the state that it leaves. -/
def exec (m : Method σ ε α) (s : σ) : Except ε α × σ := StateT.run (ExceptT.run m) s

def of (f : σ → Except ε α × σ) : Method σ ε α := ExceptT.mk f

@[simp] theorem exec_of (f : σ → Except ε α × σ) (s : σ) : (of f).exec s = f s := rfl

@[simp] theorem exec_pure (a : α) (s : σ) : (pure a : Method σ ε α).exec s = (.ok a, s) := rfl

@[simp] theorem exec_throw (e : ε) (s : σ) :
    (throw e : Method σ ε α).exec s = (.error e, s) := rfl

@[simp] theorem exec_get (s : σ) : (get : Method σ ε σ).exec s = (.ok s, s) := rfl

@[simp] theorem exec_modify (f : σ → σ) (s : σ) :
    (modify f : Method σ ε Unit).exec s = (.ok (), f s) := rfl

@[simp] theorem exec_liftExcept (x : Except ε α) (s : σ) :
    (liftExcept x : Method σ ε α).exec s = (x, s) := by
  cases x with
  | ok a => rfl
  | error e => rfl

theorem exec_bind (m : Method σ ε α) (f : α → Method σ ε β) (s : σ) :
    (m >>= f).exec s =
      match m.exec s with
      | (.ok a, s') => (f a).exec s'
      | (.error e, s') => (.error e, s') := by
  simp only [exec, ExceptT.run, StateT.run, bind, ExceptT.bind, ExceptT.mk, StateT.bind,
    ExceptT.bindCont]
  cases m s with
  | mk x s' =>
    cases x with
    | ok a => rfl
    | error e => rfl

theorem exec_map (m : Method σ ε α) (f : α → β) (s : σ) :
    (f <$> m).exec s =
      match m.exec s with
      | (.ok a, s') => (.ok (f a), s')
      | (.error e, s') => (.error e, s') := exec_bind m (fun a => pure (f a)) s

theorem exec_tryCatch (m : Method σ ε α) (handler : ε → Method σ ε α) (s : σ) :
    (tryCatch m handler : Method σ ε α).exec s =
      match m.exec s with
      | (.ok a, s') => (.ok a, s')
      | (.error e, s') => (handler e).exec s' := by
  simp only [exec, ExceptT.run, StateT.run, tryCatch, tryCatchThe, MonadExceptOf.tryCatch,
    ExceptT.tryCatch, ExceptT.mk, bind, StateT.bind]
  cases m s with
  | mk x s' =>
    cases x with
    | ok a => rfl
    | error e => rfl

/-- A method whose first part returns goes on with the second one. -/
theorem exec_bind_ok {m : Method σ ε α} {f : α → Method σ ε β} {s s' : σ} {a : α}
    (h : m.exec s = (.ok a, s')) : (m >>= f).exec s = (f a).exec s' := by
  rw [exec_bind, h]

theorem exec_bind_error {m : Method σ ε α} {f : α → Method σ ε β} {s s' : σ} {e : ε}
    (h : m.exec s = (.error e, s')) : (m >>= f).exec s = (.error e, s') := by
  rw [exec_bind, h]

end Method

/-- How two runs end: both return, or both throw. -/
def Ends (Q : α → β → σ → τ → Prop) (E : ε → δ → σ → τ → Prop) :
    Except ε α × σ → Except δ β × τ → Prop
  | (.ok a, s), (.ok b, t) => Q a b s t
  | (.error e, s), (.error e', t) => E e e' s t
  | _, _ => False

def Sim (P : σ → τ → Prop) (m : Method σ ε α) (n : Method τ δ β) (Q : α → β → σ → τ → Prop)
    (E : ε → δ → σ → τ → Prop) : Prop :=
  ∀ s t, P s t → Ends Q E (m.exec s) (n.exec t)

variable {P P' : σ → τ → Prop} {m : Method σ ε α} {n : Method τ δ β}
  {Q Q' : α → β → σ → τ → Prop} {R : γ → κ → σ → τ → Prop} {E E' F : ε → δ → σ → τ → Prop}

theorem Ends.mono {x : Except ε α × σ} {y : Except δ β × τ} (h : Ends Q E x y)
    (hQ : ∀ a b s t, Q a b s t → Q' a b s t) (hE : ∀ e e' s t, E e e' s t → E' e e' s t) :
    Ends Q' E' x y := by
  obtain ⟨x, s⟩ := x
  obtain ⟨y, t⟩ := y
  cases x with
  | ok a =>
    cases y with
    | ok b => exact hQ _ _ _ _ h
    | error e => exact h.elim
  | error e =>
    cases y with
    | ok b => exact h.elim
    | error e' => exact hE _ _ _ _ h

namespace Sim

theorem conseq (h : Sim P' m n Q' E') (hP : ∀ s t, P s t → P' s t)
    (hQ : ∀ a b s t, Q' a b s t → Q a b s t) (hE : ∀ e e' s t, E' e e' s t → E e e' s t) :
    Sim P m n Q E := by
  intro s t hst
  exact (h s t (hP s t hst)).mono hQ hE

protected theorem pure {a : α} {b : β} (h : ∀ s t, P s t → Q a b s t) :
    Sim P (pure a : Method σ ε α) (pure b : Method τ δ β) Q E := h

protected theorem throw {e : ε} {e' : δ} (h : ∀ s t, P s t → E e e' s t) :
    Sim P (throw e : Method σ ε α) (throw e' : Method τ δ β) Q E := h

theorem of {f : σ → Except ε α × σ} {g : τ → Except δ β × τ}
    (h : ∀ s t, P s t → Ends Q E (f s) (g t)) : Sim P (Method.of f) (Method.of g) Q E := h

protected theorem bind {m : Method σ ε γ} {n : Method τ δ κ} {f : γ → Method σ ε α}
    {g : κ → Method τ δ β} (hm : Sim P m n R E) (hf : ∀ a b, Sim (R a b) (f a) (g b) Q E) :
    Sim P (m >>= f) (n >>= g) Q E := by
  intro s t hst
  have hends := hm s t hst
  rw [Method.exec_bind, Method.exec_bind]
  cases hm' : m.exec s with
  | mk x s' =>
    cases hn' : n.exec t with
    | mk y t' =>
      rw [hm', hn'] at hends
      cases x with
      | ok a =>
        cases y with
        | ok b => exact hf a b s' t' hends
        | error e' => exact hends.elim
      | error e =>
        cases y with
        | ok b => exact hends.elim
        | error e' => exact hends

protected theorem tryCatch {h : ε → Method σ ε α} {h' : δ → Method τ δ β} (hm : Sim P m n Q F)
    (hh : ∀ e e', Sim (F e e') (h e) (h' e') Q E) :
    Sim P (tryCatch m h : Method σ ε α) (tryCatch n h' : Method τ δ β) Q E := by
  intro s t hst
  have hends := hm s t hst
  rw [Method.exec_tryCatch, Method.exec_tryCatch]
  cases hm' : m.exec s with
  | mk x s' =>
    cases hn' : n.exec t with
    | mk y t' =>
      rw [hm', hn'] at hends
      cases x with
      | ok a =>
        cases y with
        | ok b => exact hends
        | error e' => exact hends.elim
      | error e =>
        cases y with
        | ok b => exact hends.elim
        | error e' => exact hh e e' s' t' hends

end Sim

end TrustCore.Methods
