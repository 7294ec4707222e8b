import Mathlib.Logic.Function.Basic
import TrustCore.Runs

/-!
# Programs over a shared state

A `Prog` is a sequence of atomic statements with continuations. Any number of
processes run programs over one shared state; each also has a private state (the
writes of an open transaction, the locks it holds). A statement waits until the
private state it leads to is compatible with every other one, and any statement
may fail instead of running, which ends the process and drops its private state.

`Spec.Triple` is a proof outline in the style of rely and guarantee: every
intermediate assertion has to survive the statements of other processes, which
keep to `guar`. `sound` turns outlines of all programs into an invariant of all
interleavings.
-/

namespace TrustCore.Programs

open TrustCore.Runs

inductive Prog (S : Type) (R : S → Type) (ε α : Type) where
  | pure (a : α)
  | throw (e : ε)
  | stmt (s : S) (k : R s → Prog S R ε α)

namespace Prog

variable {S : Type} {R : S → Type} {ε α β : Type}

def bind : Prog S R ε α → (α → Prog S R ε β) → Prog S R ε β
  | .pure a, f => f a
  | .throw e, _ => .throw e
  | .stmt s k, f => .stmt s fun r => (k r).bind f

instance : Monad (Prog S R ε) where
  pure := .pure
  bind := bind

/-- A program with a handler for the error it ends in. -/
def catchError : Prog S R ε α → (ε → Prog S R ε α) → Prog S R ε α
  | .pure a, _ => .pure a
  | .throw e, handler => handler e
  | .stmt s k, handler => .stmt s fun r => (k r).catchError handler

/-- A program that returns the error it would end in. -/
def attempt : Prog S R ε α → Prog S R ε (Except ε α)
  | .pure a => .pure (.ok a)
  | .throw e => .pure (.error e)
  | .stmt s k => .stmt s fun r => (k r).attempt

/-- The program that returns or ends in an error as it is told. -/
def ofExcept : Except ε α → Prog S R ε α
  | .ok a => .pure a
  | .error e => .throw e

/-- One statement, with its result. -/
def perform (s : S) : Prog S R ε (R s) := .stmt s .pure

section Alone

variable {σ : Type} (step : (st : S) → σ → R st × σ)

/-- A program run to its end, every statement answered by `step`. -/
def run : Prog S R ε α → σ → Except ε α × σ
  | .pure a, s => (.ok a, s)
  | .throw e, s => (.error e, s)
  | .stmt st k, s => (k (step st s).1).run (step st s).2

/-- The state after `n` statements, where an interruption leaves it. -/
def runFor : Nat → Prog S R ε α → σ → σ
  | 0, _, s => s
  | n + 1, .stmt st k, s => runFor n (k (step st s).1) (step st s).2
  | _ + 1, _, s => s

/-- What is left of a program after `n` statements, and the state. -/
def after : Nat → Prog S R ε α → σ → Prog S R ε α × σ
  | 0, p, s => (p, s)
  | n + 1, .stmt st k, s => after n (k (step st s).1) (step st s).2
  | _ + 1, p, s => (p, s)

/-- The result of a program that has nothing left to do. -/
def outcome : Prog S R ε α → Option α
  | .pure a => some a
  | _ => none

/-- The first `n` statements of the run meet a condition. -/
def Meets (guard : σ → S → Prop) : Nat → Prog S R ε α → σ → Prop
  | n + 1, .stmt st k, s => guard s st ∧ Meets guard n (k (step st s).1) (step st s).2
  | _, _, _ => True

/-- A run in which the answer to one statement comes from `fault`. -/
inductive Faulted (fault : (st : S) → σ → R st → σ → Prop) :
    Prog S R ε α → σ → S → Except ε α × σ → Prop
  | here {st : S} {k : R st → Prog S R ε α} {s s' : σ} {r : R st} (h : fault st s r s') :
      Faulted fault (.stmt st k) s st ((k r).run step s')
  | later {st failed : S} {k : R st → Prog S R ε α} {s : σ} {answer : Except ε α × σ}
      (h : Faulted fault (k (step st s).1) (step st s).2 failed answer) :
      Faulted fault (.stmt st k) s failed answer

theorem eq_pure_of_outcome {p : Prog S R ε α} {a : α} (h : p.outcome = some a) : p = .pure a := by
  cases p with
  | pure b =>
    cases h
    rfl
  | throw e => cases h
  | stmt st k => cases h

theorem run_bind (p : Prog S R ε α) (f : α → Prog S R ε β) (s : σ) :
    (p.bind f).run step s =
      match p.run step s with
      | (.ok a, s') => (f a).run step s'
      | (.error e, s') => (.error e, s') := by
  induction p generalizing s with
  | pure a => rfl
  | throw e => rfl
  | stmt st k ih =>
    rw [bind, run, run]
    exact ih _ _

/-- The run ends in a return with `Q`. -/
def Returns (p : Prog S R ε α) (s : σ) (Q : α → σ → Prop) : Prop :=
  ∃ a s', p.run step s = (.ok a, s') ∧ Q a s'

/-- Every state of the run has `I`, and a return has `Q`. -/
def Along (I : σ → Prop) (Q : α → σ → Prop) : Prog S R ε α → σ → Prop
  | .pure a, s => I s ∧ Q a s
  | .throw _, s => I s
  | .stmt st k, s => I s ∧ (k (step st s).1).Along I Q (step st s).2

variable {step}

/-- A program returns when every part of it does. -/
theorem returns_bind {p : Prog S R ε α} {f : α → Prog S R ε β} {s : σ} {Q : β → σ → Prop} :
    (p.bind f).Returns step s Q ↔ p.Returns step s fun a s' => (f a).Returns step s' Q := by
  constructor
  · rintro ⟨b, s'', hrun, hQ⟩
    rw [run_bind] at hrun
    cases hp : p.run step s with
    | mk answer s' =>
      rw [hp] at hrun
      cases answer with
      | ok a => exact ⟨a, s', hp, b, s'', hrun, hQ⟩
      | error e => simp at hrun
  · rintro ⟨a, s', hp, b, s'', hrun, hQ⟩
    refine ⟨b, s'', ?_, hQ⟩
    rw [run_bind, hp]
    exact hrun

theorem Returns.bind {p : Prog S R ε α} {f : α → Prog S R ε β} {s : σ} {Q : α → σ → Prop}
    {Q' : β → σ → Prop} (h : p.Returns step s Q)
    (hf : ∀ a s', Q a s' → (f a).Returns step s' Q') : (p.bind f).Returns step s Q' := by
  obtain ⟨a, s', hrun, hQ⟩ := h
  exact returns_bind.mpr ⟨a, s', hrun, hf a s' hQ⟩

theorem Returns.mono {p : Prog S R ε α} {s : σ} {Q Q' : α → σ → Prop} (h : p.Returns step s Q)
    (hQ : ∀ a s', Q a s' → Q' a s') : p.Returns step s Q' := by
  obtain ⟨a, s', hrun, hQ'⟩ := h
  exact ⟨a, s', hrun, hQ a s' hQ'⟩

/-- A run ends in one way. -/
theorem returns_of_run {p : Prog S R ε α} {s s' : σ} {a : α} {Q : α → σ → Prop}
    (h : p.run step s = (.ok a, s')) : p.Returns step s Q ↔ Q a s' := by
  constructor
  · rintro ⟨b, s'', hrun, hQ⟩
    rw [h] at hrun
    cases hrun
    exact hQ
  · exact fun hQ => ⟨a, s', h, hQ⟩

theorem returns_pure {a : α} {s : σ} {Q : α → σ → Prop} :
    (Prog.pure a : Prog S R ε α).Returns step s Q ↔ Q a s := by
  constructor
  · rintro ⟨_, _, h, hQ⟩
    cases h
    exact hQ
  · exact fun hQ => ⟨a, s, rfl, hQ⟩

theorem not_returns_throw {e : ε} {s : σ} {Q : α → σ → Prop} :
    ¬ (Prog.throw e : Prog S R ε α).Returns step s Q := by
  simp [Returns, run]

theorem returns_perform {st : S} {s : σ} {Q : R st → σ → Prop} :
    (perform st : Prog S R ε (R st)).Returns step s Q ↔ Q (step st s).1 (step st s).2 := by
  constructor
  · rintro ⟨_, _, h, hQ⟩
    cases h
    exact hQ
  · exact fun hQ => ⟨_, _, rfl, hQ⟩

/-- A handler has nothing to do where the program returns. -/
theorem Returns.catchError {p : Prog S R ε α} {handler : ε → Prog S R ε α} {s : σ}
    {Q : α → σ → Prop} (h : p.Returns step s Q) : (p.catchError handler).Returns step s Q := by
  induction p generalizing s with
  | pure a => exact h
  | throw e => exact absurd h not_returns_throw
  | stmt st k ih => exact ih _ h

theorem faulted_stmt {fault : (st : S) → σ → R st → σ → Prop} {st failed : S}
    {k : R st → Prog S R ε α} {s : σ} {answer : Except ε α × σ} :
    (Prog.stmt st k).Faulted step fault s failed answer ↔
      (∃ r s', fault st s r s' ∧ failed = st ∧ answer = (k r).run step s') ∨
      (k (step st s).1).Faulted step fault (step st s).2 failed answer := by
  constructor
  · intro h
    cases h with
    | here hfault => exact .inl ⟨_, _, hfault, rfl, rfl⟩
    | later hlater => exact .inr hlater
  · rintro (⟨r, s', hfault, rfl, rfl⟩ | hlater)
    · exact .here hfault
    · exact .later hlater

theorem not_faulted_pure {fault : (st : S) → σ → R st → σ → Prop} {a : α} {s : σ} {failed : S}
    {answer : Except ε α × σ} :
    ¬ (Prog.pure a : Prog S R ε α).Faulted step fault s failed answer := nofun

theorem not_faulted_throw {fault : (st : S) → σ → R st → σ → Prop} {e : ε} {s : σ} {failed : S}
    {answer : Except ε α × σ} :
    ¬ (Prog.throw e : Prog S R ε α).Faulted step fault s failed answer := nofun

instance decidableMeets {guard : σ → S → Prop} [hg : ∀ s st, Decidable (guard s st)] (n : Nat)
    (p : Prog S R ε α) (s : σ) : Decidable (p.Meets step guard n s) :=
  match n, p with
  | 0, _ => .isTrue trivial
  | _ + 1, .pure _ => .isTrue trivial
  | _ + 1, .throw _ => .isTrue trivial
  | n + 1, .stmt st k =>
    @instDecidableAnd _ _ (hg s st) (decidableMeets n (k (step st s).1) (step st s).2)

theorem meets_true (n : Nat) (p : Prog S R ε α) (s : σ) :
    p.Meets step (fun _ _ => True) n s := by
  induction n generalizing p s with
  | zero => exact trivial
  | succ n ih =>
    cases p with
    | pure a => exact trivial
    | throw e => exact trivial
    | stmt st k => exact ⟨trivial, ih _ _⟩

theorem Along.runFor {I : σ → Prop} {Q : α → σ → Prop} {p : Prog S R ε α} {s : σ}
    (h : p.Along step I Q s) (n : Nat) : I (p.runFor step n s) := by
  induction p generalizing s n with
  | pure a =>
    cases n with
    | zero => exact h.1
    | succ n => exact h.1
  | throw e =>
    cases n with
    | zero => exact h
    | succ n => exact h
  | stmt st k ih =>
    cases n with
    | zero => exact h.1
    | succ n => exact ih _ h.2 n

theorem Along.bind {I : σ → Prop} {Q : α → σ → Prop} {Q' : β → σ → Prop} {p : Prog S R ε α}
    {f : α → Prog S R ε β} {s : σ} (h : p.Along step I Q s)
    (hf : ∀ a s', I s' → Q a s' → (f a).Along step I Q' s') : (p.bind f).Along step I Q' s := by
  induction p generalizing s with
  | pure a => exact hf a s h.1 h.2
  | throw e => exact h
  | stmt st k ih => exact ⟨h.1, ih _ h.2⟩

theorem Along.catchError {I : σ → Prop} {Q : α → σ → Prop} {p : Prog S R ε α}
    {handler : ε → Prog S R ε α} {s : σ} (h : p.Along step I Q s)
    (hh : ∀ e s', I s' → (handler e).Along step I Q s') :
    (p.catchError handler).Along step I Q s := by
  induction p generalizing s with
  | pure a => exact h
  | throw e => exact hh e s h
  | stmt st k ih => exact ⟨h.1, ih _ h.2⟩

theorem Along.mono {I : σ → Prop} {Q Q' : α → σ → Prop} {p : Prog S R ε α} {s : σ}
    (h : p.Along step I Q s) (hQ : ∀ a s', Q a s' → Q' a s') : p.Along step I Q' s := by
  induction p generalizing s with
  | pure a => exact ⟨h.1, hQ a s h.2⟩
  | throw e => exact h
  | stmt st k ih => exact ⟨h.1, ih _ h.2⟩

/-- What every statement keeps is kept. -/
theorem along_of_step {I : σ → Prop} (hstep : ∀ st s, I s → I (step st s).2) (p : Prog S R ε α)
    {s : σ} (hs : I s) : p.Along step I (fun _ _ => True) s := by
  induction p generalizing s with
  | pure a => exact ⟨hs, trivial⟩
  | throw e => exact hs
  | stmt st k ih => exact ⟨hs, ih _ (hstep st s hs)⟩

theorem along_ofExcept {I : σ → Prop} {Q : α → σ → Prop} {r : Except ε α} {s : σ} (hs : I s)
    (hQ : ∀ a, r = .ok a → Q a s) : (ofExcept r : Prog S R ε α).Along step I Q s := by
  cases r with
  | ok a => exact ⟨hs, hQ a rfl⟩
  | error e => exact hs

theorem along_perform {I : σ → Prop} {st : S} {Q : R st → σ → Prop} {s : σ} (hs : I s)
    (hs' : I (step st s).2) (hQ : Q (step st s).1 (step st s).2) :
    (perform st : Prog S R ε (R st)).Along step I Q s := ⟨hs, hs', hQ⟩

end Alone

/-- Every statement of a program has `P`, whatever the answers are. -/
def Only (P : S → Prop) : Prog S R ε α → Prop
  | .pure _ => True
  | .throw _ => True
  | .stmt st k => P st ∧ ∀ r, (k r).Only P

theorem Only.bind {P : S → Prop} {p : Prog S R ε α} {f : α → Prog S R ε β} (h : p.Only P)
    (hf : ∀ a, (f a).Only P) : (p.bind f).Only P := by
  induction p with
  | pure a => exact hf a
  | throw e => trivial
  | stmt st k ih => exact ⟨h.1, fun r => ih r (h.2 r)⟩

theorem only_ofExcept {P : S → Prop} (answer : Except ε α) :
    (ofExcept answer : Prog S R ε α).Only P := by
  cases answer with
  | ok a => trivial
  | error e => trivial

section Parts

variable {S' : Type} {R' : S' → Type} {ε' : Type} {inject : S → S'}

/-- A program as one over more kinds of statements. -/
def embed (inject : S → S') (back : ∀ st, R' (inject st) → R st) (fail : ε → ε') :
    Prog S R ε α → Prog S' R' ε' α
  | .pure a => .pure a
  | .throw e => .throw (fail e)
  | .stmt st k => .stmt (inject st) fun r => embed inject back fail (k (back st r))

theorem Only.embed {P : S → Prop} {P' : S' → Prop} (hP : ∀ st, P st → P' (inject st))
    {back : ∀ st, R' (inject st) → R st} {fail : ε → ε'} {p : Prog S R ε α} (h : p.Only P) :
    (p.embed inject back fail).Only P' := by
  induction p with
  | pure a => trivial
  | throw e => trivial
  | stmt st k ih => exact ⟨hP st h.1, fun r => ih _ (h.2 _)⟩

/-- The statements of a part read and write one part of the state. -/
structure Part {σ σ' : Type} (step : (st : S) → σ → R st × σ) (step' : (st : S') → σ' → R' st × σ')
    (back : ∀ st, R' (inject st) → R st) (get : σ' → σ) (put : σ → σ' → σ') : Prop where
  get_put : ∀ s w, get (put s w) = s
  put_get : ∀ w, put (get w) w = w
  put_put : ∀ s s' w, put s (put s' w) = put s w
  answer : ∀ st w, back st (step' (inject st) w).1 = (step st (get w)).1
  state : ∀ st w, (step' (inject st) w).2 = put (step st (get w)).2 w

variable {σ σ' : Type} {step : (st : S) → σ → R st × σ} {step' : (st : S') → σ' → R' st × σ'}
  {back : ∀ st, R' (inject st) → R st} {get : σ' → σ} {put : σ → σ' → σ'}

theorem Part.run_embed (h : Part step step' back get put) (fail : ε → ε') (p : Prog S R ε α)
    (w : σ') : (p.embed inject back fail).run step' w =
      ((p.run step (get w)).1.mapError fail, put (p.run step (get w)).2 w) := by
  induction p generalizing w with
  | pure a => exact Prod.ext rfl (h.put_get w).symm
  | throw e => exact Prod.ext rfl (h.put_get w).symm
  | stmt st k ih => rw [embed, run, run, ih, h.answer, h.state, h.get_put, h.put_put]

theorem Part.returns_embed (h : Part step step' back get put) {fail : ε → ε'} {p : Prog S R ε α}
    {w : σ'} {Q : α → σ' → Prop} : (p.embed inject back fail).Returns step' w Q ↔
      p.Returns step (get w) fun a s => Q a (put s w) := by
  rw [Returns, Returns, h.run_embed]
  constructor
  · rintro ⟨a, w', hrun, hQ⟩
    cases hp : p.run step (get w) with
    | mk answer s =>
      rw [hp] at hrun
      cases answer with
      | ok b =>
        cases hrun
        exact ⟨_, _, rfl, hQ⟩
      | error e => cases hrun
  · rintro ⟨a, s, hrun, hQ⟩
    exact ⟨a, put s w, by rw [hrun]; rfl, hQ⟩

end Parts

end Prog

/-- The atomic statements: what one does to the shared and the private state. -/
structure System (ι σ β S : Type) (R : S → Type) where
  start : β
  exec : ι → σ → β → (s : S) → R s → σ → β → Prop
  compatible : β → β → Prop

inductive Proc (β S : Type) (R : S → Type) (ε α : Type) where
  | idle
  | running (tx : β) (p : Prog S R ε α)
  | returned (a : α)
  | threw

structure World (ι σ β S : Type) (R : S → Type) (ε α : Type) where
  shared : σ
  procs : ι → Proc β S R ε α

inductive Event (ι : Type) (S : Type) (R : S → Type) (ε α : Type) where
  | begin (i : ι) (p : Prog S R ε α)
  | run (i : ι)
  | fail (i : ι)
  | finish (i : ι)

section

variable {ι σ β S : Type} {R : S → Type} {ε α : Type}

def World.set [DecidableEq ι] (w : World ι σ β S R ε α) (i : ι) (x : Proc β S R ε α) : World ι σ β S R ε α :=
  { w with procs := Function.update w.procs i x }

/-- One step of one process. -/
inductive System.Step [DecidableEq ι] (D : System ι σ β S R) (allowed : Prog S R ε α → Prop) :
    World ι σ β S R ε α → Event ι S R ε α → World ι σ β S R ε α → Prop
  | begin (w : World ι σ β S R ε α) (i : ι) (p : Prog S R ε α) (h : w.procs i = .idle)
      (hp : allowed p) : D.Step allowed w (.begin i p) (w.set i (.running D.start p))
  | run (w : World ι σ β S R ε α) (i : ι) (tx tx' : β) (s : S) (k : R s → Prog S R ε α) (r : R s)
      (shared' : σ) (h : w.procs i = .running tx (.stmt s k))
      (hx : D.exec i w.shared tx s r shared' tx')
      (hc : ∀ j tx'' p, j ≠ i → w.procs j = .running tx'' p → D.compatible tx' tx'') :
      D.Step allowed w (.run i) { w.set i (.running tx' (k r)) with shared := shared' }
  | fail (w : World ι σ β S R ε α) (i : ι) (tx : β) (p : Prog S R ε α)
      (h : w.procs i = .running tx p) (hp : ∀ a, p ≠ .pure a) :
      D.Step allowed w (.fail i) (w.set i .threw)
  | finish (w : World ι σ β S R ε α) (i : ι) (tx : β) (a : α)
      (h : w.procs i = .running tx (.pure a)) :
      D.Step allowed w (.finish i) (w.set i (.returned a))

/-- Process `i` runs the rest of its program with nobody in between. -/
inductive System.Solo (D : System ι σ β S R) (i : ι) :
    σ → β → Prog S R ε α → σ → β → α → Prop
  | pure (s : σ) (tx : β) (a : α) : D.Solo i s tx (.pure a) s tx a
  | stmt {s s₁ s' : σ} {tx tx₁ tx' : β} {st : S} {k : R st → Prog S R ε α} {r : R st} {a : α}
      (hx : D.exec i s tx st r s₁ tx₁) (h : D.Solo i s₁ tx₁ (k r) s' tx' a) :
      D.Solo i s tx (.stmt st k) s' tx' a

theorem System.solo_bind {γ : Type} {D : System ι σ β S R} {i : ι} {s s' : σ} {tx tx' : β}
    {p : Prog S R ε α} {f : α → Prog S R ε γ} {b : γ} :
    D.Solo i s tx (p.bind f) s' tx' b ↔
      ∃ s₁ tx₁ a, D.Solo i s tx p s₁ tx₁ a ∧ D.Solo i s₁ tx₁ (f a) s' tx' b := by
  constructor
  · intro h
    induction p generalizing s tx with
    | pure a => exact ⟨s, tx, a, .pure s tx a, h⟩
    | throw e => cases h
    | stmt st k ih =>
      cases h with
      | stmt hx h =>
        obtain ⟨s₁, tx₁, a, h₁, h₂⟩ := ih _ h
        exact ⟨s₁, tx₁, a, .stmt hx h₁, h₂⟩
  · rintro ⟨s₁, tx₁, a, h₁, h₂⟩
    induction h₁ with
    | pure => exact h₂
    | stmt hx _ ih => exact .stmt hx (ih h₂)

theorem System.solo_perform {D : System ι σ β S R} {i : ι} {s s' : σ} {tx tx' : β} {st : S}
    {r : R st} : D.Solo i s tx (Prog.perform st : Prog S R ε (R st)) s' tx' r ↔
      D.exec i s tx st r s' tx' := by
  constructor
  · intro h
    cases h with
    | stmt hx h =>
      cases h
      exact hx
  · exact fun hx => .stmt hx (.pure _ _ _)

/-- Process `i` runs its program with nobody in between, up to a return or an error. -/
inductive System.Ends (D : System ι σ β S R) (i : ι) :
    σ → β → Prog S R ε α → σ → β → Except ε α → Prop
  | pure (s : σ) (tx : β) (a : α) : D.Ends i s tx (.pure a) s tx (.ok a)
  | throw (s : σ) (tx : β) (e : ε) : D.Ends i s tx (.throw e) s tx (.error e)
  | stmt {s s₁ s' : σ} {tx tx₁ tx' : β} {st : S} {k : R st → Prog S R ε α} {r : R st}
      {result : Except ε α} (hx : D.exec i s tx st r s₁ tx₁)
      (h : D.Ends i s₁ tx₁ (k r) s' tx' result) : D.Ends i s tx (.stmt st k) s' tx' result

theorem System.ends_ok {D : System ι σ β S R} {i : ι} {s s' : σ} {tx tx' : β} {p : Prog S R ε α}
    {a : α} (h : D.Solo i s tx p s' tx' a) : D.Ends i s tx p s' tx' (.ok a) := by
  induction h with
  | pure s tx a => exact .pure s tx a
  | stmt hx _ ih => exact .stmt hx ih

theorem System.Ends.bind_error {γ : Type} {D : System ι σ β S R} {i : ι} {s s' : σ} {tx tx' : β}
    {p : Prog S R ε α} {f : α → Prog S R ε γ} {e : ε} (h : D.Ends i s tx p s' tx' (.error e)) :
    D.Ends i s tx (p.bind f) s' tx' (.error e) := by
  induction p generalizing s tx with
  | pure a => cases h
  | throw e' =>
    cases h
    exact .throw _ _ _
  | stmt st k ih =>
    cases h with
    | stmt hx h => exact .stmt hx (ih _ h)

theorem System.Ends.attempt {D : System ι σ β S R} {i : ι} {s s' : σ} {tx tx' : β}
    {p : Prog S R ε α} {result : Except ε α} (h : D.Ends i s tx p s' tx' result) :
    D.Solo i s tx (p.attempt : Prog S R ε (Except ε α)) s' tx' result := by
  induction h with
  | pure s tx a => exact .pure s tx (Except.ok a)
  | throw s tx e => exact .pure s tx (Except.error e)
  | stmt hx _ ih => exact .stmt hx ih

theorem System.Solo.of_attempt {D : System ι σ β S R} {i : ι} {s s' : σ} {tx tx' : β}
    {p : Prog S R ε α} {result : Except ε α}
    (h : D.Solo i s tx (p.attempt : Prog S R ε (Except ε α)) s' tx' result) :
    D.Ends i s tx p s' tx' result := by
  induction p generalizing s tx with
  | pure a =>
    cases h
    exact .pure _ _ a
  | throw e =>
    cases h
    exact .throw _ _ e
  | stmt st k ih =>
    cases h with
    | stmt hx h => exact .stmt hx (ih _ h)

theorem System.Solo.catchError {D : System ι σ β S R} {i : ι} {s s' : σ} {tx tx' : β}
    {p : Prog S R ε α} {handler : ε → Prog S R ε α} {a : α} (h : D.Solo i s tx p s' tx' a) :
    D.Solo i s tx (p.catchError handler) s' tx' a := by
  induction h with
  | pure s tx a => exact .pure s tx a
  | stmt hx _ ih => exact .stmt hx ih

/-- All processes start idle. -/
def System.machine [DecidableEq ι] (D : System ι σ β S R) (allowed : Prog S R ε α → Prop) (init : σ → Prop) :
    Machine (World ι σ β S R ε α) (Event ι S R ε α) where
  init w := init w.shared ∧ ∀ i, w.procs i = .idle
  step := D.Step allowed

/-- A program answered by `step` is a run with nobody in between. -/
theorem System.ends_of_run {D : System ι σ Unit S R} {i : ι} {step : (st : S) → σ → R st × σ}
    (hexec : ∀ st s, D.exec i s () st (step st s).1 (step st s).2 ()) (p : Prog S R ε α) (s : σ) :
    D.Ends i s () p (p.run step s).2 () (p.run step s).1 := by
  induction p generalizing s with
  | pure a => exact .pure s () a
  | throw e => exact .throw s () e
  | stmt st k ih => exact .stmt (hexec st s) (ih _ _)

/-- How a process has ended. -/
def Proc.ofResult : Except ε α → Proc β S R ε α
  | .ok a => .returned a
  | .error _ => .threw

/-- A run of one process is a run of the machine while no other process is active. -/
theorem System.Ends.reachable [DecidableEq ι] {D : System ι σ β S R}
    {allowed : Prog S R ε α → Prop} {init : σ → Prop} {i : ι} {s s' : σ} {tx tx' : β}
    {p : Prog S R ε α} {result : Except ε α} (h : D.Ends i s tx p s' tx' result)
    (procs : ι → Proc β S R ε α) (hothers : ∀ j tx p, j ≠ i → procs j ≠ .running tx p)
    (hr : (D.machine allowed init).Reachable ⟨s, Function.update procs i (.running tx p)⟩) :
    (D.machine allowed init).Reachable ⟨s', Function.update procs i (.ofResult result)⟩ := by
  induction h with
  | pure s tx a =>
    have hstep : D.Step allowed ⟨s, Function.update procs i (.running tx (.pure a))⟩ (.finish i)
        _ := .finish _ i tx a (by simp)
    have hnext := Machine.Reachable.step hr hstep
    rw [World.set] at hnext
    simpa [Proc.ofResult] using hnext
  | throw s tx e =>
    have hstep : D.Step allowed ⟨s, Function.update procs i (.running tx (.throw e))⟩ (.fail i)
        _ := .fail _ i tx (.throw e) (by simp) (by simp)
    have hnext := Machine.Reachable.step hr hstep
    rw [World.set] at hnext
    simpa [Proc.ofResult] using hnext
  | @stmt s s₁ s' tx tx₁ tx' st k r result hx _ ih =>
    refine ih ?_
    have hfree : ∀ j tx'' q, j ≠ i →
        Function.update procs i (.running tx (.stmt st k)) j = .running tx'' q →
        D.compatible tx₁ tx'' := by
      intro j tx'' q hj hq
      simp only [Function.update_of_ne hj] at hq
      exact absurd hq (hothers j tx'' q hj)
    have hstep : D.Step allowed ⟨s, Function.update procs i (.running tx (.stmt st k))⟩ (.run i)
        _ := .run _ i tx tx₁ st k r s₁ (by simp) hx hfree
    have hnext := Machine.Reachable.step hr hstep
    rw [World.set] at hnext
    simpa using hnext

theorem System.Solo.reachable [DecidableEq ι] {D : System ι σ β S R}
    {allowed : Prog S R ε α → Prop} {init : σ → Prop} {i : ι} {s s' : σ} {tx tx' : β}
    {p : Prog S R ε α} {a : α} (h : D.Solo i s tx p s' tx' a)
    (procs : ι → Proc β S R ε α) (hothers : ∀ j tx p, j ≠ i → procs j ≠ .running tx p)
    (hr : (D.machine allowed init).Reachable ⟨s, Function.update procs i (.running tx p)⟩) :
    (D.machine allowed init).Reachable ⟨s', Function.update procs i (.returned a)⟩ :=
  (System.ends_ok h).reachable procs hothers hr

/-- One process runs some statements while the others wait. -/
theorem System.reaches_after [DecidableEq ι] {D : System ι σ Unit S R}
    {allowed : Prog S R ε α → Prop} {init : σ → Prop} {step : (st : S) → σ → R st × σ}
    {admits : World ι σ Unit S R ε α → Event ι S R ε α → Prop} {guard : σ → S → Prop} {i : ι}
    (hexec : ∀ st s, D.exec i s () st (step st s).1 (step st s).2 ())
    (hcompatible : ∀ tx tx', D.compatible tx tx')
    (hadmits : ∀ w, (∀ tx st k, w.procs i = .running tx (.stmt st k) → guard w.shared st) →
      admits w (.run i))
    {s : σ} {procs : ι → Proc Unit S R ε α} {p : Prog S R ε α} {n : Nat}
    (hguard : p.Meets step guard n s)
    (h : (D.machine allowed init).Reaches admits ⟨s, Function.update procs i (.running () p)⟩) :
    (D.machine allowed init).Reaches admits
      ⟨(p.after step n s).2, Function.update procs i (.running () (p.after step n s).1)⟩ := by
  induction n generalizing p s with
  | zero => exact h
  | succ n ih =>
    cases p with
    | pure a => exact h
    | throw e => exact h
    | stmt st k =>
      apply ih hguard.2
      have hmove : D.Step allowed ⟨s, Function.update procs i (.running () (.stmt st k))⟩ (.run i) _ :=
        .run _ i () () st k (step st s).1 (step st s).2 (by simp) (hexec st s)
          fun _ _ _ _ _ => hcompatible _ _
      have hnext := Machine.Reaches.step h (hadmits _ ?_) hmove
      · rw [World.set] at hnext
        simpa using hnext
      · intro tx st' k' hi
        simp only [Function.update_self, Proc.running.injEq, Prog.stmt.injEq] at hi
        obtain ⟨-, rfl, -⟩ := hi
        exact hguard.1

/-- What all processes keep: an invariant of the shared state, what a statement of
one process may do to it, and what holds of a process that failed. -/
structure Spec (ι σ β : Type) where
  inv : σ → Prop
  guar : ι → σ → β → σ → Prop
  failed : ι → σ → Prop

variable (D : System ι σ β S R) (spec : Spec ι σ β)

/-- The assertion survives the statements of every other process. -/
def Spec.Stable (i : ι) (A : σ → β → Prop) : Prop :=
  ∀ j s tx s' other, j ≠ i → spec.inv s → A s tx → D.compatible tx other →
    spec.guar j s other s' → A s' tx

/-- From `A`, process `i` keeps to the specification and returns under `Q`. -/
def Spec.Triple (i : ι) (A : σ → β → Prop) : Prog S R ε α → (α → σ → β → Prop) → Prop
  | .pure a, Q => ∀ s tx, spec.inv s → A s tx → Q a s tx
  | .throw _, _ => ∀ s tx, spec.inv s → A s tx → spec.failed i s
  | .stmt st k, Q => (∀ s tx, spec.inv s → A s tx → spec.failed i s) ∧
      ∃ A' : R st → σ → β → Prop, (∀ r, spec.Stable D i (A' r)) ∧
        (∀ s tx r s' tx', spec.inv s → A s tx → D.exec i s tx st r s' tx' →
          spec.inv s' ∧ spec.guar i s tx s' ∧ A' r s' tx') ∧
        ∀ r, Spec.Triple i (A' r) (k r) Q

variable {D spec}

theorem Spec.Triple.pre {i : ι} {A A' : σ → β → Prop} {p : Prog S R ε α}
    {Q : α → σ → β → Prop} (h : spec.Triple D i A p Q)
    (hA : ∀ s tx, spec.inv s → A' s tx → A s tx) : spec.Triple D i A' p Q := by
  cases p with
  | pure a => exact fun s tx hs ha => h s tx hs (hA s tx hs ha)
  | throw e => exact fun s tx hs ha => h s tx hs (hA s tx hs ha)
  | stmt st k =>
    obtain ⟨hf, B, hB, hx, hk⟩ := h
    exact ⟨fun s tx hs ha => hf s tx hs (hA s tx hs ha), B, hB,
      fun s tx r s' tx' hs ha => hx s tx r s' tx' hs (hA s tx hs ha), hk⟩

theorem Spec.Triple.post {i : ι} {A : σ → β → Prop} {p : Prog S R ε α}
    {Q Q' : α → σ → β → Prop} (h : spec.Triple D i A p Q)
    (hQ : ∀ a s tx, spec.inv s → Q a s tx → Q' a s tx) : spec.Triple D i A p Q' := by
  induction p generalizing A with
  | pure a => exact fun s tx hs ha => hQ a s tx hs (h s tx hs ha)
  | throw e => exact h
  | stmt st k ih =>
    obtain ⟨hf, B, hB, hx, hk⟩ := h
    exact ⟨hf, B, hB, hx, fun r => ih r (hk r)⟩

theorem Spec.Triple.bind {γ : Type} {i : ι} {A : σ → β → Prop} {p : Prog S R ε α}
    {f : α → Prog S R ε γ} {Q : α → σ → β → Prop} {Q' : γ → σ → β → Prop}
    (h : spec.Triple D i A p Q) (hf : ∀ a, spec.Triple D i (Q a) (f a) Q') :
    spec.Triple D i A (p.bind f) Q' := by
  induction p generalizing A with
  | pure a => exact (hf a).pre h
  | throw e => exact h
  | stmt st k ih =>
    obtain ⟨hfail, B, hB, hx, hk⟩ := h
    exact ⟨hfail, B, hB, hx, fun r => ih r (hk r)⟩

theorem Spec.Triple.failed {i : ι} {A : σ → β → Prop} {p : Prog S R ε α} {Q : α → σ → β → Prop}
    (h : spec.Triple D i A p Q) (hp : ∀ a, p ≠ .pure a) {s : σ} {tx : β} (hs : spec.inv s)
    (hA : A s tx) : spec.failed i s := by
  cases p with
  | pure a => exact absurd rfl (hp a)
  | throw e => exact h s tx hs hA
  | stmt st k => exact h.1 s tx hs hA

/-- One statement leads from `A` to `B`. -/
theorem Spec.Triple.perform {i : ι} {A : σ → β → Prop} {st : S} (B : R st → σ → β → Prop)
    (hfail : ∀ s tx, spec.inv s → A s tx → spec.failed i s)
    (hstable : ∀ r, spec.Stable D i (B r))
    (hx : ∀ s tx r s' tx', spec.inv s → A s tx → D.exec i s tx st r s' tx' →
      spec.inv s' ∧ spec.guar i s tx s' ∧ B r s' tx') :
    spec.Triple D i A (Prog.perform st : Prog S R ε (R st)) B :=
  ⟨hfail, B, hstable, hx, fun _ _ _ _ hb => hb⟩

/-- Nothing has to be shown where a program cannot be. -/
theorem Spec.Triple.of_false {i : ι} {p : Prog S R ε α} {Q : α → σ → β → Prop} :
    spec.Triple D i (fun _ _ => False) p Q := by
  induction p with
  | pure a => exact fun s tx _ h => h.elim
  | throw e => exact fun s tx _ h => h.elim
  | stmt st k ih =>
    refine ⟨fun s tx _ h => h.elim, fun _ _ _ => False, ?_, ?_, fun r => ih r⟩
    · intro r j s tx s' other _ _ h
      exact h.elim
    · intro s tx r s' tx' _ h
      exact h.elim

/-- A fact that is not about the state may be used in the whole outline. -/
theorem Spec.Triple.given {P : Prop} {i : ι} {A : σ → β → Prop} {p : Prog S R ε α}
    {Q : α → σ → β → Prop} (h : P → spec.Triple D i A p Q) :
    spec.Triple D i (fun s tx => P ∧ A s tx) p Q := by
  by_cases hP : P
  · exact (h hP).pre fun s tx _ ha => ha.2
  · exact Spec.Triple.of_false.pre fun s tx _ ha => hP ha.1

/-- A program whose errors say nothing of the state may be asked for them. -/
theorem Spec.Triple.attempt {i : ι} {A : σ → β → Prop} {p : Prog S R ε α}
    {Q : α → σ → β → Prop} (h : spec.Triple D i A p Q) :
    spec.Triple D i A p.attempt fun r s tx => ∀ a, r = .ok a → Q a s tx := by
  induction p generalizing A with
  | pure a =>
    intro s tx hs ha b hb
    cases hb
    exact h s tx hs ha
  | throw e =>
    intro s tx hs ha b hb
    cases hb
  | stmt st k ih =>
    obtain ⟨hf, B, hB, hx, hk⟩ := h
    exact ⟨hf, B, hB, hx, fun r => ih r (hk r)⟩

/-- A handler that needs nothing of the state. -/
theorem Spec.Triple.catchError {i : ι} {A : σ → β → Prop} {p : Prog S R ε α}
    {handler : ε → Prog S R ε α} {Q : α → σ → β → Prop} (h : spec.Triple D i A p Q)
    (hh : ∀ e, spec.Triple D i (fun _ _ => True) (handler e) Q) :
    spec.Triple D i A (p.catchError handler) Q := by
  induction p generalizing A with
  | pure a => exact h
  | throw e => exact (hh e).pre fun _ _ _ _ => trivial
  | stmt st k ih =>
    obtain ⟨hf, B, hB, hx, hk⟩ := h
    exact ⟨hf, B, hB, hx, fun r => ih r (hk r)⟩

/-- What soundness keeps in every state of every interleaving. -/
structure Spec.Holds (D : System ι σ β S R) (spec : Spec ι σ β) (w : World ι σ β S R ε α) :
    Prop where
  inv : spec.inv w.shared
  failed : ∀ i, w.procs i = .idle ∨ w.procs i = .threw → spec.failed i w.shared
  outline : ∀ i tx p, w.procs i = .running tx p → ∃ A Q, spec.Stable D i A ∧
    A w.shared tx ∧ spec.Triple D i A p Q
  compatible : ∀ i j tx tx' p p', i ≠ j → w.procs i = .running tx p →
    w.procs j = .running tx' p' → D.compatible tx tx'

/-- The side conditions of a specification: nothing conflicts with a process that
has done nothing, and one that failed stays so whatever others do. -/
structure Spec.Sound (D : System ι σ β S R) (spec : Spec ι σ β)
    (allowed : Prog S R ε α → Prop) : Prop where
  symm : ∀ tx tx', D.compatible tx tx' → D.compatible tx' tx
  start : ∀ tx, D.compatible D.start tx
  failed : ∀ i j s tx s', j ≠ i → spec.inv s → spec.failed i s → spec.guar j s tx s' →
    spec.failed i s'
  programs : ∀ i p, allowed p → ∃ Q,
    spec.Triple D i (fun s tx => tx = D.start ∧ spec.failed i s) p Q

theorem set_procs_ne [DecidableEq ι] {w : World ι σ β S R ε α} {i j : ι} {x : Proc β S R ε α} (h : j ≠ i) :
    (w.set i x).procs j = w.procs j := Function.update_of_ne h _ _

theorem set_procs_self [DecidableEq ι] {w : World ι σ β S R ε α} {i : ι} {x : Proc β S R ε α} :
    (w.set i x).procs i = x := Function.update_self _ _ _

variable [DecidableEq ι] {allowed : Prog S R ε α → Prop} {w w' : World ι σ β S R ε α}

theorem Spec.Holds.begin (h : spec.Holds D w) (hs : spec.Sound D allowed) {i : ι}
    {p : Prog S R ε α} (hi : w.procs i = .idle) (hp : allowed p) :
    spec.Holds D (w.set i (.running D.start p)) := by
  refine ⟨h.inv, ?_, ?_, ?_⟩
  · intro j hj
    by_cases hji : j = i
    · exact hji ▸ h.failed i (Or.inl hi)
    · rw [set_procs_ne hji] at hj
      exact h.failed j hj
  · intro j tx q hj
    by_cases hji : j = i
    · subst hji
      rw [set_procs_self, Proc.running.injEq] at hj
      obtain ⟨rfl, rfl⟩ := hj
      obtain ⟨Q, hQ⟩ := hs.programs j p hp
      refine ⟨_, Q, ?_, ⟨rfl, h.failed j (Or.inl hi)⟩, hQ⟩
      intro k s tx s' other hk hinv hA _ hg
      exact ⟨hA.1, hs.failed j k s other s' hk hinv hA.2 hg⟩
    · rw [set_procs_ne hji] at hj
      exact h.outline j tx q hj
  · intro j k tx tx' q q' hjk hj hk
    by_cases hji : j = i
    · subst hji
      rw [set_procs_self, Proc.running.injEq] at hj
      rw [← hj.1]
      exact hs.start tx'
    · by_cases hki : k = i
      · subst hki
        rw [set_procs_self, Proc.running.injEq] at hk
        rw [← hk.1]
        exact hs.symm _ _ (hs.start tx)
      · rw [set_procs_ne hji] at hj
        rw [set_procs_ne hki] at hk
        exact h.compatible j k tx tx' q q' hjk hj hk

theorem Spec.Holds.run (h : spec.Holds D w) (hs : spec.Sound D allowed) {i : ι} {tx tx' : β}
    {st : S} {k : R st → Prog S R ε α} {r : R st} {shared' : σ}
    (hi : w.procs i = .running tx (.stmt st k)) (hx : D.exec i w.shared tx st r shared' tx')
    (hc : ∀ j tx'' p, j ≠ i → w.procs j = .running tx'' p → D.compatible tx' tx'') :
    spec.Holds D { w.set i (.running tx' (k r)) with shared := shared' } := by
  obtain ⟨A, Q, _, hA, _, B, hB, hstep, hk⟩ := h.outline i tx _ hi
  obtain ⟨hinv, hguar, hB'⟩ := hstep _ _ _ _ _ h.inv hA hx
  refine ⟨hinv, ?_, ?_, ?_⟩
  · intro j hj
    by_cases hji : j = i
    · subst hji
      simp [World.set] at hj
    · have hj' : w.procs j = .idle ∨ w.procs j = .threw := by
        simpa [World.set, Function.update_of_ne hji] using hj
      exact hs.failed j i w.shared tx shared' (Ne.symm hji) h.inv (h.failed j hj') hguar
  · intro j ty q hj
    by_cases hji : j = i
    · subst hji
      have he : tx' = ty ∧ k r = q := by simpa [World.set] using hj
      obtain ⟨rfl, rfl⟩ := he
      exact ⟨B r, Q, hB r, hB', hk r⟩
    · have hj' : w.procs j = .running ty q := by
        simpa [World.set, Function.update_of_ne hji] using hj
      obtain ⟨A', Q', hst, hA', hT⟩ := h.outline j ty q hj'
      refine ⟨A', Q', hst, ?_, hT⟩
      exact hst i w.shared ty shared' tx (Ne.symm hji) h.inv hA'
        (h.compatible j i ty tx q _ hji hj' hi) hguar
  · intro j l ty ty' q q' hjl hj hl
    by_cases hji : j = i
    · subst hji
      have he : tx' = ty ∧ k r = q := by simpa [World.set] using hj
      rw [← he.1]
      exact hc l ty' q' (Ne.symm hjl)
        (by simpa [World.set, Function.update_of_ne (Ne.symm hjl)] using hl)
    · have hj' : w.procs j = .running ty q := by
        simpa [World.set, Function.update_of_ne hji] using hj
      by_cases hli : l = i
      · subst hli
        have he : tx' = ty' ∧ k r = q' := by simpa [World.set] using hl
        rw [← he.1]
        exact hs.symm _ _ (hc j ty q hji hj')
      · exact h.compatible j l ty ty' q q' hjl hj'
          (by simpa [World.set, Function.update_of_ne hli] using hl)

/-- A process that stops running keeps everything that is said of the others. -/
theorem Spec.Holds.stop (h : spec.Holds D w) {i : ι} {x : Proc β S R ε α}
    (hx : ∀ tx p, x ≠ .running tx p)
    (hf : x = .idle ∨ x = .threw → spec.failed i w.shared) : spec.Holds D (w.set i x) := by
  have hne : ∀ {j tx p}, (w.set i x).procs j = .running tx p → w.procs j = .running tx p := by
    intro j tx p hj
    by_cases hji : j = i
    · subst hji
      rw [set_procs_self] at hj
      exact absurd hj (hx tx p)
    · rwa [set_procs_ne hji] at hj
  refine ⟨h.inv, ?_, fun j tx p hj => h.outline j tx p (hne hj),
    fun j l tx tx' p p' hjl hj hl => h.compatible j l tx tx' p p' hjl (hne hj) (hne hl)⟩
  intro j hj
  by_cases hji : j = i
  · subst hji
    rw [set_procs_self] at hj
    exact hf hj
  · rw [set_procs_ne hji] at hj
    exact h.failed j hj

/-- If every program has an outline, the specification holds in every state of
every interleaving of any number of processes. -/
theorem sound {init : σ → Prop} (hs : spec.Sound D allowed) (hinit : ∀ s, init s → spec.inv s)
    (hfailed : ∀ s i, init s → spec.failed i s) (h : (D.machine allowed init).Reachable w) :
    spec.Holds D w := by
  refine h.invariant ?_ ?_
  · rintro w ⟨hw, hidle⟩
    refine ⟨hinit _ hw, fun i _ => hfailed _ i hw, ?_, ?_⟩
    · intro i tx p hi
      rw [hidle i] at hi
      cases hi
    · intro i j tx tx' p p' _ hi
      rw [hidle i] at hi
      cases hi
  · intro w e w' hi hstep
    cases hstep with
    | begin i p h hp => exact hi.begin hs h hp
    | run i tx tx' st k r shared' h hx hc => exact hi.run hs h hx hc
    | fail i tx p h hp =>
      obtain ⟨A, Q, _, hA, hT⟩ := hi.outline i tx p h
      exact hi.stop (by simp) (fun _ => hT.failed hp hi.inv hA)
    | finish i tx a h => exact hi.stop (by simp) (by simp)

/-- A step of a process does what its specification lets it do. -/
theorem Spec.Holds.step_guar (h : spec.Holds D w) {e : Event ι S R ε α}
    (hstep : D.Step allowed w e w') :
    w'.shared = w.shared ∨ ∃ i tx, spec.guar i w.shared tx w'.shared := by
  cases hstep with
  | begin i p h hp => exact .inl rfl
  | run i tx tx' st k r shared' hi hx hc =>
    obtain ⟨A, Q, _, hA, _, B, hB, hstep, hk⟩ := h.outline i tx _ hi
    exact .inr ⟨i, tx, (hstep _ _ _ _ _ h.inv hA hx).2.1⟩
  | fail i tx p h hp => exact .inl rfl
  | finish i tx a h => exact .inl rfl

/-- What every process keeps stays in every later state. -/
theorem Spec.Sound.kept {init : σ → Prop} (hs : spec.Sound D allowed)
    (hinit : ∀ s, init s → spec.inv s) (hfailed : ∀ s i, init s → spec.failed i s)
    {K : σ → Prop} (hK : ∀ i s tx s', spec.inv s → spec.guar i s tx s' → K s → K s')
    (hw : (D.machine allowed init).Reachable w)
    (hleads : (D.machine allowed init).Leads (fun _ _ => True) w w') (hkept : K w.shared) :
    K w'.shared := by
  induction hleads with
  | refl => exact hkept
  | @tail w₁ w₂ hfrom hstep ih =>
    obtain ⟨e, -, hstep⟩ := hstep
    have hholds := sound hs hinit hfailed (hw.leads hfrom)
    obtain hsame | ⟨i, tx, hguar⟩ := hholds.step_guar hstep
    · rw [hsame]
      exact ih
    · exact hK i _ tx _ hholds.inv hguar ih

/-- Every running program leads to what its process promises, and who has returned has
kept the promise. -/
structure Spec.Promises (D : System ι σ β S R) (spec : Spec ι σ β) (post : ι → α → σ → Prop)
    (w : World ι σ β S R ε α) : Prop where
  outline : ∀ i tx p, w.procs i = .running tx p → ∃ A, spec.Stable D i A ∧ A w.shared tx ∧
    spec.Triple D i A p fun a s _ => post i a s
  returned : ∀ i a, w.procs i = .returned a → post i a w.shared

variable {post : ι → α → σ → Prop}

/-- A process that changes nothing shared keeps the promises of the others. -/
theorem Spec.Promises.set (h : spec.Promises D post w) {i : ι} {x : Proc β S R ε α}
    (hrunning : ∀ tx p, x = .running tx p → ∃ A, spec.Stable D i A ∧ A w.shared tx ∧
      spec.Triple D i A p fun a s _ => post i a s)
    (hreturned : ∀ a, x = .returned a → post i a w.shared) :
    spec.Promises D post (w.set i x) := by
  constructor
  · intro j tx p hj
    by_cases hji : j = i
    · subst hji
      rw [set_procs_self] at hj
      exact hrunning tx p hj
    · rw [set_procs_ne hji] at hj
      exact h.outline j tx p hj
  · intro j a hj
    by_cases hji : j = i
    · subst hji
      rw [set_procs_self] at hj
      exact hreturned a hj
    · rw [set_procs_ne hji] at hj
      exact h.returned j a hj

theorem Spec.Promises.run (h : spec.Promises D post w) (hholds : spec.Holds D w)
    (hstable : ∀ i j a s tx s', j ≠ i → spec.inv s → spec.guar j s tx s' → post i a s → post i a s')
    {i : ι} {tx tx' : β} {st : S} {k : R st → Prog S R ε α} {r : R st} {shared' : σ}
    (hi : w.procs i = .running tx (.stmt st k)) (hx : D.exec i w.shared tx st r shared' tx') :
    spec.Promises D post { w.set i (.running tx' (k r)) with shared := shared' } := by
  obtain ⟨A, _, hA, _, B, hB, hstep, hk⟩ := h.outline i tx _ hi
  obtain ⟨hinv, hguar, hB'⟩ := hstep _ _ _ _ _ hholds.inv hA hx
  constructor
  · intro j ty q hj
    by_cases hji : j = i
    · subst hji
      have he : tx' = ty ∧ k r = q := by simpa [World.set] using hj
      obtain ⟨rfl, rfl⟩ := he
      exact ⟨B r, hB r, hB', hk r⟩
    · have hj' : w.procs j = .running ty q := by
        simpa [World.set, Function.update_of_ne hji] using hj
      obtain ⟨A', hst, hA', hT⟩ := h.outline j ty q hj'
      refine ⟨A', hst, ?_, hT⟩
      exact hst i w.shared ty shared' tx (Ne.symm hji) hholds.inv hA'
        (hholds.compatible j i ty tx q _ hji hj' hi) hguar
  · intro j a hj
    by_cases hji : j = i
    · subst hji
      simp [World.set] at hj
    · have hj' : w.procs j = .returned a := by
        simpa [World.set, Function.update_of_ne hji] using hj
      exact hstable j i a w.shared tx shared' (Ne.symm hji) hholds.inv hguar (h.returned j a hj')

/-- If every program leads to the same promise, and no process breaks the promise of another,
then every process that has returned has kept it, in every interleaving. -/
theorem promised {init : σ → Prop} (hs : spec.Sound D allowed) (hinit : ∀ s, init s → spec.inv s)
    (hfailed : ∀ s i, init s → spec.failed i s)
    (hpost : ∀ i p, allowed p →
      spec.Triple D i (fun s tx => tx = D.start ∧ spec.failed i s) p fun a s _ => post i a s)
    (hstable : ∀ i j a s tx s', j ≠ i → spec.inv s → spec.guar j s tx s' → post i a s → post i a s')
    (h : (D.machine allowed init).Reachable w) : spec.Promises D post w := by
  induction h with
  | init h =>
    obtain ⟨hw, hidle⟩ := h
    constructor
    · intro i tx p hi
      rw [hidle i] at hi
      cases hi
    · intro i a hi
      rw [hidle i] at hi
      cases hi
  | @step w w' e hreached _ hstep hpromises =>
    have hholds : spec.Holds D w := sound hs hinit hfailed hreached
    cases hstep with
    | begin i p h hp =>
      refine hpromises.set ?_ (by simp)
      intro tx q hq
      cases hq
      refine ⟨_, ?_, ⟨rfl, hholds.failed i (.inl h)⟩, hpost i p hp⟩
      intro k s tx s' other hk hinv hA _ hg
      exact ⟨hA.1, hs.failed i k s other s' hk hinv hA.2 hg⟩
    | run i tx tx' st k r shared' h hx hc => exact hpromises.run hholds hstable h hx
    | fail i tx p h hp => exact hpromises.set (by simp) (by simp)
    | finish i tx a h =>
      obtain ⟨A, _, hA, hT⟩ := hpromises.outline i tx _ h
      refine hpromises.set (by simp) ?_
      intro b hb
      cases hb
      exact hT w.shared tx hholds.inv hA

end

end TrustCore.Programs
