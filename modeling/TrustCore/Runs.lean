import Mathlib.Logic.Relation

/-!
# Transition systems

Runs of labelled steps, with a condition that each step of the run may have to
meet, and the rule that carries an invariant along every such run.
-/

namespace TrustCore.Runs

/-- A transition system whose steps carry a label. -/
structure Machine (σ ε : Type) where
  init : σ → Prop
  step : σ → ε → σ → Prop

variable {σ ε : Type}

/-- The states of the runs in which every step meets `guard`. -/
inductive Machine.Reaches (M : Machine σ ε) (guard : σ → ε → Prop) : σ → Prop
  | init {s : σ} (h : M.init s) : M.Reaches guard s
  | step {s s' : σ} {e : ε} (hs : M.Reaches guard s) (hg : guard s e) (h : M.step s e s') :
      M.Reaches guard s'

/-- The states of all runs. -/
def Machine.Reachable (M : Machine σ ε) (s : σ) : Prop := M.Reaches (fun _ _ => True) s

theorem Machine.Reachable.step {M : Machine σ ε} {s s' : σ} {e : ε} (hs : M.Reachable s)
    (h : M.step s e s') : M.Reachable s' := Machine.Reaches.step hs trivial h

/-- The runs from one state to another in which every step meets `guard`. -/
def Machine.Leads (M : Machine σ ε) (guard : σ → ε → Prop) : σ → σ → Prop :=
  Relation.ReflTransGen fun s s' => ∃ e, guard s e ∧ M.step s e s'

theorem Machine.Reaches.leads {M : Machine σ ε} {guard : σ → ε → Prop} {s s' : σ}
    (hs : M.Reaches guard s) (h : M.Leads guard s s') : M.Reaches guard s' := by
  induction h with
  | refl => exact hs
  | tail _ hstep ih =>
    obtain ⟨e, hguard, hstep⟩ := hstep
    exact .step ih hguard hstep

/-- A weaker condition has more runs. -/
theorem Machine.Reaches.mono {M : Machine σ ε} {guard guard' : σ → ε → Prop}
    (hguard : ∀ s e, guard s e → guard' s e) {s : σ} (h : M.Reaches guard s) : M.Reaches guard' s := by
  induction h with
  | init h => exact .init h
  | step _ hg h ih => exact .step ih (hguard _ _ hg) h

theorem Machine.Reaches.invariant {M : Machine σ ε} {guard : σ → ε → Prop} {inv : σ → Prop}
    (hinit : ∀ s, M.init s → inv s)
    (hstep : ∀ s e s', inv s → guard s e → M.step s e s' → inv s') {s : σ}
    (h : M.Reaches guard s) : inv s := by
  induction h with
  | init h => exact hinit _ h
  | step _ hg h ih => exact hstep _ _ _ ih hg h

theorem Machine.Reachable.invariant {M : Machine σ ε} {inv : σ → Prop}
    (hinit : ∀ s, M.init s → inv s) (hstep : ∀ s e s', inv s → M.step s e s' → inv s') {s : σ}
    (h : M.Reachable s) : inv s :=
  Machine.Reaches.invariant hinit (fun s e s' hi _ => hstep s e s' hi) h

end TrustCore.Runs
