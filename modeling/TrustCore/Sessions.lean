import TrustCore.Programs

/-!
# Calls of a service over one database

Each session makes one call. The call runs as a program whose statements are transactions, any of
which may be the last before the session is cut off; a retry is another session with the same call.
What a statement takes from outside (an instant, a random id) is in the label of its step.
-/

namespace TrustCore.Sessions

open TrustCore.Runs TrustCore.Programs

inductive Session (C S : Type) (R : S → Type) (ε α : Type) where
  | idle
  | running (call : C) (p : Prog S R ε α)
  | returned (call : C) (a : α)
  | stopped (call : C)

structure World (ι C σ S : Type) (R : S → Type) (ε α : Type) where
  db : σ
  sessions : ι → Session C S R ε α

inductive Label (ι C U : Type) where
  | begin (i : ι) (call : C)
  | run (i : ι) (supplies : U)
  | finish (i : ι)
  | stop (i : ι)

/-- The program of each call, and what a statement does with its supplies. -/
structure Service (C U σ S : Type) (R : S → Type) (ε α : Type) where
  program : C → Prog S R ε α
  perform : U → (st : S) → σ → R st × σ

section

variable {ι C U σ S : Type} {R : S → Type} {ε α : Type} [DecidableEq ι]

def World.set (w : World ι C σ S R ε α) (i : ι) (x : Session C S R ε α) : World ι C σ S R ε α :=
  { w with sessions := Function.update w.sessions i x }

/-- The statement that a session runs next. -/
def World.Next (w : World ι C σ S R ε α) (i : ι) (call : C) (st : S) : Prop :=
  ∃ k, w.sessions i = .running call (.stmt st k)

variable (V : Service C U σ S R ε α)

inductive Service.Step : World ι C σ S R ε α → Label ι C U → World ι C σ S R ε α → Prop
  | begin (w : World ι C σ S R ε α) (i : ι) (call : C) (h : w.sessions i = .idle) :
      Step w (.begin i call) (w.set i (.running call (V.program call)))
  | run (w : World ι C σ S R ε α) (i : ι) (supplies : U) (call : C) (st : S)
      (k : R st → Prog S R ε α) (h : w.sessions i = .running call (.stmt st k)) :
      Step w (.run i supplies)
        { w.set i (.running call (k (V.perform supplies st w.db).1)) with
          db := (V.perform supplies st w.db).2 }
  | finish (w : World ι C σ S R ε α) (i : ι) (call : C) (a : α)
      (h : w.sessions i = .running call (.pure a)) :
      Step w (.finish i) (w.set i (.returned call a))
  | stop (w : World ι C σ S R ε α) (i : ι) (call : C) (p : Prog S R ε α)
      (h : w.sessions i = .running call p) : Step w (.stop i) (w.set i (.stopped call))

/-- All sessions start idle. -/
def Service.machine (init : σ → Prop) : Machine (World ι C σ S R ε α) (Label ι C U) where
  init w := init w.db ∧ ∀ i, w.sessions i = .idle
  step := V.Step

variable {V} {w w' : World ι C σ S R ε α} {i j : ι} {x : Session C S R ε α} {call : C} {st : S}

@[simp] theorem World.set_db : (w.set i x).db = w.db := rfl

@[simp] theorem World.set_self : (w.set i x).sessions i = x := Function.update_self _ _ _

theorem World.set_ne (h : j ≠ i) : (w.set i x).sessions j = w.sessions j :=
  Function.update_of_ne h _ _

omit [DecidableEq ι] in
theorem World.Next.eq {call' : C} {st' : S} {k : R st → Prog S R ε α} (h : w.Next i call' st')
    (hi : w.sessions i = .running call (.stmt st k)) : call' = call ∧ st' = st := by
  obtain ⟨k', hi'⟩ := h
  rw [hi, Session.running.injEq, Prog.stmt.injEq] at hi'
  exact ⟨hi'.1.symm, hi'.2.1.symm⟩

omit [DecidableEq ι] in
/-- A session that runs has one next statement. -/
theorem World.forall_next {P : C → S → Prop} {k : R st → Prog S R ε α}
    (hi : w.sessions i = .running call (.stmt st k)) (h : P call st) :
    ∀ call' st', w.Next i call' st' → P call' st' := by
  intro call' st' hnext
  obtain ⟨rfl, rfl⟩ := hnext.eq hi
  exact h

/-- What is said of every session that runs, and of every one that has returned. -/
structure Served (A : σ → C → Prog S R ε α → Prop) (Q : σ → C → α → Prop)
    (w : World ι C σ S R ε α) : Prop where
  running : ∀ i call p, w.sessions i = .running call p → A w.db call p
  returned : ∀ i call a, w.sessions i = .returned call a → Q w.db call a

variable {A : σ → C → Prog S R ε α → Prop} {Q : σ → C → α → Prop}

omit [DecidableEq ι] in
theorem Served.init (h : ∀ i, w.sessions i = .idle) : Served A Q w := by
  refine ⟨fun i call p hi => ?_, fun i call a hi => ?_⟩
  · rw [h i] at hi
    cases hi
  · rw [h i] at hi
    cases hi

/-- What is said of a session stays true of it while another one moves. -/
theorem Served.set (h : Served A Q w) {t : σ} (hA : ∀ call p, A w.db call p → A t call p)
    (hQ : ∀ call a, Q w.db call a → Q t call a)
    (hrunning : ∀ call p, x = .running call p → A t call p)
    (hreturned : ∀ call a, x = .returned call a → Q t call a) :
    Served A Q { w.set i x with db := t } := by
  refine ⟨fun j call p hj => ?_, fun j call a hj => ?_⟩
  · by_cases hji : j = i
    · subst hji
      exact hrunning call p (World.set_self.symm.trans hj)
    · exact hA call p (h.running j call p ((World.set_ne hji).symm.trans hj))
  · by_cases hji : j = i
    · subst hji
      exact hreturned call a (World.set_self.symm.trans hj)
    · exact hQ call a (h.returned j call a ((World.set_ne hji).symm.trans hj))

/-- One step keeps what is said of the sessions, if its statement does. -/
theorem Served.step {l : Label ι C U} (h : Served A Q w) (hstep : V.Step w l w')
    (hbegun : ∀ s call, A s call (V.program call))
    (hpure : ∀ s call a, A s call (.pure a) → Q s call a)
    (hrun : ∀ i supplies call st k, l = .run i supplies →
      w.sessions i = .running call (.stmt st k) →
      (∀ call p, A w.db call p → A (V.perform supplies st w.db).2 call p) ∧
      (∀ call a, Q w.db call a → Q (V.perform supplies st w.db).2 call a) ∧
      A (V.perform supplies st w.db).2 call (k (V.perform supplies st w.db).1)) :
    Served A Q w' := by
  cases hstep with
  | begin i call hi =>
    refine h.set (t := w.db) (fun _ _ => id) (fun _ _ => id) ?_ (by simp)
    rintro _ _ ⟨rfl, rfl⟩
    exact hbegun w.db call
  | run i supplies call st k hi =>
    obtain ⟨hA, hQ, hk⟩ := hrun i supplies call st k rfl hi
    refine h.set hA hQ ?_ (by simp)
    rintro _ _ ⟨rfl, rfl⟩
    exact hk
  | finish i call a hi =>
    refine h.set (t := w.db) (fun _ _ => id) (fun _ _ => id) (by simp) ?_
    rintro _ _ ⟨rfl, rfl⟩
    exact hpure w.db call a (h.running i call _ hi)
  | stop i call p hi => exact h.set (t := w.db) (fun _ _ => id) (fun _ _ => id) (by simp) (by simp)

section Runs

variable {init : σ → Prop} {guard : World ι C σ S R ε α → Label ι C U → Prop}

/-- A reached world with `db`, in which session `i` is `x` and the others are as in `w`. -/
def ReachesWith (V : Service C U σ S R ε α) (init : σ → Prop)
    (guard : World ι C σ S R ε α → Label ι C U → Prop) (w : World ι C σ S R ε α) (i : ι)
    (x : Session C S R ε α) (db : σ) : Prop :=
  ∃ w' : World ι C σ S R ε α, (V.machine init).Reaches guard w' ∧ w'.db = db ∧
    w'.sessions i = x ∧ ∀ j, j ≠ i → w'.sessions j = w.sessions j

theorem ReachesWith.begin (h : (V.machine init).Reaches guard w) (hi : w.sessions i = .idle)
    (hg : guard w (.begin i call)) :
    ReachesWith V init guard w i (.running call (V.program call)) w.db :=
  ⟨_, h.step hg (.begin w i call hi), rfl, World.set_self, fun _ => World.set_ne⟩

theorem ReachesWith.run (supplies : U) {k : R st → Prog S R ε α} {r : R st} {s s' : σ}
    (h : ReachesWith V init guard w i (.running call (.stmt st k)) s)
    (hperform : V.perform supplies st s = (r, s'))
    (hg : ∀ w' : World ι C σ S R ε α, w'.db = s → w'.sessions i = .running call (.stmt st k) →
      (∀ j, j ≠ i → w'.sessions j = w.sessions j) → guard w' (.run i supplies)) :
    ReachesWith V init guard w i (.running call (k r)) s' := by
  obtain ⟨w', hw', rfl, hi, hothers⟩ := h
  have hstep : V.Step w' (.run i supplies) _ := .run w' i supplies call st k hi
  rw [hperform] at hstep
  refine ⟨_, hw'.step (hg w' rfl hi hothers) hstep, rfl, World.set_self, fun j hj => ?_⟩
  exact (World.set_ne hj).trans (hothers j hj)

theorem ReachesWith.finish {a : α} {s : σ} (h : ReachesWith V init guard w i (.running call (.pure a)) s)
    (hg : ∀ w', guard w' (.finish i)) : ReachesWith V init guard w i (.returned call a) s := by
  obtain ⟨w', hw', rfl, hi, hothers⟩ := h
  exact ⟨_, hw'.step (hg w') (.finish w' i call a hi), rfl, World.set_self,
    fun j hj => (World.set_ne hj).trans (hothers j hj)⟩

theorem ReachesWith.stop {p : Prog S R ε α} {s : σ}
    (h : ReachesWith V init guard w i (.running call p) s) (hg : ∀ w', guard w' (.stop i)) :
    ReachesWith V init guard w i (.stopped call) s := by
  obtain ⟨w', hw', rfl, hi, hothers⟩ := h
  exact ⟨_, hw'.step (hg w') (.stop w' i call p hi), rfl, World.set_self,
    fun j hj => (World.set_ne hj).trans (hothers j hj)⟩

end Runs

end

end TrustCore.Sessions
