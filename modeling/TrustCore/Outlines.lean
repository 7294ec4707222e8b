import TrustCore.Programs

/-!
# Outlines over a state that grows

Any number of processes share one state, every statement of which keeps an invariant
and moves the state along a relation. An assertion that the relation keeps survives
the statements of all other processes, so the outline of a program is checked as if
it ran alone. `outlined` puts the outlines of all programs together, for the runs whose
statements meet a guard.
-/

namespace TrustCore.Outlines

open TrustCore.Runs TrustCore.Programs

/-- An invariant of the shared state, and how one statement may move it. -/
structure Growth (σ : Type) where
  inv : σ → Prop
  le : σ → σ → Prop

section Rules

variable {σ S : Type} {R : S → Type} {ε α β : Type}

def Growth.Upward (G : Growth σ) (A : σ → Prop) : Prop :=
  ∀ s s', G.inv s → G.le s s' → A s → A s'

/-- From `A`, every statement keeps to `G`, and a return has `Q`. -/
def Growth.Outline (G : Growth σ) (exec : σ → (st : S) → R st → σ → Prop) (A : σ → Prop) :
    Prog S R ε α → (α → σ → Prop) → Prop
  | .pure a, Q => ∀ s, G.inv s → A s → Q a s
  | .throw _, _ => True
  | .stmt st k, Q => ∃ B : R st → σ → Prop, (∀ r, G.Upward (B r)) ∧
      (∀ s r s', G.inv s → A s → exec s st r s' → G.inv s' ∧ G.le s s' ∧ B r s') ∧
      ∀ r, Growth.Outline G exec (B r) (k r) Q

variable {G : Growth σ} {exec : σ → (st : S) → R st → σ → Prop}

theorem Growth.Upward.and {A B : σ → Prop} (hA : G.Upward A) (hB : G.Upward B) :
    G.Upward fun s => A s ∧ B s :=
  fun s s' hs hle h => ⟨hA s s' hs hle h.1, hB s s' hs hle h.2⟩

/-- What is said without the state is kept. -/
theorem Growth.upward_const (P : Prop) : G.Upward fun _ => P := fun _ _ _ _ h => h

theorem Growth.Upward.imp {P : Prop} {A : σ → Prop} (hA : P → G.Upward A) :
    G.Upward fun s => P → A s := fun s s' hs hle h hP => hA hP s s' hs hle (h hP)

theorem Growth.Outline.pre {A A' : σ → Prop} {p : Prog S R ε α} {Q : α → σ → Prop}
    (h : G.Outline exec A p Q) (hA : ∀ s, G.inv s → A' s → A s) : G.Outline exec A' p Q := by
  cases p with
  | pure a => exact fun s hs ha => h s hs (hA s hs ha)
  | throw e => trivial
  | stmt st k =>
    obtain ⟨B, hB, hx, hk⟩ := h
    exact ⟨B, hB, fun s r s' hs ha => hx s r s' hs (hA s hs ha), hk⟩

theorem Growth.Outline.post {A : σ → Prop} {p : Prog S R ε α} {Q Q' : α → σ → Prop}
    (h : G.Outline exec A p Q) (hQ : ∀ a s, G.inv s → Q a s → Q' a s) :
    G.Outline exec A p Q' := by
  induction p generalizing A with
  | pure a => exact fun s hs ha => hQ a s hs (h s hs ha)
  | throw e => trivial
  | stmt st k ih =>
    obtain ⟨B, hB, hx, hk⟩ := h
    exact ⟨B, hB, hx, fun r => ih r (hk r)⟩

theorem Growth.Outline.bind {A : σ → Prop} {p : Prog S R ε α} {f : α → Prog S R ε β}
    {Q : α → σ → Prop} {Q' : β → σ → Prop} (h : G.Outline exec A p Q)
    (hf : ∀ a, G.Outline exec (Q a) (f a) Q') : G.Outline exec A (p.bind f) Q' := by
  induction p generalizing A with
  | pure a => exact (hf a).pre h
  | throw e => trivial
  | stmt st k ih =>
    obtain ⟨B, hB, hx, hk⟩ := h
    exact ⟨B, hB, hx, fun r => ih r (hk r)⟩

/-- A state that is never reached. -/
theorem Growth.Outline.unreached {A : σ → Prop} {p : Prog S R ε α} {Q : α → σ → Prop}
    (h : ∀ s, G.inv s → ¬ A s) : G.Outline exec A p Q := by
  induction p generalizing A with
  | pure a => exact fun s hs ha => absurd ha (h s hs)
  | throw e => trivial
  | stmt st k ih =>
    exact ⟨fun _ _ => False, fun _ _ _ _ _ hf => hf, fun s r s' hs ha => absurd ha (h s hs),
      fun r => ih r fun _ _ hf => hf⟩

/-- A fact without the state in it is taken out of the assertion. -/
theorem Growth.Outline.fact {A : σ → Prop} {p : Prog S R ε α} {Q : α → σ → Prop} {P : Prop}
    (hP : ∀ s, G.inv s → A s → P) (h : P → G.Outline exec A p Q) : G.Outline exec A p Q := by
  by_cases hfact : P
  · exact h hfact
  · exact .unreached fun s hs hA => hfact (hP s hs hA)

/-- A handler that needs nothing of the state it is entered in. -/
theorem Growth.Outline.catchError {A : σ → Prop} {p : Prog S R ε α}
    {handler : ε → Prog S R ε α} {Q : α → σ → Prop} (h : G.Outline exec A p Q)
    (hh : ∀ e, G.Outline exec (fun _ => True) (handler e) Q) :
    G.Outline exec A (p.catchError handler) Q := by
  induction p generalizing A with
  | pure a => exact h
  | throw e => exact (hh e).pre fun _ _ _ => trivial
  | stmt st k ih =>
    obtain ⟨B, hB, hx, hk⟩ := h
    exact ⟨B, hB, hx, fun r => ih r (hk r)⟩

/-- One statement leads from `A` to `B`. -/
theorem Growth.Outline.perform {A : σ → Prop} {st : S} (B : R st → σ → Prop)
    (hB : ∀ r, G.Upward (B r))
    (hx : ∀ s r s', G.inv s → A s → exec s st r s' → G.inv s' ∧ G.le s s' ∧ B r s') :
    G.Outline exec A (Prog.perform st : Prog S R ε (R st)) B :=
  ⟨B, hB, hx, fun _ _ _ hb => hb⟩

theorem Growth.Outline.ofExcept {A : σ → Prop} {answer : Except ε α} {Q : α → σ → Prop}
    (h : ∀ a, answer = .ok a → ∀ s, G.inv s → A s → Q a s) :
    G.Outline exec A (Prog.ofExcept answer : Prog S R ε α) Q := by
  cases answer with
  | ok a => exact h a rfl
  | error e => trivial

/-- A program needs nothing of the state when each of its statements keeps to `G`. -/
theorem Growth.Outline.of_only {P : S → Prop} {p : Prog S R ε α} (h : p.Only P)
    (hx : ∀ st, P st → ∀ s r s', G.inv s → exec s st r s' → G.inv s' ∧ G.le s s') :
    G.Outline exec (fun _ => True) p fun _ _ => True := by
  induction p with
  | pure a => exact fun _ _ _ => trivial
  | throw e => trivial
  | stmt st k ih =>
    refine ⟨fun _ _ => True, fun _ => Growth.upward_const True, ?_, fun r => ih r (h.2 r)⟩
    intro s r s' hs _ hexec
    obtain ⟨hinv, hle⟩ := hx st h.1 s r s' hs hexec
    exact ⟨hinv, hle, trivial⟩

end Rules

section Processes

variable {ι σ S : Type} {R : S → Type} {ε α : Type}

/-- Every process runs the same statements and has no state of its own. -/
def sharing (exec : σ → (st : S) → R st → σ → Prop) : System ι σ Unit S R where
  start := ()
  exec _ s _ st r s' _ := exec s st r s'
  compatible _ _ := True

/-- The statement that runs next meets the guard in the state it runs in. -/
def OnStatements (guard : σ → S → Prop) (w : World ι σ Unit S R ε α) :
    Event ι S R ε α → Prop
  | .run i => ∀ tx st k, w.procs i = .running tx (.stmt st k) → guard w.shared st
  | _ => True

theorem OnStatements.mono {guard guard' : σ → S → Prop} (hguard : ∀ s st, guard s st → guard' s st)
    {w : World ι σ Unit S R ε α} {e : Event ι S R ε α} (h : OnStatements guard w e) :
    OnStatements guard' w e := by
  cases e with
  | run i => exact fun tx st k hi => hguard _ _ (h tx st k hi)
  | begin i p => trivial
  | fail i => trivial
  | finish i => trivial

theorem onStatements_of_free {guard : σ → S → Prop} (hguard : ∀ s st, guard s st)
    {w : World ι σ Unit S R ε α} {e : Event ι S R ε α} : OnStatements guard w e := by
  cases e with
  | run i => exact fun _ st _ _ => hguard _ st
  | begin i p => trivial
  | fail i => trivial
  | finish i => trivial

structure Growth.Outlined (G : Growth σ) (exec : σ → (st : S) → R st → σ → Prop)
    (post : α → σ → Prop) (w : World ι σ Unit S R ε α) : Prop where
  inv : G.inv w.shared
  running : ∀ i tx p, w.procs i = .running tx p →
    ∃ A, G.Upward A ∧ A w.shared ∧ G.Outline exec A p post
  returned : ∀ i a, w.procs i = .returned a → post a w.shared

variable [DecidableEq ι] {G : Growth σ} {exec : σ → (st : S) → R st → σ → Prop}
  {guard : σ → S → Prop} {post : α → σ → Prop} {allowed : Prog S R ε α → Prop}
  {w w' : World ι σ Unit S R ε α}

/-- A process that leaves the shared state alone. -/
theorem Growth.Outlined.set (h : G.Outlined exec post w) {i : ι} {x : Proc Unit S R ε α}
    (hrunning : ∀ tx p, x = .running tx p →
      ∃ A, G.Upward A ∧ A w.shared ∧ G.Outline exec A p post)
    (hreturned : ∀ a, x = .returned a → post a w.shared) : G.Outlined exec post (w.set i x) := by
  refine ⟨h.inv, ?_, ?_⟩
  · intro j tx p hj
    by_cases hji : j = i
    · subst hji
      rw [set_procs_self] at hj
      exact hrunning tx p hj
    · rw [set_procs_ne hji] at hj
      exact h.running j tx p hj
  · intro j a hj
    by_cases hji : j = i
    · subst hji
      rw [set_procs_self] at hj
      exact hreturned a hj
    · rw [set_procs_ne hji] at hj
      exact h.returned j a hj

/-- A step of a guarded run keeps the outlines, and moves the state along `le` if it
moves it at all. -/
theorem Growth.Outlined.step {e : Event ι S R ε α}
    (hpost : ∀ a, G.Upward (post a))
    (hprograms : ∀ p, allowed p → G.Outline (fun s st r s' => guard s st ∧ exec s st r s')
      (fun _ => True) p post)
    (h : G.Outlined (fun s st r s' => guard s st ∧ exec s st r s') post w)
    (hguard : OnStatements guard w e)
    (hstep : (sharing exec).Step allowed w e w') :
    G.Outlined (fun s st r s' => guard s st ∧ exec s st r s') post w' ∧
      (w'.shared = w.shared ∨ G.le w.shared w'.shared) := by
  cases hstep with
  | begin i p hidle hp =>
    refine ⟨h.set ?_ (by simp), Or.inl rfl⟩
    rintro tx q ⟨rfl, rfl⟩
    exact ⟨_, fun _ _ _ _ _ => trivial, trivial, hprograms p hp⟩
  | fail i tx p hi hp => exact ⟨h.set (by simp) (by simp), Or.inl rfl⟩
  | finish i tx a hi =>
    refine ⟨h.set (by simp) ?_, Or.inl rfl⟩
    rintro b ⟨rfl⟩
    obtain ⟨A, -, hA, hpure⟩ := h.running i tx _ hi
    exact hpure w.shared h.inv hA
  | run i tx tx' st k r shared' hi hx hc =>
    obtain ⟨A, -, hA, B, hB, hexec, hk⟩ := h.running i tx _ hi
    obtain ⟨hinv, hle, hB'⟩ := hexec _ _ _ h.inv hA ⟨hguard tx st k hi, hx⟩
    refine ⟨⟨hinv, ?_, ?_⟩, Or.inr hle⟩
    · intro j ty p hj
      by_cases hji : j = i
      · subst hji
        have heq : tx' = ty ∧ k r = p := by simpa [World.set] using hj
        rw [← heq.2]
        exact ⟨B r, hB r, hB', hk r⟩
      · have hj' : w.procs j = .running ty p := by
          simpa [World.set, Function.update_of_ne hji] using hj
        obtain ⟨A', hup, hA', hp⟩ := h.running j ty p hj'
        exact ⟨A', hup, hup _ _ h.inv hle hA', hp⟩
    · intro j a hj
      by_cases hji : j = i
      · subst hji
        simp [World.set] at hj
      · have hj' : w.procs j = .returned a := by
          simpa [World.set, Function.update_of_ne hji] using hj
        exact hpost a _ _ h.inv hle (h.returned j a hj')

/-- If every program has an outline, all of them hold in every state of every guarded
run of any number of processes. -/
theorem outlined {init : σ → Prop} (hpost : ∀ a, G.Upward (post a))
    (hprograms : ∀ p, allowed p → G.Outline (fun s st r s' => guard s st ∧ exec s st r s')
      (fun _ => True) p post)
    (hinit : ∀ s, init s → G.inv s)
    (h : ((sharing exec).machine allowed init).Reaches (OnStatements guard) w) :
    G.Outlined (fun s st r s' => guard s st ∧ exec s st r s') post w := by
  refine h.invariant ?_ ?_
  · rintro w ⟨hw, hidle⟩
    refine ⟨hinit _ hw, ?_, ?_⟩
    · intro i tx p hi
      rw [hidle i] at hi
      cases hi
    · intro i a hi
      rw [hidle i] at hi
      cases hi
  · intro w e w' hw hguard hstep
    exact (hw.step hpost hprograms hguard hstep).1

/-- What `le` has to do with two states, a guarded run from one to the other has. -/
theorem related_of_leads {init : σ → Prop} (hpost : ∀ a, G.Upward (post a))
    (hprograms : ∀ p, allowed p → G.Outline (fun s st r s' => guard s st ∧ exec s st r s')
      (fun _ => True) p post)
    (hinit : ∀ s, init s → G.inv s) (rel : σ → σ → Prop) (hrefl : ∀ s, rel s s)
    (htrans : ∀ s s' s'', rel s s' → rel s' s'' → rel s s'')
    (hle : ∀ s s', G.le s s' → rel s s')
    (h : ((sharing exec).machine allowed init).Reaches (OnStatements guard) w)
    (hleads : ((sharing exec).machine allowed init).Leads (OnStatements guard) w w') :
    rel w.shared w'.shared := by
  induction hleads with
  | refl => exact hrefl _
  | tail hleads hstep ih =>
    obtain ⟨e, hguard, hstep⟩ := hstep
    have hbefore := outlined hpost hprograms hinit (h.leads hleads)
    refine htrans _ _ _ ih ?_
    obtain ⟨-, hsame | hmoves⟩ := hbefore.step hpost hprograms hguard hstep
    · rw [hsame]
      exact hrefl _
    · exact hle _ _ hmoves

/-- One process runs some statements while the others wait. -/
theorem reaches_after {init : σ → Prop} {step : (st : S) → σ → R st × σ}
    (hexec : ∀ st s, exec s st (step st s).1 (step st s).2) {s : σ} {procs : ι → Proc Unit S R ε α}
    {i : ι} {p : Prog S R ε α} {n : Nat} (hguard : p.Meets step guard n s)
    (h : ((sharing exec).machine allowed init).Reaches (OnStatements guard)
      ⟨s, Function.update procs i (.running () p)⟩) :
    ((sharing exec).machine allowed init).Reaches (OnStatements guard)
      ⟨(p.after step n s).2, Function.update procs i (.running () (p.after step n s).1)⟩ :=
  System.reaches_after hexec (fun _ _ => trivial) (fun _ h => h) hguard h

/-- A process begins a program. -/
theorem reaches_begin {init : σ → Prop} {s : σ} {procs : ι → Proc Unit S R ε α} {i : ι}
    {p : Prog S R ε α} (hp : allowed p) (hi : procs i = .idle)
    (h : ((sharing exec).machine allowed init).Reaches (OnStatements guard) ⟨s, procs⟩) :
    ((sharing exec).machine allowed init).Reaches (OnStatements guard)
      ⟨s, Function.update procs i (.running () p)⟩ :=
  .step h (by exact trivial) (.begin ⟨s, procs⟩ i p hi hp)

theorem reaches_finish {init : σ → Prop} {s : σ} {procs : ι → Proc Unit S R ε α} {i : ι} {a : α}
    (h : ((sharing exec).machine allowed init).Reaches (OnStatements guard)
      ⟨s, Function.update procs i (.running () (.pure a))⟩) :
    ((sharing exec).machine allowed init).Reaches (OnStatements guard)
      ⟨s, Function.update procs i (.returned a)⟩ := by
  have hmove : (sharing exec).Step allowed ⟨s, Function.update procs i (.running () (.pure a))⟩
      (.finish i) _ := .finish _ i () a (by simp)
  have hnext := Machine.Reaches.step h (by exact trivial) hmove
  rw [World.set] at hnext
  simpa using hnext

end Processes

end TrustCore.Outlines
