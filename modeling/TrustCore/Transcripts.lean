import TrustCore.Sessions

/-!
# Transcripts

A run of a service together with the list of the statements it has executed. The database is what
these statements make of the first one, and what a session has left to do is what the answers to its
own statements leave of its program. A question about runs is then one about positions in a list.
-/

namespace TrustCore.Transcripts

open TrustCore.Runs TrustCore.Sessions
open TrustCore.Programs (Prog)

/-- An executed statement: whose it was, what it took from outside and what it answered. -/
structure Entry (ι U S : Type) (R : S → Type) where
  session : ι
  supplies : U
  st : S
  answer : R st

section

variable {ι C U σ S : Type} {R : S → Type} {ε α β : Type}

/-- The database after the statements of a list. -/
def after (V : Service C U σ S R ε α) (s : σ) (log : List (Entry ι U S R)) : σ :=
  log.foldl (fun s e => (V.perform e.supplies e.st s).2) s

/-- The statement a label stands for, with its answer. -/
def entries (V : Service C U σ S R ε α) (w : World ι C σ S R ε α) :
    Label ι C U → List (Entry ι U S R)
  | .run i supplies =>
    match w.sessions i with
    | .running _ (.stmt st _) => [⟨i, supplies, st, (V.perform supplies st w.db).1⟩]
    | _ => []
  | .begin _ _ => []
  | .finish _ => []
  | .stop _ => []

/-- No statement from position `n` on is one of session `i`. -/
def Quiet (log : List (Entry ι U S R)) (i : ι) (n : Nat) : Prop :=
  ∀ m e, n ≤ m → log[m]? = some e → e.session ≠ i

/-- What the answers from position `n` on leave of a program of session `i`. -/
inductive Leaves (log : List (Entry ι U S R)) (i : ι) :
    Nat → Prog S R ε α → Prog S R ε α → Prop
  | rest {n : Nat} {p : Prog S R ε α} (h : Quiet log i n) : Leaves log i n p p
  | next {n m : Nat} {supplies : U} {st : S} {r : R st} {k : R st → Prog S R ε α}
      {q : Prog S R ε α} (hle : n ≤ m) (hfirst : ∀ l e, n ≤ l → l < m → log[l]? = some e → e.session ≠ i)
      (hat : log[m]? = some ⟨i, supplies, st, r⟩) (h : Leaves log i (m + 1) (k r) q) :
      Leaves log i n (.stmt st k) q

/-- The call of a session that has begun. -/
def call : Session C S R ε α → Option C
  | .idle => none
  | .running call _ => some call
  | .returned call _ => some call
  | .stopped call => some call

/-- What a list tells about a session. -/
def Told (V : Service C U σ S R ε α) (log : List (Entry ι U S R)) (i : ι) :
    Session C S R ε α → Prop
  | .idle => Quiet log i 0
  | .running call p => Leaves log i 0 (V.program call) p
  | .returned call a => Leaves log i 0 (V.program call) (.pure a)
  | .stopped call => ∃ p, Leaves log i 0 (V.program call) p

/-- A list tells how a world has come about. -/
structure Transcript (V : Service C U σ S R ε α) (s₀ : σ) (w : World ι C σ S R ε α)
    (log : List (Entry ι U S R)) : Prop where
  db : w.db = after V s₀ log
  answers : ∀ n e, log[n]? = some e →
    e.answer = (V.perform e.supplies e.st (after V s₀ (log.take n))).1
  sessions : ∀ i, Told V log i (w.sessions i)

/-! ## Lists that grow -/

variable {V : Service C U σ S R ε α} {log : List (Entry ι U S R)} {i : ι} {n : Nat}
  {p q : Prog S R ε α} {e : Entry ι U S R}

@[simp] theorem after_nil (s : σ) : after V s ([] : List (Entry ι U S R)) = s := rfl

theorem after_concat (s : σ) :
    after V s (log ++ [e]) = (V.perform e.supplies e.st (after V s log)).2 := by
  simp [after, List.foldl_append]

theorem take_succ_of_getElem? (h : log[n]? = some e) : log.take (n + 1) = log.take n ++ [e] := by
  rw [List.take_add_one, h, Option.toList_some]

theorem after_take_succ {s : σ} (h : log[n]? = some e) :
    after V s (log.take (n + 1)) = (V.perform e.supplies e.st (after V s (log.take n))).2 := by
  rw [take_succ_of_getElem? h, after_concat]

theorem lt_of_getElem? (h : log[n]? = some e) : n < log.length :=
  (List.getElem?_eq_some_iff.mp h).1

theorem getElem?_concat {m : Nat} {e' : Entry ι U S R} (h : (log ++ [e])[m]? = some e') :
    log[m]? = some e' ∨ (m = log.length ∧ e' = e) := by
  rcases Nat.lt_trichotomy m log.length with hlt | rfl | hgt
  · rw [List.getElem?_append_left hlt] at h
    exact .inl h
  · rw [List.getElem?_concat_length, Option.some.injEq] at h
    exact .inr ⟨rfl, h.symm⟩
  · rw [List.getElem?_eq_none (by simp; omega)] at h
    cases h

theorem Quiet.concat (h : Quiet log i n) (he : e.session ≠ i) : Quiet (log ++ [e]) i n := by
  intro m e' hm hat
  rcases getElem?_concat hat with hat | ⟨-, rfl⟩
  · exact h m e' hm hat
  · exact he

theorem Quiet.mono {m : Nat} (h : Quiet log i n) (hle : n ≤ m) : Quiet log i m :=
  fun l e hl => h l e (Nat.le_trans hle hl)

theorem Leaves.concat_other (h : Leaves log i n p q) (he : e.session ≠ i) :
    Leaves (log ++ [e]) i n p q := by
  induction h with
  | rest hquiet => exact .rest (hquiet.concat he)
  | next hle hfirst hat _ ih =>
    have hlt := lt_of_getElem? hat
    refine .next hle (fun l e' hl hlm hat' => ?_) ((List.getElem?_append_left hlt).trans hat) ih
    rw [List.getElem?_append_left (Nat.lt_trans hlm hlt)] at hat'
    exact hfirst l e' hl hlm hat'

theorem Leaves.concat_own {supplies : U} {st : S} {r : R st} {k : R st → Prog S R ε α}
    (h : Leaves log i n p (.stmt st k)) (hn : n ≤ log.length) :
    Leaves (log ++ [⟨i, supplies, st, r⟩]) i n p (k r) := by
  generalize hq : Prog.stmt st k = q at h
  induction h with
  | rest hquiet =>
    subst hq
    refine .next hn (fun l e' hl hlt hat => ?_) (List.getElem?_concat_length ..) (.rest ?_)
    · rw [List.getElem?_append_left hlt] at hat
      exact hquiet l e' hl hat
    · intro m e' hm hat
      exact absurd (lt_of_getElem? hat) (by simp; omega)
  | next hle hfirst hat _ ih =>
    have hlt := lt_of_getElem? hat
    refine .next hle (fun l e' hl hlm hat' => ?_) ((List.getElem?_append_left hlt).trans hat)
      (ih hlt hq)
    rw [List.getElem?_append_left (Nat.lt_trans hlm hlt)] at hat'
    exact hfirst l e' hl hlm hat'

theorem Told.concat {x : Session C S R ε α} (h : Told V log i x) (he : e.session ≠ i) :
    Told V (log ++ [e]) i x := by
  cases x with
  | idle => exact Quiet.concat h he
  | running call p => exact Leaves.concat_other h he
  | returned call a => exact Leaves.concat_other h he
  | stopped call =>
    obtain ⟨p, h⟩ := h
    exact ⟨p, h.concat_other he⟩

/-! ## Runs with their transcripts -/

section Recorder

variable [DecidableEq ι] {w w' : World ι C σ S R ε α} {s₀ : σ}

/-- The runs of a service, each with the list of the statements it has executed. -/
def recorder (V : Service C U σ S R ε α) (init : σ → Prop) :
    Machine (World ι C σ S R ε α × List (Entry ι U S R)) (Label ι C U) where
  init x := (V.machine init).init x.1 ∧ x.2 = []
  step x l x' := V.Step x.1 l x'.1 ∧ x'.2 = x.2 ++ entries V x.1 l

omit [DecidableEq ι] in
theorem Transcript.init (h : ∀ i, w.sessions i = .idle) (hdb : w.db = s₀) :
    Transcript V s₀ w [] where
  db := hdb
  answers n e hat := by simp at hat
  sessions i := by
    rw [h i]
    intro m e _ hat
    simp at hat

/-- What a list tells of the sessions when one of them moves and no statement is executed. -/
theorem Transcript.set {x : Session C S R ε α} (h : Transcript V s₀ w log) (hx : Told V log i x) :
    Transcript V s₀ (w.set i x) log where
  db := h.db
  answers := h.answers
  sessions j := by
    by_cases hj : j = i
    · subst hj
      rw [World.set_self]
      exact hx
    · rw [World.set_ne hj]
      exact h.sessions j

theorem Transcript.step {l : Label ι C U} (h : Transcript V s₀ w log) (hstep : V.Step w l w') :
    Transcript V s₀ w' (log ++ entries V w l) := by
  cases hstep with
  | begin i call hi =>
    rw [entries, List.append_nil]
    have hquiet := h.sessions i
    rw [hi] at hquiet
    exact h.set (Leaves.rest hquiet)
  | run i supplies call st k hi =>
    have hentries : entries V w (.run i supplies) =
        [⟨i, supplies, st, (V.perform supplies st w.db).1⟩] := by
      simp only [entries, hi]
    have hown := h.sessions i
    rw [hi] at hown
    rw [hentries]
    refine ⟨?_, fun n e hat => ?_, fun j => ?_⟩
    · rw [after_concat, ← h.db]
    · rcases getElem?_concat hat with hat | ⟨rfl, rfl⟩
      · rw [List.take_append_of_le_length (Nat.le_of_lt (lt_of_getElem? hat))]
        exact h.answers n e hat
      · rw [List.take_left, ← h.db]
    · by_cases hj : j = i
      · subst hj
        change Told V _ j ((w.set j _).sessions j)
        rw [World.set_self]
        exact Leaves.concat_own hown (Nat.zero_le _)
      · change Told V _ j ((w.set i _).sessions j)
        rw [World.set_ne hj]
        exact (h.sessions j).concat (Ne.symm hj)
  | finish i call a hi =>
    rw [entries, List.append_nil]
    have hown := h.sessions i
    rw [hi] at hown
    exact h.set hown
  | stop i call p hi =>
    rw [entries, List.append_nil]
    have hown := h.sessions i
    rw [hi] at hown
    exact h.set ⟨p, hown⟩

theorem transcript_of_reachable {init : σ → Prop}
    {x : World ι C σ S R ε α × List (Entry ι U S R)} (h : (recorder V init).Reachable x) :
    ∃ s₀, init s₀ ∧ Transcript V s₀ x.1 x.2 := by
  induction h with
  | init h =>
    obtain ⟨⟨hinit, hidle⟩, hnil⟩ := h
    rw [hnil]
    exact ⟨_, hinit, .init hidle rfl⟩
  | step _ _ h ih =>
    obtain ⟨s₀, hinit, ih⟩ := ih
    rw [h.2]
    exact ⟨s₀, hinit, ih.step h.1⟩

/-- Recording does not change which worlds are reached. -/
theorem reachable_iff_recorded {init : σ → Prop} :
    (V.machine init).Reachable w ↔ ∃ log, (recorder V init).Reachable (w, log) := by
  constructor
  · intro h
    induction h with
    | init h => exact ⟨[], .init ⟨h, rfl⟩⟩
    | step _ _ h ih =>
      obtain ⟨log, ih⟩ := ih
      exact ⟨_, ih.step ⟨h, rfl⟩⟩
  · rintro ⟨log, h⟩
    generalize hx : (w, log) = x at h
    induction h generalizing w log with
    | init h =>
      subst hx
      exact .init h.1
    | step _ _ h ih =>
      subst hx
      exact (ih _ rfl).step h.1

/-- What is left of a program when each of its statements has had its supplies, and the database. -/
def supplied (V : Service C U σ S R ε α) : List U → Prog S R ε α → σ → Prog S R ε α × σ
  | supplies :: rest, .stmt st k, s =>
    supplied V rest (k (V.perform supplies st s).1) (V.perform supplies st s).2
  | [], p, s => (p, s)
  | _ :: _, .pure a, s => (.pure a, s)
  | _ :: _, .throw e, s => (.throw e, s)

/-- A session may run its statements with nobody else between them. -/
theorem exists_supplied {init : σ → Prop} {call : C} {p : Prog S R ε α}
    (h : (recorder V init).Reachable (w, log)) (hi : w.sessions i = .running call p)
    (supplies : List U) : ∃ w' log', (recorder V init).Reachable (w', log ++ log') ∧
      w'.db = (supplied V supplies p w.db).2 ∧
      w'.sessions i = .running call (supplied V supplies p w.db).1 ∧
      ∀ j, j ≠ i → w'.sessions j = w.sessions j := by
  induction supplies generalizing w log p with
  | nil => exact ⟨w, [], by rwa [List.append_nil], by simp [supplied], by simpa [supplied] using hi,
      fun _ _ => rfl⟩
  | cons u rest ih =>
    cases p with
    | pure a => exact ⟨w, [], by rwa [List.append_nil], rfl, hi, fun _ _ => rfl⟩
    | throw e => exact ⟨w, [], by rwa [List.append_nil], rfl, hi, fun _ _ => rfl⟩
    | stmt st k =>
      have hstep : V.Step w (.run i u) _ := .run w i u call st k hi
      obtain ⟨w', log', hw', hdb, hi', hothers⟩ := ih (h.step ⟨hstep, rfl⟩) World.set_self
      refine ⟨w', entries V w (.run i u) ++ log', by rwa [← List.append_assoc], hdb, hi', ?_⟩
      exact fun j hj => (hothers j hj).trans (World.set_ne hj)

/-- A call that is answered when it runs by itself may be answered so in a run. -/
theorem exists_call {init : σ → Prop} {call : C} {a : α} {s : σ}
    (h : (recorder V init).Reachable (w, log)) (hi : w.sessions i = .idle) (supplies : List U)
    (hcall : supplied V supplies (V.program call) w.db = (.pure a, s)) :
    ∃ w' log', (recorder V init).Reachable (w', log ++ log') ∧ w'.db = s ∧
      w'.sessions i = .returned call a ∧ ∀ j, j ≠ i → w'.sessions j = w.sessions j := by
  have hbegin : V.Step w (.begin i call) (w.set i (.running call (V.program call))) :=
    .begin w i call hi
  obtain ⟨w₁, log₁, h₁, hdb, hi₁, hothers⟩ :=
    exists_supplied (h.step ⟨hbegin, rfl⟩) World.set_self supplies
  change w₁.db = (supplied V supplies (V.program call) w.db).2 at hdb
  change w₁.sessions i = .running call (supplied V supplies (V.program call) w.db).1 at hi₁
  rw [hcall] at hdb hi₁
  have hfinish : V.Step w₁ (.finish i) (w₁.set i (.returned call a)) := .finish w₁ i call a hi₁
  have hdone : (recorder V init).Reachable (w₁.set i (.returned call a), log ++ log₁) := by
    refine h₁.step ⟨hfinish, ?_⟩
    simp [entries]
  refine ⟨w₁.set i (.returned call a), log₁, hdone, hdb, World.set_self, fun j hj => ?_⟩
  exact (World.set_ne hj).trans ((hothers j hj).trans (World.set_ne hj))

end Recorder

/-! ## Reading a transcript -/

theorem Leaves.of_pure {a : α} (h : Leaves log i n (.pure a) q) : q = .pure a ∧ Quiet log i n := by
  cases h with
  | rest hquiet => exact ⟨rfl, hquiet⟩

theorem Leaves.of_throw {err : ε} (h : Leaves log i n (.throw err : Prog S R ε α) q) :
    q = .throw err ∧ Quiet log i n := by
  cases h with
  | rest hquiet => exact ⟨rfl, hquiet⟩

/-- The statements of a session are statements of its program. -/
theorem Leaves.only {P : S → Prop} {N : Nat} (h : Leaves log i n p q) (hp : p.Only P)
    (hat : log[N]? = some e) (hown : e.session = i) (hle : n ≤ N) : P e.st := by
  induction h with
  | rest hquiet => exact absurd hown (hquiet N e hle hat)
  | @next n m supplies st r k q hm hfirst hm_at _ ih =>
    rcases Nat.lt_trichotomy N m with hlt | rfl | hgt
    · exact absurd hown (hfirst N e hle hlt hat)
    · rw [hat, Option.some.injEq] at hm_at
      subst hm_at
      exact hp.1
    · exact ih (hp.2 r) hgt

section Perform

variable {st : S} {f : R st → Prog S R ε α}

/-- Before a statement of the session comes the next one of its program, if it is another. -/
theorem Leaves.reach {N : Nat} (h : Leaves log i n (Prog.stmt st f) q) (hat : log[N]? = some e)
    (hown : e.session = i) (hle : n ≤ N) (hst : e.st ≠ st) :
    ∃ m supplies r, n ≤ m ∧ m < N ∧ log[m]? = some ⟨i, supplies, st, r⟩ ∧
      Leaves log i (m + 1) (f r) q := by
  cases h with
  | rest hquiet => exact absurd hown (hquiet N e hle hat)
  | @next _ m supplies _ r _ _ hm hfirst hm_at h =>
    refine ⟨m, supplies, r, hm, ?_, hm_at, h⟩
    rcases Nat.lt_trichotomy N m with hlt | rfl | hgt
    · exact absurd hown (hfirst N e hle hlt hat)
    · rw [hat, Option.some.injEq] at hm_at
      exact absurd (congrArg Entry.st hm_at) hst
    · exact hgt

/-- The next statement of the program stands there, or a later one. -/
theorem Leaves.reach_or {N : Nat} (h : Leaves log i n (Prog.stmt st f) q) (hat : log[N]? = some e)
    (hown : e.session = i) (hle : n ≤ N) :
    ∃ m supplies r, n ≤ m ∧ log[m]? = some ⟨i, supplies, st, r⟩ ∧ Leaves log i (m + 1) (f r) q ∧
      (N = m ∨ m < N) := by
  cases h with
  | rest hquiet => exact absurd hown (hquiet N e hle hat)
  | @next _ m supplies _ r _ _ hm hfirst hm_at h =>
    refine ⟨m, supplies, r, hm, hm_at, h, ?_⟩
    by_contra hne
    exact hfirst N e hle (by omega) hat hown

/-- A program that has ended has executed its next statement. -/
theorem Leaves.passed {a : α} (h : Leaves log i n (Prog.stmt st f) (.pure a)) :
    ∃ m supplies r, n ≤ m ∧ log[m]? = some ⟨i, supplies, st, r⟩ ∧
      Leaves log i (m + 1) (f r) (.pure a) := by
  cases h with
  | @next _ m supplies _ r _ _ hm _ hm_at h => exact ⟨m, supplies, r, hm, hm_at, h⟩

end Perform

variable {w : World ι C σ S R ε α} {s₀ : σ}

/-- A session with a statement in the list runs a call. -/
theorem Transcript.leaves (h : Transcript V s₀ w log) (hat : log[n]? = some e) :
    ∃ c q, call (w.sessions e.session) = some c ∧ Leaves log e.session 0 (V.program c) q ∧
      ∀ c' a, w.sessions e.session = .returned c' a → q = .pure a := by
  have htold := h.sessions e.session
  cases hx : w.sessions e.session with
  | idle =>
    rw [hx] at htold
    exact absurd rfl (htold n e (Nat.zero_le n) hat)
  | running c p =>
    rw [hx] at htold
    exact ⟨c, p, rfl, htold, nofun⟩
  | returned c a =>
    rw [hx] at htold
    refine ⟨c, .pure a, rfl, htold, fun c' a' hsame => ?_⟩
    cases hsame
    rfl
  | stopped c =>
    rw [hx] at htold
    obtain ⟨p, htold⟩ := htold
    exact ⟨c, p, rfl, htold, nofun⟩

theorem Transcript.of_returned {c : C} {a : α} (h : Transcript V s₀ w log)
    (hi : w.sessions i = .returned c a) : Leaves log i 0 (V.program c) (.pure a) := by
  have htold := h.sessions i
  rw [hi] at htold
  exact htold

/-- What holds in the end and not at first came about in one statement and has held since. -/
theorem exists_last {P : σ → Prop} (h₀ : ¬ P s₀) (h : P (after V s₀ (log.take n)))
    (hn : n ≤ log.length) :
    ∃ m e, m < n ∧ log[m]? = some e ∧ ¬ P (after V s₀ (log.take m)) ∧
      ∀ l, m < l → l ≤ n → P (after V s₀ (log.take l)) := by
  induction n with
  | zero => exact absurd h h₀
  | succ n ih =>
    by_cases hP : P (after V s₀ (log.take n))
    · obtain ⟨m, e, hm, hat, hnot, hsince⟩ := ih hP (by omega)
      refine ⟨m, e, by omega, hat, hnot, fun l hl hln => ?_⟩
      rcases Nat.lt_or_ge n l with hlt | hle
      · rw [show l = n + 1 by omega]
        exact h
      · exact hsince l hl hle
    · refine ⟨n, log[n], by omega, List.getElem?_eq_getElem hn, hP, fun l hl hln => ?_⟩
      rw [show l = n + 1 by omega]
      exact h

end

end TrustCore.Transcripts
