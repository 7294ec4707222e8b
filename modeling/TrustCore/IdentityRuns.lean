import TrustCore.Identity

/-!
# One session for each login

The transcript of a run places every session that was created behind the statements that led to it:
the insertion of a login, its one deletion, a reading of the clock and an answer of the provider. The
rows of the two tables are traced back to the statements that wrote them.
-/

namespace TrustCore.Identity

open TrustCore.Utf TrustCore.Json TrustCore.Columns TrustCore.Runs TrustCore.Sessions
open TrustCore.Transcripts
open TrustCore.Programs (Prog)
open TrustCore.Sha256 (sha256 isSha256 isSha256_sha256 isWellFormed_of_isSha256)

variable {ι : Type} {config : OidcServiceConfig}

abbrev Log (ι : Type) := List (Entry ι Supplies Stmt Stmt.Result)

abbrev IdentityWorld (ι : Type) := World ι Call Db Stmt Stmt.Result Failure Answer

/-- The runs of the service from empty tables, each with its transcript. -/
abbrev Run [DecidableEq ι] (config : OidcServiceConfig) (w : IdentityWorld ι) (log : Log ι) : Prop :=
  (recorder (service config) (· = Db.empty)).Reachable (w, log)

/-! ## What one statement does to a row -/

section Rows

variable {supplies : Supplies} {st : Stmt} {s : Db} {key : JsString}

theorem safeEqual_eq {a b : JsString} (ha : isSha256 a = true) (hb : isSha256 b = true)
    (h : safeEqual a b = true) : a = b :=
  textEncode_injective (isWellFormed_of_isSha256 ha) (isWellFormed_of_isSha256 hb)
    (of_decide_eq_true h)

theorem isSha256_hash (value : JsString) : isSha256 (hash value) = true := isSha256_sha256 _

theorem loginRow_fields {v t : LoginTransaction} (h : loginRow v = some t) :
    t.stateHash = v.stateHash ∧ t.browserBindingHash = v.browserBindingHash ∧
      t.expiresAt = v.expiresAt ∧ isSha256 t.browserBindingHash = true ∧
      textColumn v.returnTo = some t.returnTo := by
  unfold loginRow at h
  split at h
  · next hdigests =>
    rw [Bool.and_eq_true] at hdigests
    simp only [Option.bind_eq_bind, Option.bind_eq_some_iff, Option.pure_def, Option.some.injEq] at h
    obtain ⟨nonce, -, codeVerifier, -, redirectUri, -, returnTo, hreturn, rfl⟩ := h
    exact ⟨rfl, rfl, rfl, hdigests.2, hreturn⟩
  · cases h

/-- What a row of `identity_sessions` keeps from its insertion on. -/
structure SessionRow.Keeps (row row' : SessionRow) : Prop where
  csrfHash : row'.csrfHash = row.csrfHash
  actorJson : row'.actorJson = row.actorJson
  expiresAt : row'.expiresAt = row.expiresAt
  revokedAt : row.revokedAt.isSome = true → row'.revokedAt.isSome = true

theorem SessionRow.Keeps.refl (row : SessionRow) : row.Keeps row := ⟨rfl, rfl, rfl, id⟩

theorem SessionRow.Keeps.trans {row row' row'' : SessionRow} (h : row.Keeps row')
    (h' : row'.Keeps row'') : row.Keeps row'' :=
  ⟨h'.csrfHash.trans h.csrfHash, h'.actorJson.trans h.actorJson, h'.expiresAt.trans h.expiresAt,
    fun hrow => h'.revokedAt (h.revokedAt hrow)⟩

/-- The logins change by an insertion that is accepted, or by a consumption. -/
theorem logins_cases (supplies : Supplies) (st : Stmt) (s : Db) :
    (perform supplies st s).2.logins = s.logins ∨
      (∃ v row, st = .saveLogin v ∧ (saveLogin v s).1 = true ∧ loginRow v = some row ∧
        (perform supplies st s).2.logins = Function.update s.logins v.stateHash (some row)) ∨
      ∃ stateHash, st = .consumeLogin stateHash ∧
        (perform supplies st s).2.logins = Function.update s.logins stateHash none := by
  cases st with
  | saveLogin v =>
    cases hrow : loginRow v with
    | none => exact .inl (by simp [perform, saveLogin, hrow])
    | some row =>
      cases hlogin : s.logins v.stateHash with
      | none =>
        exact .inr (.inl ⟨v, row, rfl, by simp [saveLogin, hrow, hlogin], hrow,
          by simp [perform, saveLogin, hrow, hlogin]⟩)
      | some t => exact .inl (by simp [perform, saveLogin, hrow, hlogin])
  | consumeLogin stateHash => exact .inr (.inr ⟨stateHash, rfl, rfl⟩)
  | createSession v =>
    refine .inl ?_
    simp only [perform, createSession]
    split <;> rfl
  | getSession sessionHash =>
    refine .inl ?_
    simp only [perform, getSession]
    split
    · rfl
    · split <;> rfl
  | revokeSession sessionHash =>
    refine .inl ?_
    simp only [perform, storeRevocation]
    split
    · rfl
    · split <;> rfl
  | now => exact .inl rfl
  | randomBytes size => exact .inl rfl
  | authorizationEndpoint => exact .inl rfl
  | exchangeCode input => exact .inl rfl

/-- The sessions change by an insertion that is accepted, or in one row that keeps what counts. -/
theorem sessions_cases (supplies : Supplies) (st : Stmt) (s : Db) :
    (perform supplies st s).2.sessions = s.sessions ∨
      (∃ v row, st = .createSession v ∧ (createSession v s).1 = true ∧ sessionRow v = some row ∧
        s.sessions v.sessionHash = none ∧
        (perform supplies st s).2.sessions = Function.update s.sessions v.sessionHash (some row)) ∨
      ∃ sessionHash row row', s.sessions sessionHash = some row ∧ row.Keeps row' ∧
        (perform supplies st s).2.sessions = Function.update s.sessions sessionHash (some row') := by
  cases st with
  | createSession v =>
    cases hrow : sessionRow v with
    | none => exact .inl (by simp [perform, createSession, hrow])
    | some row =>
      cases hsession : s.sessions v.sessionHash with
      | none =>
        exact .inr (.inl ⟨v, row, rfl, by simp [createSession, hrow, hsession], hrow, hsession,
          by simp [perform, createSession, hrow, hsession]⟩)
      | some row' => exact .inl (by simp [perform, createSession, hrow, hsession])
  | getSession sessionHash =>
    cases hrow : s.sessions sessionHash with
    | none => exact .inl (by simp [perform, getSession, hrow])
    | some row =>
      by_cases hopen : row.open supplies.databaseNow = true
      · exact .inr (.inr ⟨sessionHash, row, { row with lastSeenAt := supplies.databaseNow }, hrow,
          ⟨rfl, rfl, rfl, id⟩, by simp [perform, getSession, hrow, hopen]⟩)
      · exact .inl (by simp [perform, getSession, hrow, hopen])
  | revokeSession sessionHash =>
    cases hrow : s.sessions sessionHash with
    | none => exact .inl (by simp [perform, storeRevocation, hrow])
    | some row =>
      by_cases hopen : row.revokedAt.isNone = true
      · exact .inr (.inr ⟨sessionHash, row, { row with revokedAt := some supplies.databaseNow }, hrow,
          ⟨rfl, rfl, rfl, fun _ => rfl⟩, by
            simp only [perform, storeRevocation, hrow, if_pos hopen]⟩)
      · exact .inl (by simp [perform, storeRevocation, hrow, hopen])
  | saveLogin v =>
    refine .inl ?_
    simp only [perform, saveLogin]
    split <;> rfl
  | consumeLogin stateHash => exact .inl rfl
  | now => exact .inl rfl
  | randomBytes size => exact .inl rfl
  | authorizationEndpoint => exact .inl rfl
  | exchangeCode input => exact .inl rfl

/-- A login that is there after a statement was there before, or the statement saved it. -/
theorem login_of_perform {t : LoginTransaction} (h : (perform supplies st s).2.logins key = some t) :
    s.logins key = some t ∨ ∃ v, st = .saveLogin v ∧ v.stateHash = key ∧ loginRow v = some t ∧
      (saveLogin v s).1 = true := by
  rcases logins_cases supplies st s with hsame | ⟨v, row, hst, hsaved, hrow, hupdate⟩ |
    ⟨stateHash, hst, hupdate⟩
  · rw [hsame] at h
    exact .inl h
  · rw [hupdate] at h
    by_cases hkey : key = v.stateHash
    · subst hkey
      rw [Function.update_self] at h
      exact .inr ⟨v, hst, rfl, hrow.trans h, hsaved⟩
    · rw [Function.update_of_ne hkey] at h
      exact .inl h
  · rw [hupdate] at h
    by_cases hkey : key = stateHash
    · rw [hkey, Function.update_self] at h
      cases h
    · rw [Function.update_of_ne hkey] at h
      exact .inl h

theorem consumed_login (supplies : Supplies) (s : Db) (key : JsString) :
    (perform supplies (.consumeLogin key) s).2.logins key = none :=
  Function.update_self ..

/-- A session that is there before a statement is there after it. -/
theorem session_kept (supplies : Supplies) (st : Stmt) {row : SessionRow} (h : s.sessions key = some row) :
    ∃ row', (perform supplies st s).2.sessions key = some row' ∧ row.Keeps row' := by
  rcases sessions_cases supplies st s with hsame | ⟨v, row', -, -, -, hfree, hupdate⟩ |
    ⟨sessionHash, row₁, row', hrow, hkeeps, hupdate⟩
  · rw [hsame]
    exact ⟨row, h, .refl row⟩
  · rw [hupdate]
    by_cases hkey : key = v.sessionHash
    · rw [hkey, hfree] at h
      cases h
    · exact ⟨row, (Function.update_of_ne hkey ..).trans h, .refl row⟩
  · rw [hupdate]
    by_cases hkey : key = sessionHash
    · subst hkey
      rw [hrow, Option.some.injEq] at h
      subst h
      exact ⟨row', Function.update_self .., hkeeps⟩
    · exact ⟨row, (Function.update_of_ne hkey ..).trans h, .refl row⟩

/-- A session that appears with a statement is the one it created. -/
theorem session_of_perform {row : SessionRow} (h : (perform supplies st s).2.sessions key = some row)
    (hnone : s.sessions key = none) : ∃ v, st = .createSession v ∧ v.sessionHash = key ∧
      sessionRow v = some row ∧ (createSession v s).1 = true := by
  rcases sessions_cases supplies st s with hsame | ⟨v, row', hst, hcreated, hrow, -, hupdate⟩ |
    ⟨sessionHash, row₁, row', hrow, -, hupdate⟩
  · rw [hsame, hnone] at h
    cases h
  · rw [hupdate] at h
    by_cases hkey : key = v.sessionHash
    · subst hkey
      rw [Function.update_self] at h
      exact ⟨v, hst, rfl, hrow.trans h, hcreated⟩
    · rw [Function.update_of_ne hkey, hnone] at h
      cases h
  · rw [hupdate] at h
    have hkey : key ≠ sessionHash := by
      rintro rfl
      rw [hnone] at hrow
      cases hrow
    rw [Function.update_of_ne hkey, hnone] at h
    cases h

theorem revoked_session (supplies : Supplies) {row : SessionRow} (h : s.sessions key = some row) :
    ∃ row', (perform supplies (.revokeSession key) s).2.sessions key = some row' ∧ row.Keeps row' ∧
      row'.revokedAt.isSome = true := by
  by_cases hopen : row.revokedAt.isNone = true
  · refine ⟨{ row with revokedAt := some supplies.databaseNow }, ?_, ⟨rfl, rfl, rfl, fun _ => rfl⟩, rfl⟩
    simp only [perform, storeRevocation, h, hopen, if_true]
    exact Function.update_self ..
  · refine ⟨row, ?_, .refl row, ?_⟩
    · simp [perform, storeRevocation, h, hopen]
    · rwa [Bool.not_eq_true, Option.isNone_eq_false_iff] at hopen

end Rows

/-! ## Logins -/

section Logins

variable {w : IdentityWorld ι} {log : Log ι} {n : Nat} {i : ι} {u : Supplies}

theorem transcript_of_run [DecidableEq ι] (h : Run config w log) : Transcript (service config) Db.empty w log := by
  obtain ⟨s₀, rfl, h⟩ := transcript_of_reachable h
  exact h

/-- The tables before the statement at a position. -/
abbrev tablesAt (config : OidcServiceConfig) (log : Log ι) (n : Nat) : Db :=
  after (service config) Db.empty (log.take n)

/-- A login that is found was saved, and it has been there since. -/
theorem saved_of_login {t : LoginTransaction} {key : JsString} (hn : n ≤ log.length)
    (ht : Transcript (service config) Db.empty w log)
    (h : (tablesAt config log n).logins key = some t) :
    ∃ m j u v, m < n ∧ log[m]? = some ⟨j, u, .saveLogin v, true⟩ ∧ v.stateHash = key ∧
      loginRow v = some t ∧ ∀ l, m < l → l ≤ n → (tablesAt config log l).logins key = some t := by
  obtain ⟨m, ⟨j, u, st, r⟩, hm, hat, hbefore, hsince⟩ :=
    exists_last (P := fun s : Db => s.logins key = some t) (fun h => by cases h) h hn
  have hafter := hsince (m + 1) (Nat.lt_succ_self m) hm
  rw [after_take_succ hat] at hafter
  rcases login_of_perform hafter with hold | ⟨v, rfl, hkey, hrow, hsaved⟩
  · exact absurd hold hbefore
  · have hanswer : r = true := (ht.answers m _ hat).trans hsaved
    subst hanswer
    exact ⟨m, j, u, v, hm, hat, hkey, hrow, hsince⟩

/-- The positions of the statements behind a session, and what they were about. -/
structure Chain where
  consumed : Nat
  checked : Nat
  exchanged : Nat
  state : JsString
  code : JsString
  browserBinding : JsString
  transaction : LoginTransaction
  now : Int
  claims : IdentityClaims
  sessionId : JsString
  csrfToken : JsString

/-- Session `i` of the service executed the chain and created `v` at position `n`. -/
structure Chain.Leads (x : Chain) (config : OidcServiceConfig) (log : Log ι) (i : ι) (n : Nat)
    (v : IdentitySessionRecord Actor) : Prop where
  order : x.consumed < x.checked ∧ x.checked < x.exchanged ∧ x.exchanged < n
  consumed : ∃ u, log[x.consumed]? = some ⟨i, u, .consumeLogin (hash x.state), some x.transaction⟩
  bound : safeEqual x.transaction.browserBindingHash (hash x.browserBinding) = true
  checked : ∃ u, log[x.checked]? = some ⟨i, u, .now, x.now⟩
  unexpired : x.now < x.transaction.expiresAt
  exchanged : ∃ u, log[x.exchanged]? = some ⟨i, u, .exchangeCode ⟨x.code, x.transaction.codeVerifier,
    x.transaction.redirectUri, x.transaction.nonce⟩, some x.claims⟩
  nonce : x.claims.nonce = x.transaction.nonce
  actor : mapActor config x.claims = .ok v.actor
  /-- Both tokens are drawn for this session. -/
  drawn : ∃ l m u u' bs bs', x.exchanged < l ∧ l < m ∧ m < n ∧
    log[l]? = some ⟨i, u, .randomBytes 32, bs⟩ ∧ log[m]? = some ⟨i, u', .randomBytes 24, bs'⟩ ∧
    x.sessionId = token bs.1 ∧ x.csrfToken = token bs'.1
  sessionHash : v.sessionHash = hash x.sessionId
  csrfHash : v.csrfHash = hash x.csrfToken
  expires : ∃ m u t, x.exchanged < m ∧ m < n ∧ log[m]? = some ⟨i, u, .now, t⟩ ∧
    v.expiresAt = t + config.sessionLifetimeMs.getD 1800000
  /-- The insertion is the last statement of its session. -/
  last : Quiet log i (n + 1)

/-- What the service returns at the end of a chain. -/
def Chain.result (x : Chain) (v : IdentitySessionRecord Actor) : OidcSessionResult where
  sessionId := x.sessionId
  csrfToken := x.csrfToken
  actor := v.actor
  expiresAt := v.expiresAt
  returnTo := x.transaction.returnTo

/-- The login of a chain was saved at position `m`, by a call of `beginLogin`, and the chain is the
first to consume it. -/
structure Chain.SavedAt (x : Chain) (log : Log ι) (m : Nat) : Prop where
  before : m < x.consumed
  saved : ∃ j u v, log[m]? = some ⟨j, u, .saveLogin v, true⟩ ∧ v.stateHash = hash x.state ∧
    loginRow v = some x.transaction
  unused : ∀ l e, m < l → l < x.consumed → log[l]? = some e → e.st ≠ .consumeLogin (hash x.state)

/-- The insertion of a session ends its program. -/
theorem last_of_insertSession {transaction : LoginTransaction} {actor : Actor}
    {sessionId csrfToken : JsString} {createdAt now : Int} {q : IdentityProg Answer} {m : Nat}
    {v : IdentitySessionRecord Actor} {r : Bool}
    (h : Leaves log i m (insertSession config transaction actor sessionId csrfToken createdAt now) q)
    (hat : log[n]? = some ⟨i, u, .createSession v, r⟩) (hle : m ≤ n) :
    v = ⟨hash sessionId, hash csrfToken, actor, createdAt,
      now + config.sessionLifetimeMs.getD 1800000, createdAt⟩ ∧ Quiet log i (n + 1) ∧
      (q = .throw .database ∨
        q = .pure (.session ⟨sessionId, csrfToken, actor, v.expiresAt, transaction.returnTo⟩)) := by
  obtain ⟨l, _, accepted, -, hl, h, hn⟩ := Leaves.reach_or h hat rfl hle
  have hquiet : Quiet log i (l + 1) := by
    cases accepted with
    | false => exact h.of_throw.2
    | true => exact h.of_pure.2
  rcases hn with rfl | hn
  · rw [hat, Option.some.injEq, Entry.mk.injEq] at hl
    obtain ⟨-, -, hst, -⟩ := hl
    cases hst
    refine ⟨rfl, hquiet, ?_⟩
    cases accepted with
    | false => exact .inl h.of_throw.1
    | true => exact .inr h.of_pure.1
  · exact absurd rfl (hquiet n _ hn hat)

/-- The chain that the program of a session shows. -/
theorem chain_of_completeLogin {state code browserBinding : JsString} {q : IdentityProg Answer}
    {v : IdentitySessionRecord Actor} {r : Bool}
    (h : Leaves log i 0 (completeLogin config state code browserBinding) q)
    (hat : log[n]? = some ⟨i, u, .createSession v, r⟩) :
    ∃ x : Chain, x.state = state ∧ x.code = code ∧ x.browserBinding = browserBinding ∧
      x.Leads config log i n v ∧ (q = .throw .database ∨ q = .pure (.session (x.result v))) := by
  obtain ⟨c, uc, found, -, hcn, hc, h⟩ := Leaves.reach h hat rfl (Nat.zero_le n) nofun
  cases found with
  | none => exact absurd rfl (h.of_throw.2 n _ hcn hat)
  | some transaction =>
    change Leaves log i (c + 1) (checkLogin config code browserBinding transaction) q at h
    rw [checkLogin] at h
    split at h
    · exact absurd rfl (h.of_throw.2 n _ hcn hat)
    · next hbound =>
      obtain ⟨d, ud, now, hcd, hdn, hd, h⟩ := Leaves.reach h hat rfl hcn nofun
      change Leaves log i (d + 1) (exchangeLogin config code transaction now) q at h
      rw [exchangeLogin] at h
      split at h
      · exact absurd rfl (h.of_throw.2 n _ hdn hat)
      · next hexpiry =>
        obtain ⟨x, ux, claims, hdx, hxn, hx, h⟩ := Leaves.reach h hat rfl hdn nofun
        cases claims with
        | none => exact absurd rfl (h.of_throw.2 n _ hxn hat)
        | some claims =>
          change Leaves log i (x + 1) (openSession config transaction claims) q at h
          rw [openSession] at h
          split at h
          · exact absurd rfl (h.of_throw.2 n _ hxn hat)
          · next hnonce =>
            split at h
            · exact absurd rfl (h.of_throw.2 n _ hxn hat)
            · next actor hactor =>
              obtain ⟨p₁, u₁, id, hp₁, hp₁n, h₁, h⟩ := Leaves.reach h hat rfl hxn nofun
              obtain ⟨p₂, u₂, csrf, hp₂, hp₂n, h₂, h⟩ := Leaves.reach h hat rfl hp₁n nofun
              obtain ⟨p₃, _, createdAt, hp₃, hp₃n, -, h⟩ := Leaves.reach h hat rfl hp₂n nofun
              obtain ⟨p₄, u₄, now', hp₄, hp₄n, h₄, h⟩ := Leaves.reach h hat rfl hp₃n nofun
              obtain ⟨rfl, hquiet, hend⟩ := last_of_insertSession h hat hp₄n
              have hlate : x < p₄ := by omega
              exact ⟨⟨c, d, x, state, code, browserBinding, transaction, now, claims, token id.1,
                token csrf.1⟩, rfl, rfl, rfl, ⟨⟨hcd, hdx, hxn⟩, ⟨uc, hc⟩, by simpa using hbound,
                ⟨ud, hd⟩, not_le.mp hexpiry, ⟨ux, hx⟩, not_not.mp hnonce, hactor,
                ⟨p₁, p₂, u₁, u₂, id, csrf, hp₁, hp₂, hp₂n, h₁, h₂, rfl, rfl⟩, rfl, rfl,
                ⟨p₄, u₄, now', hlate, hp₄n, h₄, rfl⟩, hquiet⟩, hend⟩

theorem only_other (c : Call) (v : IdentitySessionRecord Actor)
    (hc : ∀ state code browserBinding, c ≠ .completeLogin state code browserBinding) :
    (program config c).Only (· ≠ .createSession v) := by
  cases c with
  | beginLogin returnTo =>
    refine ⟨nofun, fun _ => ⟨nofun, fun _ => ⟨nofun, fun _ => ⟨nofun, fun _ => ⟨nofun, fun _ =>
      ⟨nofun, fun saved => ?_⟩⟩⟩⟩⟩⟩
    cases saved with
    | false => trivial
    | true =>
      refine ⟨nofun, fun endpoint => ?_⟩
      cases endpoint with
      | none => trivial
      | some endpoint => trivial
  | completeLogin state code browserBinding => exact absurd rfl (hc state code browserBinding)
  | authenticateSession sessionId csrfToken mutation =>
    refine ⟨nofun, fun found => ?_⟩
    cases found with
    | none => trivial
    | some record => exact ⟨nofun, fun _ => trivial⟩
  | revokeSession sessionId => exact ⟨nofun, fun _ => trivial⟩

/-- Only `completeLogin` inserts sessions. -/
theorem completeLogin_of_created (ht : Transcript (service config) Db.empty w log)
    {v : IdentitySessionRecord Actor} {r : Bool} (hat : log[n]? = some ⟨i, u, .createSession v, r⟩) :
    ∃ state code browserBinding q,
      call (w.sessions i) = some (.completeLogin state code browserBinding) ∧
      Leaves log i 0 (completeLogin config state code browserBinding) q ∧
      ∀ c a, w.sessions i = .returned c a → q = .pure a := by
  obtain ⟨c, q, hcall, h, hend⟩ := ht.leaves hat
  by_cases hc : ∃ state code browserBinding, c = .completeLogin state code browserBinding
  · obtain ⟨state, code, browserBinding, rfl⟩ := hc
    exact ⟨state, code, browserBinding, q, hcall, h, hend⟩
  · have hother : (program config c).Only (· ≠ .createSession v) :=
      only_other c v fun state code browserBinding heq => hc ⟨state, code, browserBinding, heq⟩
    exact absurd rfl (Leaves.only h hother hat rfl (Nat.zero_le n))

/-- What is consumed was saved, and has not been consumed since. -/
theorem Chain.Leads.savedAt {x : Chain} {v : IdentitySessionRecord Actor}
    (h : x.Leads config log i n v) (ht : Transcript (service config) Db.empty w log) :
    ∃ m, x.SavedAt log m := by
  obtain ⟨uc, hc⟩ := h.consumed
  have hfound : (tablesAt config log x.consumed).logins (hash x.state) = some x.transaction :=
    (ht.answers _ _ hc).symm
  obtain ⟨m, j, um, saved, hm, hm_at, hkey, hrow, hsince⟩ :=
    saved_of_login (Nat.le_of_lt (lt_of_getElem? hc)) ht hfound
  refine ⟨m, hm, ⟨j, um, saved, hm_at, hkey, hrow⟩, ?_⟩
  rintro l ⟨j', u', st, r'⟩ hml hlc hl rfl
  have hgone := hsince (l + 1) (Nat.lt_succ_of_lt hml) hlc
  rw [tablesAt, after_take_succ hl] at hgone
  exact Option.some_ne_none _ (hgone.symm.trans (consumed_login u' _ _))

theorem session_of_login (ht : Transcript (service config) Db.empty w log)
    {v : IdentitySessionRecord Actor} {r : Bool} (hat : log[n]? = some ⟨i, u, .createSession v, r⟩) :
    ∃ x : Chain, ∃ m, call (w.sessions i) = some (.completeLogin x.state x.code x.browserBinding) ∧
      x.Leads config log i n v ∧ x.SavedAt log m ∧
      ∀ c a, w.sessions i = .returned c a → a = .session (x.result v) := by
  obtain ⟨state, code, browserBinding, q, hcall, h, hend⟩ := completeLogin_of_created ht hat
  obtain ⟨x, rfl, rfl, rfl, hx, hq⟩ := chain_of_completeLogin h hat
  obtain ⟨m, hm⟩ := hx.savedAt ht
  refine ⟨x, m, hcall, hx, hm, fun c a hreturned => ?_⟩
  rw [hend c a hreturned] at hq
  rcases hq with hq | hq
  · cases hq
  · cases hq
    rfl

theorem Chain.SavedAt.hash_state {x x' : Chain} {m : Nat} (h : x.SavedAt log m)
    (h' : x'.SavedAt log m) : hash x.state = hash x'.state := by
  obtain ⟨j, u, saved, hat, hkey, -⟩ := h.saved
  obtain ⟨j', u', saved', hat', hkey', -⟩ := h'.saved
  rw [hat', Option.some.injEq, Entry.mk.injEq] at hat
  obtain ⟨-, -, hst, -⟩ := hat
  cases hst
  exact hkey.symm.trans hkey'

section Twice

variable {x x' : Chain} {i' : ι} {m n' : Nat} {v v' : IdentitySessionRecord Actor}

/-- The first consumption of a saved login is the only one. -/
theorem Chain.Leads.consumed_le (h : x.Leads config log i n v) (hm : x.SavedAt log m)
    (hm' : x'.SavedAt log m) : x'.consumed ≤ x.consumed := by
  by_contra hlt
  obtain ⟨u, hat⟩ := h.consumed
  refine hm'.unused x.consumed _ hm.before (not_le.mp hlt) hat ?_
  rw [hm.hash_state hm']

theorem Chain.Leads.le {u' : Supplies} {r' : Bool} (h : x.Leads config log i n v)
    (hm : x.SavedAt log m) (h' : x'.Leads config log i' n' v') (hm' : x'.SavedAt log m)
    (hat' : log[n']? = some ⟨i', u', .createSession v', r'⟩) : n' ≤ n := by
  have hconsumed : x.consumed = x'.consumed :=
    le_antisymm (h'.consumed_le hm' hm) (h.consumed_le hm hm')
  obtain ⟨w, hat⟩ := h.consumed
  obtain ⟨w', hat''⟩ := h'.consumed
  rw [hconsumed, hat'', Option.some.injEq, Entry.mk.injEq] at hat
  by_contra hlt
  exact h.last n' _ (not_le.mp hlt) hat' hat.1

end Twice

/-- Position `n` creates a session. -/
def Creates (log : Log ι) (n : Nat) : Prop :=
  ∃ i u v r, log[n]? = some ⟨i, u, .createSession v, r⟩

end Logins

section Main

variable [DecidableEq ι]

/-- Every session that is created comes of a login that was saved and not consumed before, for the
browser that began it, before it expired, and with the nonce that the provider returned. No two
sessions come of one saved login. -/
theorem sessions_of_logins (config : OidcServiceConfig) (w : IdentityWorld ι) (log : Log ι)
    (hrun : Run config w log) : ∃ (chain : Nat → Chain) (saved : Nat → Nat),
      (∀ n i u v r, log[n]? = some ⟨i, u, .createSession v, r⟩ →
        call (w.sessions i) = some (.completeLogin (chain n).state (chain n).code
          (chain n).browserBinding) ∧
        (chain n).Leads config log i n v ∧ (chain n).SavedAt log (saved n) ∧
        ∀ c a, w.sessions i = .returned c a → a = .session ((chain n).result v)) ∧
      Set.InjOn saved {n | Creates log n} := by
  have ht := transcript_of_run hrun
  have hall : ∀ n, ∃ x : Chain, ∃ m, ∀ i u v r, log[n]? = some ⟨i, u, .createSession v, r⟩ →
      call (w.sessions i) = some (.completeLogin x.state x.code x.browserBinding) ∧
      x.Leads config log i n v ∧ x.SavedAt log m ∧
      ∀ c a, w.sessions i = .returned c a → a = .session (x.result v) := by
    intro n
    by_cases hn : Creates log n
    · obtain ⟨i, u, v, r, hat⟩ := hn
      obtain ⟨x, m, hx⟩ := session_of_login ht hat
      refine ⟨x, m, fun i' u' v' r' hat' => ?_⟩
      rw [hat, Option.some.injEq, Entry.mk.injEq] at hat'
      obtain ⟨rfl, -, hst, -⟩ := hat'
      cases hst
      exact hx
    · exact ⟨⟨0, 0, 0, [], [], [], ⟨[], [], [], [], [], [], 0⟩, 0, ⟨[], [], [], none, [], [], []⟩, [],
        []⟩, 0, fun i u v r hat => absurd ⟨i, u, v, r, hat⟩ hn⟩
  choose chain saved hchain using hall
  refine ⟨chain, saved, hchain, ?_⟩
  rintro n ⟨i, u, v, r, hat⟩ n' ⟨i', u', v', r', hat'⟩ hsame
  obtain ⟨-, h, hm, -⟩ := hchain n i u v r hat
  obtain ⟨-, h', hm', -⟩ := hchain n' i' u' v' r' hat'
  rw [← hsame] at hm'
  exact le_antisymm (h'.le hm' h hm hat) (h.le hm h' hm' hat')

end Main

/-! ## Sessions -/

section Sessions

variable {w : IdentityWorld ι} {log : Log ι} {n : Nat} {i : ι} {u : Supplies} {key : JsString}

/-- A row stays, and keeps what counts. -/
theorem session_lasts {l : Nat} {row : SessionRow} (h : (tablesAt config log l).sessions key = some row)
    (hle : l ≤ n) (hn : n ≤ log.length) :
    ∃ row', (tablesAt config log n).sessions key = some row' ∧ row.Keeps row' := by
  induction n, hle using Nat.le_induction with
  | base => exact ⟨row, h, .refl row⟩
  | succ n hle ih =>
    obtain ⟨row', hrow', hkeeps⟩ := ih (Nat.le_of_succ_le hn)
    have hat : log[n]? = some log[n] := List.getElem?_eq_getElem hn
    obtain ⟨row'', hrow'', hkeeps'⟩ := session_kept log[n].supplies log[n].st hrow'
    rw [tablesAt, after_take_succ hat]
    exact ⟨row'', hrow'', hkeeps.trans hkeeps'⟩

/-- A row that is found was inserted by a statement, and an open one has not been revoked since. -/
theorem created_of_session (ht : Transcript (service config) Db.empty w log) (hn : n ≤ log.length)
    {row : SessionRow} (h : (tablesAt config log n).sessions key = some row) :
    ∃ m j u v row₀, m < n ∧ log[m]? = some ⟨j, u, .createSession v, true⟩ ∧ v.sessionHash = key ∧
      sessionRow v = some row₀ ∧ row₀.Keeps row ∧
      (row.revokedAt.isNone = true →
        ∀ l e, m < l → l < n → log[l]? = some e → e.st ≠ .revokeSession key) := by
  obtain ⟨m, ⟨j, u, st, r⟩, hm, hat, hbefore, hsince⟩ :=
    exists_last (P := fun s : Db => (s.sessions key).isSome = true) (fun h => by cases h)
      (Option.isSome_iff_exists.mpr ⟨row, h⟩) hn
  obtain ⟨row₀, hrow₀⟩ := Option.isSome_iff_exists.mp (hsince (m + 1) (Nat.lt_succ_self m) hm)
  have hnone := Option.not_isSome_iff_eq_none.mp hbefore
  obtain ⟨v, rfl, hkey, hinserted, hcreated⟩ :=
    session_of_perform ((after_take_succ (V := service config) hat) ▸ hrow₀) hnone
  have hanswer : r = true := (ht.answers m _ hat).trans hcreated
  subst hanswer
  obtain ⟨row', hrow', hkeeps⟩ := session_lasts hrow₀ hm hn
  rw [h, Option.some.injEq] at hrow'
  subst hrow'
  refine ⟨m, j, u, v, row₀, hm, hat, hkey, hinserted, hkeeps, ?_⟩
  rintro hopen l ⟨j', u', st, r'⟩ hml hln hl rfl
  obtain ⟨rowₗ, hrowₗ, -⟩ := session_lasts hrow₀ hml (Nat.le_of_lt (lt_of_getElem? hl))
  obtain ⟨rowᵣ, hrowᵣ, -, hrevoked⟩ := revoked_session u' hrowₗ
  have hrowᵣ' : (tablesAt config log (l + 1)).sessions key = some rowᵣ := by
    rw [tablesAt, after_take_succ hl]
    exact hrowᵣ
  obtain ⟨row', hrow', hkeeps'⟩ := session_lasts hrowᵣ' hln hn
  rw [h, Option.some.injEq] at hrow'
  subst hrow'
  have hgone := hkeeps'.revokedAt hrevoked
  rw [Option.isSome_iff_exists] at hgone
  obtain ⟨at', hat'⟩ := hgone
  rw [hat'] at hopen
  cases hopen

theorem sessionRow_fields {v : IdentitySessionRecord Actor} {row : SessionRow}
    (h : sessionRow v = some row) : row.csrfHash = v.csrfHash ∧ row.expiresAt = v.expiresAt ∧
      jsonbColumn v.actor.value = some row.actorJson ∧ isSha256 v.csrfHash = true := by
  unfold sessionRow at h
  split at h
  · next hdigests =>
    rw [Bool.and_eq_true] at hdigests
    simp only [Option.bind_eq_bind, Option.bind_eq_some_iff, Option.pure_def, Option.some.injEq] at h
    obtain ⟨actorJson, hactor, rfl⟩ := h
    exact ⟨rfl, rfl, hactor, hdigests.2⟩
  · cases h

/-- What `getSession` finds is the open row. -/
theorem row_of_getSession {s : Db} {databaseNow : Int} {record : IdentitySessionRecord JsValue}
    (h : (getSession databaseNow key s).1 = some record) :
    ∃ row, s.sessions key = some row ∧ row.revokedAt.isNone = true ∧
      databaseNow < row.expiresAt * 1000 ∧ record.csrfHash = row.csrfHash ∧
      record.expiresAt = row.expiresAt ∧ record.actor = row.actorJson := by
  unfold getSession at h
  split at h
  · cases h
  · next row hrow =>
    split at h
    · next hopen =>
      simp only [SessionRow.open, Bool.and_eq_true, decide_eq_true_eq] at hopen
      cases h
      exact ⟨row, hrow, hopen.1, hopen.2, rfl, rfl, rfl⟩
    · cases h

theorem authenticatedActor_eq_some {record : IdentitySessionRecord JsValue}
    {csrfToken : Option JsString} {mutation : Bool} {now : Int} {actor : JsValue}
    (h : authenticatedActor record csrfToken mutation now = some actor) :
    now < record.expiresAt ∧ record.actor = actor ∧
      (mutation = true → ∃ supplied, csrfToken = some supplied ∧ supplied ≠ [] ∧
        safeEqual record.csrfHash (hash supplied) = true) := by
  simp only [authenticatedActor] at h
  split at h
  · cases h
  · next hdenied =>
    simp only [not_or, not_and, not_le, Bool.not_eq_true', Bool.not_eq_false] at hdenied
    obtain ⟨hnow, hsupplied, hequal⟩ := hdenied
    rw [Option.some.injEq] at h
    refine ⟨hnow, h, fun hmutation => ?_⟩
    cases csrfToken with
    | none => exact absurd rfl (hsupplied hmutation)
    | some supplied => exact ⟨supplied, rfl, hsupplied hmutation, hequal hmutation⟩

/-- An actor is returned only for a session that was created under the id, has not been revoked since
and has not expired, and for a mutation only with the CSRF token of that session. -/
theorem actor_of_session [DecidableEq ι] (config : OidcServiceConfig) (w : IdentityWorld ι)
    (log : Log ι) (hrun : Run config w log) (i : ι) (sessionId : JsString)
    (csrfToken : Option JsString) (mutation : Bool) (actor : JsValue)
    (hi : w.sessions i =
      .returned (.authenticateSession sessionId csrfToken mutation) (.actor (some actor))) :
    ∃ (n g d : Nat) (j : ι) (u ug ud : Supplies) (v : IdentitySessionRecord Actor)
      (record : IdentitySessionRecord JsValue) (now : Int),
      n < g ∧ g < d ∧ log[n]? = some ⟨j, u, .createSession v, true⟩ ∧
      log[g]? = some ⟨i, ug, .getSession (hash sessionId), some record⟩ ∧
      log[d]? = some ⟨i, ud, .now, now⟩ ∧
      v.sessionHash = hash sessionId ∧ jsonbColumn v.actor.value = some actor ∧
      (∀ l e, n < l → l < g → log[l]? = some e → e.st ≠ .revokeSession (hash sessionId)) ∧
      ug.databaseNow < v.expiresAt * 1000 ∧ now < v.expiresAt ∧
      (mutation = true → ∃ supplied, csrfToken = some supplied ∧ supplied ≠ [] ∧
        hash supplied = v.csrfHash) := by
  have ht := transcript_of_run hrun
  obtain ⟨g, ug, found, -, hg, h⟩ := Leaves.passed (ht.of_returned hi)
  cases found with
  | none => cases h.of_pure.1
  | some record =>
    obtain ⟨d, ud, now, hgd, hd, h⟩ := Leaves.passed h
    have hactor := h.of_pure.1
    rw [Prog.pure.injEq, Answer.actor.injEq] at hactor
    obtain ⟨hnow, hsame, hmutation⟩ := authenticatedActor_eq_some hactor.symm
    obtain ⟨row, hrow, hopen, hdatabase, hcsrf, hexpires, hjson⟩ :=
      row_of_getSession (ht.answers g _ hg).symm
    obtain ⟨n, j, u, v, row₀, hn, hcreated, hkey, hinserted, hkeeps, hunrevoked⟩ :=
      created_of_session ht (Nat.le_of_lt (lt_of_getElem? hg)) hrow
    obtain ⟨hcsrf₀, hexpires₀, hjson₀, hdigest⟩ := sessionRow_fields hinserted
    have hexpiry : record.expiresAt = v.expiresAt := hexpires.trans (hkeeps.expiresAt.trans hexpires₀)
    have hcsrfHash : record.csrfHash = v.csrfHash := hcsrf.trans (hkeeps.csrfHash.trans hcsrf₀)
    refine ⟨n, g, d, j, u, ug, ud, v, record, now, hn, hgd, hcreated, hg, hd, hkey, ?_,
      hunrevoked hopen, ?_, hexpiry ▸ hnow, fun h => ?_⟩
    · rw [hjson₀, ← hkeeps.actorJson, ← hjson, hsame]
    · rw [← hexpiry, hexpires]
      exact hdatabase
    · obtain ⟨supplied, hsupplied, hne, hequal⟩ := hmutation h
      rw [hcsrfHash] at hequal
      exact ⟨supplied, hsupplied, hne, (safeEqual_eq hdigest (isSha256_hash supplied) hequal).symm⟩

end Sessions

end TrustCore.Identity
