import TrustCore.IdentityRuns
import TrustCore.ManifestSignature
import TrustCore.PlainTexts

/-!
# A login from beginning to end

Each token is drawn once, and what the columns do to it is undone by the time it is compared. So a
login that the provider answers in time opens a session, the session answers with the actor that the
claims gave, and once revoked it answers no more. The path that the browser returns to is one that
`safeReturn` let through.
-/

namespace TrustCore.Identity

open TrustCore.Utf TrustCore.Json TrustCore.Columns TrustCore.Runs TrustCore.Sessions
open TrustCore.Transcripts TrustCore.ArchiveVerify
open TrustCore.Programs (Prog)
open TrustCore.Sha256 (sha256 isSha256 isSha256_sha256 isWellFormed_of_isSha256)

/-! ## Tokens -/

theorem plain_base64Unit (n : Nat) : base64Unit n ≠ 0 ∧ (base64Unit n).toNat < 128 := by
  have h : (base64Unit n).toNat < 128 ∧ 0 < (base64Unit n).toNat := by
    unfold base64Unit
    rw [UInt16.toNat_ofNat']
    split_ifs <;> omega
  refine ⟨fun h0 => ?_, h.1⟩
  rw [h0] at h
  exact absurd h.2 (by decide)

theorem mem_encodeBase64 {bs : Bytes} {u : UInt16} (h : u ∈ encodeBase64 bs) :
    u = 61 ∨ ∃ n, u = base64Unit n := by
  induction bs using encodeBase64.induct with
  | case1 => cases h
  | case2 a =>
    simp only [encodeBase64, List.mem_cons, List.not_mem_nil, or_false] at h
    rcases h with rfl | rfl | rfl | rfl
    · exact .inr ⟨_, rfl⟩
    · exact .inr ⟨_, rfl⟩
    · exact .inl rfl
    · exact .inl rfl
  | case3 a b =>
    simp only [encodeBase64, List.mem_cons, List.not_mem_nil, or_false] at h
    rcases h with rfl | rfl | rfl | rfl
    · exact .inr ⟨_, rfl⟩
    · exact .inr ⟨_, rfl⟩
    · exact .inr ⟨_, rfl⟩
    · exact .inl rfl
  | case4 a b c rest ih =>
    simp only [encodeBase64, List.mem_append, List.mem_cons, List.not_mem_nil, or_false] at h
    rcases h with (rfl | rfl | rfl | rfl) | h
    · exact .inr ⟨_, rfl⟩
    · exact .inr ⟨_, rfl⟩
    · exact .inr ⟨_, rfl⟩
    · exact .inr ⟨_, rfl⟩
    · exact ih h

theorem plain_token (bs : Bytes) : Plain (token bs) := by
  intro u hu
  obtain ⟨v, hv, hu⟩ := List.mem_filterMap.mp hu
  split_ifs at hu with h61 h43 h47
  · cases hu
    decide
  · cases hu
    decide
  · cases hu
    rcases mem_encodeBase64 hv with rfl | ⟨n, rfl⟩
    · exact absurd rfl h61
    · exact plain_base64Unit n

theorem base64Unit_ne_pad (n : Nat) : base64Unit n ≠ 61 := by
  intro h
  have htoNat := congrArg UInt16.toNat h
  unfold base64Unit at htoNat
  rw [UInt16.toNat_ofNat'] at htoNat
  split_ifs at htoNat <;> simp at htoNat <;> omega

theorem token_ne_nil {bs : Bytes} (h : bs ≠ []) : token bs ≠ [] := by
  have hhead : ∃ n rest, encodeBase64 bs = base64Unit n :: rest := by
    cases bs using encodeBase64.induct with
    | case1 => exact absurd rfl h
    | case2 a => exact ⟨_, _, rfl⟩
    | case3 a b => exact ⟨_, _, rfl⟩
    | case4 a b c rest => exact ⟨_, _, rfl⟩
  obtain ⟨n, rest, hhead⟩ := hhead
  simp [token, base64Url, hhead, base64Unit_ne_pad n]

/-! ## Paths to return to -/

/-- A path of this host. -/
def IsPath (s : JsString) : Prop := ∃ rest, s = 47 :: rest ∧ rest.head? ≠ some 47

theorem isPath_safeReturn (config : OidcServiceConfig) (value : JsString) :
    IsPath (safeReturn config value) := by
  have hroot : IsPath (js "/") := ⟨[], rfl, nofun⟩
  simp only [safeReturn]
  split
  · exact hroot
  · next h =>
    simp only [Bool.or_eq_true, not_or, Bool.not_eq_true', Bool.not_eq_false,
      Bool.not_eq_true] at h
    obtain ⟨⟨hslash, hdouble⟩, -⟩ := h
    obtain ⟨rest, rfl⟩ := List.isPrefixOf_iff_prefix.mp hslash
    refine ⟨rest, rfl, fun hhead => ?_⟩
    cases rest with
    | nil => cases hhead
    | cons u rest =>
      cases hhead
      exact absurd hdouble (by simp [show js "/" = [47] from rfl, show js "//" = [47, 47] from rfl])

/-- A column does not change the first unit of a path, nor what it is followed by. -/
theorem head?_column {s : JsString} (h : (fromScalars (scalars s)).head? = some 47) :
    s.head? = some 47 := by
  cases s with
  | nil => exact h
  | cons u s =>
    by_cases hu : isSurrogate u = true
    · exfalso
      have hlone : ∀ rest, (fromScalars (0xFFFD :: rest)).head? ≠ some 47 := fun rest hhead => by
        cases hhead
      cases s with
      | nil =>
        rw [scalars, if_pos hu] at h
        exact hlone [] h
      | cons v rest =>
        rw [scalars] at h
        split at h
        · next hpair =>
          rw [fromScalars, List.flatMap_cons, scalarUnits_pair hpair] at h
          cases h
          cases hu
        · exact hlone _ h
    · rw [scalars_cons u s (by simpa using hu), fromScalars, List.flatMap_cons, scalarUnits_unit] at h
      exact h

theorem IsPath.column {s t : JsString} (h : IsPath s) (ht : textColumn s = some t) : IsPath t := by
  obtain ⟨rest, rfl, hrest⟩ := h
  unfold textColumn at ht
  split at ht
  · cases ht
  · rw [Option.some.injEq, scalars_cons 47 rest rfl] at ht
    exact ⟨fromScalars (scalars rest), ht.symm, fun hhead => hrest (head?_column hhead)⟩

section Paths

variable {ι : Type} {config : OidcServiceConfig} {w : IdentityWorld ι} {log : Log ι} {n : Nat} {i : ι}
  {u : Supplies}

theorem only_begin (c : Call) (v : LoginTransaction) (hc : ∀ returnTo, c ≠ .beginLogin returnTo) :
    (program config c).Only (· ≠ .saveLogin v) := by
  cases c with
  | beginLogin returnTo => exact absurd rfl (hc returnTo)
  | completeLogin state code browserBinding =>
    refine ⟨by simp, fun found => ?_⟩
    cases found with
    | none => trivial
    | some transaction =>
      change (checkLogin config code browserBinding transaction).Only _
      rw [checkLogin]
      split
      · trivial
      · refine ⟨by simp, fun now => ?_⟩
        change (exchangeLogin config code transaction now).Only _
        rw [exchangeLogin]
        split
        · trivial
        · refine ⟨by simp, fun claims => ?_⟩
          cases claims with
          | none => trivial
          | some claims =>
            change (openSession config transaction claims).Only _
            rw [openSession]
            split
            · trivial
            · split
              · trivial
              · refine ⟨by simp, fun _ => ⟨by simp, fun _ => ⟨by simp, fun _ => ⟨by simp, fun _ =>
                  ⟨by simp, fun accepted => ?_⟩⟩⟩⟩⟩
                cases accepted with
                | false => trivial
                | true => trivial
  | authenticateSession sessionId csrfToken mutation =>
    refine ⟨by simp, fun found => ?_⟩
    cases found with
    | none => trivial
    | some record => exact ⟨by simp, fun _ => trivial⟩
  | revokeSession sessionId => exact ⟨by simp, fun _ => trivial⟩

/-- A login is saved by `beginLogin`, with tokens of its own. -/
theorem login_of_begin (ht : Transcript (service config) Db.empty w log) {v : LoginTransaction} {r : Bool}
    (hat : log[n]? = some ⟨i, u, .saveLogin v, r⟩) :
    ∃ returnTo tokens now, call (w.sessions i) = some (.beginLogin returnTo) ∧
      v = loginTransaction config returnTo tokens now := by
  obtain ⟨c, q, hcall, h, -⟩ := ht.leaves hat
  by_cases hc : ∃ returnTo, c = .beginLogin returnTo
  · obtain ⟨returnTo, rfl⟩ := hc
    obtain ⟨p₁, _, state, -, hp₁, -, h⟩ := Leaves.reach h hat rfl (Nat.zero_le n) nofun
    obtain ⟨p₂, _, binding, -, hp₂, -, h⟩ := Leaves.reach h hat rfl hp₁ nofun
    obtain ⟨p₃, _, nonce, -, hp₃, -, h⟩ := Leaves.reach h hat rfl hp₂ nofun
    obtain ⟨p₄, _, verifier, -, hp₄, -, h⟩ := Leaves.reach h hat rfl hp₃ nofun
    obtain ⟨p₅, _, now, -, hp₅, -, h⟩ := Leaves.reach h hat rfl hp₄ nofun
    obtain ⟨p₆, _, saved, -, hp₆, h, hn⟩ := Leaves.reach_or h hat rfl hp₅
    rcases hn with rfl | hn
    · rw [hat, Option.some.injEq, Entry.mk.injEq] at hp₆
      obtain ⟨-, -, hst, -⟩ := hp₆
      cases hst
      exact ⟨returnTo, _, now, hcall, rfl⟩
    · cases saved with
      | false => exact absurd rfl (h.of_throw.2 n _ hn hat)
      | true =>
        obtain ⟨p₇, _, endpoint, -, hp₇, -, h⟩ := Leaves.reach h hat rfl hn nofun
        cases endpoint with
        | none => exact absurd rfl (h.of_throw.2 n _ hp₇ hat)
        | some endpoint => exact absurd rfl (h.of_pure.2 n _ hp₇ hat)
  · have hother : (program config c).Only (· ≠ .saveLogin v) :=
      only_begin c v fun returnTo heq => hc ⟨returnTo, heq⟩
    exact absurd rfl (Leaves.only h hother hat rfl (Nat.zero_le n))

/-- A session that is returned was inserted. -/
theorem created_of_returned (ht : Transcript (service config) Db.empty w log) {c : Call}
    {result : OidcSessionResult} (hi : w.sessions i = .returned c (.session result)) :
    ∃ (n : Nat) (u : Supplies) (v : IdentitySessionRecord Actor),
      log[n]? = some ⟨i, u, .createSession v, true⟩ := by
  have h := ht.of_returned hi
  cases c with
  | beginLogin returnTo =>
    obtain ⟨_, _, _, -, -, h⟩ := Leaves.passed h
    obtain ⟨_, _, _, -, -, h⟩ := Leaves.passed h
    obtain ⟨_, _, _, -, -, h⟩ := Leaves.passed h
    obtain ⟨_, _, _, -, -, h⟩ := Leaves.passed h
    obtain ⟨_, _, _, -, -, h⟩ := Leaves.passed h
    obtain ⟨_, _, saved, -, -, h⟩ := Leaves.passed h
    cases saved with
    | false => cases h.of_throw.1
    | true =>
      obtain ⟨_, _, endpoint, -, -, h⟩ := Leaves.passed h
      cases endpoint with
      | none => cases h.of_throw.1
      | some endpoint => cases h.of_pure.1
  | completeLogin state code browserBinding =>
    obtain ⟨c, _, found, -, -, h⟩ := Leaves.passed h
    cases found with
    | none => cases h.of_throw.1
    | some transaction =>
      change Leaves log i (c + 1) (checkLogin config code browserBinding transaction) _ at h
      rw [checkLogin] at h
      split at h
      · cases h.of_throw.1
      · obtain ⟨d, _, now, -, -, h⟩ := Leaves.passed h
        change Leaves log i (d + 1) (exchangeLogin config code transaction now) _ at h
        rw [exchangeLogin] at h
        split at h
        · cases h.of_throw.1
        · obtain ⟨x, _, claims, -, -, h⟩ := Leaves.passed h
          cases claims with
          | none => cases h.of_throw.1
          | some claims =>
            change Leaves log i (x + 1) (openSession config transaction claims) _ at h
            rw [openSession] at h
            split at h
            · cases h.of_throw.1
            · split at h
              · cases h.of_throw.1
              · obtain ⟨_, _, _, -, -, h⟩ := Leaves.passed h
                obtain ⟨_, _, _, -, -, h⟩ := Leaves.passed h
                obtain ⟨_, _, _, -, -, h⟩ := Leaves.passed h
                obtain ⟨_, _, _, -, -, h⟩ := Leaves.passed h
                obtain ⟨n, u, accepted, -, hat, h⟩ := Leaves.passed h
                cases accepted with
                | false => cases h.of_throw.1
                | true => exact ⟨n, u, _, hat⟩
  | authenticateSession sessionId csrfToken mutation =>
    obtain ⟨_, _, found, -, -, h⟩ := Leaves.passed h
    cases found with
    | none => cases h.of_pure.1
    | some record =>
      obtain ⟨_, _, _, -, -, h⟩ := Leaves.passed h
      cases h.of_pure.1
  | revokeSession sessionId =>
    obtain ⟨_, _, _, -, -, h⟩ := Leaves.passed h
    cases h.of_pure.1

/-- The browser returns to what `safeReturn` made of the path that was asked for when a login began:
a path of one leading slash, as the column stores it. -/
theorem returnTo_safe [DecidableEq ι] (config : OidcServiceConfig) (w : IdentityWorld ι) (log : Log ι)
    (hrun : Run config w log) (i : ι) (c : Call) (result : OidcSessionResult)
    (hi : w.sessions i = .returned c (.session result)) :
    IsPath result.returnTo ∧ ∃ j returnTo, call (w.sessions j) = some (.beginLogin returnTo) ∧
      textColumn (safeReturn config returnTo) = some result.returnTo := by
  have ht := transcript_of_run hrun
  obtain ⟨n, u, v, hat⟩ := created_of_returned ht hi
  obtain ⟨x, m, -, -, hm, hend⟩ := session_of_login ht hat
  have hresult := hend c _ hi
  rw [Answer.session.injEq] at hresult
  subst hresult
  obtain ⟨j, u', saved, hsaved, -, hrow⟩ := hm.saved
  obtain ⟨returnTo, tokens, now, hcall, rfl⟩ := login_of_begin ht hsaved
  obtain ⟨-, -, -, -, hcolumn⟩ := loginRow_fields hrow
  exact ⟨(isPath_safeReturn config returnTo).column hcolumn, j, returnTo, hcall, hcolumn⟩

end Paths

/-! ## A login alone -/

theorem saveLogin_of_free {v row : LoginTransaction} {s : Db} (hrow : loginRow v = some row)
    (hfree : s.logins v.stateHash = none) : saveLogin v s =
      (true, { s with logins := Function.update s.logins v.stateHash (some row) }) := by
  simp only [saveLogin, hrow, hfree]

theorem createSession_of_free {v : IdentitySessionRecord Actor} {row : SessionRow} {s : Db}
    (hrow : sessionRow v = some row) (hfree : s.sessions v.sessionHash = none) : createSession v s =
      (true, { s with sessions := Function.update s.sessions v.sessionHash (some row) }) := by
  simp only [createSession, hrow, hfree]

/-- The tokens of a login, each from the supplies of one statement. -/
def drawn (b : Nat → Supplies) : LoginTokens :=
  ⟨token ((b 0).random 32).1, token ((b 1).random 32).1, token ((b 2).random 32).1,
    token ((b 3).random 48).1⟩

@[simp] theorem loginTransaction_stateHash {config : OidcServiceConfig} {returnTo : JsString}
    {tokens : LoginTokens} {now : Int} :
    (loginTransaction config returnTo tokens now).stateHash = hash tokens.state := rfl

/-- The row of a login whose texts the columns accept. -/
theorem loginRow_transaction {config : OidcServiceConfig} {returnTo redirectUri path : JsString}
    {tokens : LoginTokens} {now : Int} (hnonce : Plain tokens.nonce) (hverifier : Plain tokens.codeVerifier)
    (hredirect : textColumn config.redirectUri = some redirectUri)
    (hpath : textColumn (safeReturn config returnTo) = some path) :
    loginRow (loginTransaction config returnTo tokens now) =
      some { loginTransaction config returnTo tokens now with redirectUri, returnTo := path } := by
  simp [loginRow, loginTransaction, isSha256_hash, textColumn_jsonbText hnonce.jsonbText,
    textColumn_jsonbText hverifier.jsonbText, hredirect, hpath]

section Alone

variable {config : OidcServiceConfig} {s : Db} {returnTo code endpoint : JsString}
  {b c : Nat → Supplies} {row : LoginTransaction}

theorem beginLogin_supplied (hfree : s.logins (hash (drawn b).state) = none)
    (hrow : loginRow (loginTransaction config returnTo (drawn b) (b 4).now) = some row)
    (hendpoint : (b 6).endpoint = some endpoint) :
    supplied (service config) [b 0, b 1, b 2, b 3, b 4, b 5, b 6] (beginLogin config returnTo) s =
      (.pure (.login ⟨authorizationUrl config (drawn b) endpoint, (drawn b).browserBinding⟩),
        { s with logins := Function.update s.logins (hash (drawn b).state) (some row) }) := by
  have hsave := saveLogin_of_free hrow hfree
  simp only [drawn] at hsave
  simp [supplied, beginLogin, Prog.perform, bind, Prog.bind, service, perform, hsave, hendpoint, drawn,
    pure]

/-- The session that a login is given. -/
def opened (config : OidcServiceConfig) (actor : Actor) (c : Nat → Supplies) :
    IdentitySessionRecord Actor where
  sessionHash := hash (token ((c 3).random 32).1)
  csrfHash := hash (token ((c 4).random 24).1)
  actor
  createdAt := (c 5).now
  expiresAt := (c 6).now + config.sessionLifetimeMs.getD 1800000
  lastSeenAt := (c 5).now

theorem completeLogin_supplied {state browserBinding : JsString} {claims : IdentityClaims} {actor : Actor}
    {session : SessionRow} (hlogin : s.logins (hash state) = some row)
    (hbound : row.browserBindingHash = hash browserBinding) (hnow : (c 1).now < row.expiresAt)
    (hclaims : (c 2).claims = some claims) (hnonce : claims.nonce = row.nonce)
    (hactor : mapActor config claims = .ok actor)
    (hsession : sessionRow (opened config actor c) = some session)
    (hfree : s.sessions (opened config actor c).sessionHash = none) :
    supplied (service config) [c 0, c 1, c 2, c 3, c 4, c 5, c 6, c 7]
        (completeLogin config state code browserBinding) s =
      (.pure (.session ⟨token ((c 3).random 32).1, token ((c 4).random 24).1, actor,
        (opened config actor c).expiresAt, row.returnTo⟩),
        { logins := Function.update s.logins (hash state) none
          sessions := Function.update s.sessions (opened config actor c).sessionHash (some session) }) := by
  have hcreate := @createSession_of_free _ _
    { s with logins := Function.update s.logins (hash state) none } hsession hfree
  have hsafe : safeEqual row.browserBindingHash (hash browserBinding) = true := by
    simp [safeEqual, hbound]
  simp only [opened] at hcreate
  simp [supplied, completeLogin, Prog.perform, bind, Prog.bind, service, perform, consumeLogin, hlogin,
    checkLogin, hsafe, exchangeLogin, not_le.mpr hnow, hclaims, openSession, hnonce, hactor, insertSession,
    hcreate, pure, opened]

/-- A login that is not there is refused. -/
theorem completeLogin_refused {state browserBinding : JsString} {u : Supplies}
    (hlogin : s.logins (hash state) = none) :
    supplied (service config) [u] (completeLogin config state code browserBinding) s =
      (.throw (.identity (js "OIDC_STATE_INVALID") (js "Login state is invalid or already used.")), s) := by
  have hsame : Function.update s.logins (hash state) none = s.logins := by
    rw [← hlogin, Function.update_eq_self]
  simp [supplied, completeLogin, Prog.perform, bind, Prog.bind, service, perform, consumeLogin, hlogin,
    hsame]

section Authenticate

variable {sessionId : JsString} {csrfToken : Option JsString} {mutation : Bool} {session : SessionRow}
  {d₀ d₁ : Supplies}

theorem authenticateSession_supplied (hsession : s.sessions (hash sessionId) = some session)
    (hopen : session.open d₀.databaseNow = true) :
    supplied (service config) [d₀, d₁] (authenticateSession sessionId csrfToken mutation) s =
      (.pure (.actor (authenticatedActor (mapSession (hash sessionId)
        { session with lastSeenAt := d₀.databaseNow }) csrfToken mutation d₁.now)),
        { s with sessions := Function.update s.sessions (hash sessionId)
                  (some { session with lastSeenAt := d₀.databaseNow }) }) := by
  simp [supplied, authenticateSession, Prog.perform, bind, Prog.bind, service, perform, getSession,
    hsession, hopen, pure]

/-- A revoked session answers no more. -/
theorem authenticateSession_revoked (hsession : s.sessions (hash sessionId) = some session)
    (hrevoked : session.revokedAt.isNone = false) :
    supplied (service config) [d₀, d₁] (authenticateSession sessionId csrfToken mutation) s =
      (.pure (.actor none), s) := by
  simp [supplied, authenticateSession, Prog.perform, bind, Prog.bind, service, perform, getSession,
    hsession, SessionRow.open, hrevoked, pure]

theorem revokeSession_supplied (hsession : s.sessions (hash sessionId) = some session)
    (hopen : session.revokedAt = none) :
    supplied (service config) [d₀] (revokeSession sessionId) s =
      (.pure .revoked,
        { s with sessions := Function.update s.sessions (hash sessionId)
                  (some { session with revokedAt := some d₀.databaseNow }) }) := by
  simp [supplied, revokeSession, Prog.perform, bind, Prog.bind, service, perform, storeRevocation,
    hsession, hopen, pure]

/-- The later life of a session: it answers, is revoked and answers no more. -/
theorem session_life {supplied' : JsString} (hsession : s.sessions (hash sessionId) = some session)
    (hopen : session.revokedAt = none) (hdatabase : d₀.databaseNow < session.expiresAt * 1000)
    (hnow : d₁.now < session.expiresAt) (hcsrf : session.csrfHash = hash supplied')
    (hne : supplied' ≠ []) :
    ∃ s' s'', supplied (service config) [d₀, d₁]
        (authenticateSession sessionId (some supplied') mutation) s =
          (.pure (.actor (some session.actorJson)), s') ∧
      supplied (service config) [d₀] (revokeSession sessionId) s' = (.pure .revoked, s'') ∧
      ∀ u u' csrfToken mutation, supplied (service config) [u, u']
        (authenticateSession sessionId csrfToken mutation) s'' = (.pure (.actor none), s'') := by
  have hrow : session.open d₀.databaseNow = true := by
    simp [SessionRow.open, hopen, hdatabase]
  have hactor : authenticatedActor (mapSession (hash sessionId)
      { session with lastSeenAt := d₀.databaseNow }) (some supplied') mutation d₁.now =
        some session.actorJson := by
    simp [authenticatedActor, mapSession, not_le.mpr hnow, hne, safeEqual, hcsrf]
  have hauthenticate := @authenticateSession_supplied config s sessionId (some supplied') mutation
    session d₀ d₁ hsession hrow
  rw [hactor] at hauthenticate
  refine ⟨_, _, hauthenticate, revokeSession_supplied (Function.update_self ..) hopen, ?_⟩
  exact fun u u' csrfToken mutation => authenticateSession_revoked (Function.update_self ..) rfl

end Authenticate

end Alone

theorem sessionRow_opened {config : OidcServiceConfig} {c : Nat → Supplies} {actor : Actor}
    {json : JsValue} (h : jsonbColumn actor.value = some json) :
    ∃ session, sessionRow (opened config actor c) = some session ∧
      session.csrfHash = hash (token ((c 4).random 24).1) ∧
      session.expiresAt = (opened config actor c).expiresAt ∧ session.actorJson = json ∧
      session.revokedAt = none := by
  have hactor : (opened config actor c).actor = actor := rfl
  have hdigests : isSha256 (opened config actor c).sessionHash = true ∧
      isSha256 (opened config actor c).csrfHash = true := ⟨isSha256_hash _, isSha256_hash _⟩
  refine ⟨⟨(opened config actor c).csrfHash, json, (opened config actor c).createdAt,
    (opened config actor c).expiresAt, (opened config actor c).lastSeenAt * 1000, none⟩, ?_,
    rfl, rfl, rfl, rfl⟩
  simp only [sessionRow, hdigests, Bool.and_self, if_true, hactor, h, Option.bind_eq_bind,
    Option.bind_some]
  rfl

/-- What a login needs: unused tokens, texts that the columns accept, an answer of the provider with
the nonce and a role, and clocks that have not passed the expiry. -/
structure Accepted (config : OidcServiceConfig) (s : Db) (returnTo endpoint redirectUri path : JsString)
    (b c : Nat → Supplies) (d₀ d₁ : Supplies) (claims : IdentityClaims) (actor : Actor) (json : JsValue) :
    Prop where
  freshLogin : s.logins (hash (drawn b).state) = none
  freshSession : s.sessions (opened config actor c).sessionHash = none
  redirect : textColumn config.redirectUri = some redirectUri
  returns : textColumn (safeReturn config returnTo) = some path
  provider : (b 6).endpoint = some endpoint
  inTime : (c 1).now < (b 4).now + config.loginLifetimeMs.getD 300000
  exchanged : (c 2).claims = some claims
  withNonce : claims.nonce = (drawn b).nonce
  mapped : mapActor config claims = .ok actor
  stored : jsonbColumn actor.value = some json
  databaseTime : d₀.databaseNow < (opened config actor c).expiresAt * 1000
  serviceTime : d₁.now < (opened config actor c).expiresAt

/-- The calls of a login one after the other: it begins, it completes and cannot be completed again,
its session answers, is revoked and answers no more. -/
structure RoundTrip (config : OidcServiceConfig) (s s₁ s₂ s₃ s₄ : Db)
    (returnTo code endpoint path : JsString) (b c : Nat → Supplies) (d₀ d₁ : Supplies)
    (mutation : Bool) (actor : Actor) (json : JsValue) (result : OidcSessionResult) : Prop where
  begun : supplied (service config) [b 0, b 1, b 2, b 3, b 4, b 5, b 6] (beginLogin config returnTo) s =
    (.pure (.login ⟨authorizationUrl config (drawn b) endpoint, (drawn b).browserBinding⟩), s₁)
  completed : supplied (service config) [c 0, c 1, c 2, c 3, c 4, c 5, c 6, c 7]
    (completeLogin config (drawn b).state code (drawn b).browserBinding) s₁ =
      (.pure (.session result), s₂)
  actor : result.actor = actor
  returnTo : result.returnTo = path
  replayed : ∀ u code' browserBinding, supplied (service config) [u]
    (completeLogin config (drawn b).state code' browserBinding) s₂ =
      (.throw (.identity (js "OIDC_STATE_INVALID") (js "Login state is invalid or already used.")), s₂)
  authenticated : supplied (service config) [d₀, d₁]
    (authenticateSession result.sessionId (some result.csrfToken) mutation) s₂ =
      (.pure (.actor (some json)), s₃)
  revoked : supplied (service config) [d₀] (revokeSession result.sessionId) s₃ = (.pure .revoked, s₄)
  refused : ∀ u u' csrfToken mutation, supplied (service config) [u, u']
    (authenticateSession result.sessionId csrfToken mutation) s₄ = (.pure (.actor none), s₄)

/-- A login that is accepted completes once; its session answers with the actor of the claims until
it is revoked, and nobody afterwards. -/
theorem login_round_trip (config : OidcServiceConfig) (s : Db)
    (returnTo code endpoint redirectUri path : JsString) (b c : Nat → Supplies) (d₀ d₁ : Supplies)
    (mutation : Bool) (claims : IdentityClaims) (actor : Actor) (json : JsValue)
    (h : Accepted config s returnTo endpoint redirectUri path b c d₀ d₁ claims actor json) :
    ∃ s₁ s₂ s₃ s₄ result, RoundTrip config s s₁ s₂ s₃ s₄ returnTo code endpoint path b c d₀ d₁
      mutation actor json result := by
  have hrow := @loginRow_transaction config returnTo redirectUri path (drawn b) (b 4).now
    (plain_token _) (plain_token _) h.redirect h.returns
  obtain ⟨session, hsession, hcsrf, hexpires, hjson, hopen⟩ :=
    @sessionRow_opened config c actor json h.stored
  have hne : ((c 4).random 24).1 ≠ [] := by
    intro hnil
    have hlength := ((c 4).random 24).2
    rw [hnil] at hlength
    cases hlength
  have hbegin := beginLogin_supplied h.freshLogin hrow h.provider
  have hcomplete := @completeLogin_supplied config
    { s with logins := Function.update s.logins (hash (drawn b).state)
              (some { loginTransaction config returnTo (drawn b) (b 4).now with
                redirectUri, returnTo := path }) }
    code c _ (drawn b).state (drawn b).browserBinding claims actor session (Function.update_self ..)
    rfl h.inTime h.exchanged h.withNonce h.mapped hsession h.freshSession
  generalize hs₂ : (⟨_, Function.update s.sessions _ (some session)⟩ : Db) = s₂ at hcomplete
  have hfound : s₂.sessions (hash (token ((c 3).random 32).1)) = some session := by
    rw [← hs₂]
    exact Function.update_self ..
  have hgone : s₂.logins (hash (drawn b).state) = none := by
    rw [← hs₂]
    exact Function.update_self ..
  obtain ⟨s₃, s₄, hauthenticated, hrevoked, hrefused⟩ :=
    @session_life config s₂ (token ((c 3).random 32).1) mutation session d₀ d₁ _ hfound hopen
      (hexpires ▸ h.databaseTime) (hexpires ▸ h.serviceTime) hcsrf (token_ne_nil hne)
  rw [hjson] at hauthenticated
  exact ⟨_, s₂, s₃, s₄, _, hbegin, hcomplete, rfl, rfl, fun u code' browserBinding =>
    completeLogin_refused hgone, hauthenticated, hrevoked, hrefused⟩

/-! ## One login -/

def sampleConfig : OidcServiceConfig where
  clientId := js "trust"
  redirectUri := js "https://t/cb"
  sessionLifetimeMs := none
  loginLifetimeMs := none
  allowedReturnPaths := none
  roleMap := none

def sampleClaims : IdentityClaims where
  subject := js "s"
  issuer := js "i"
  displayName := js "n"
  email := none
  roles := [js "owner"]
  workspaceIds := [js "w"]
  nonce := token (List.replicate 32 0)

def sampleActor : Actor where
  id := js "i#s"
  displayName := js "n"
  roles := [.mapped (js "owner")]
  workspaceIds := [js "w"]

/-- Every statement has the same supplies. -/
def sampleSupplies : Supplies where
  now := 0
  databaseNow := 0
  random size := ⟨List.replicate size 0, List.length_replicate⟩
  endpoint := some (js "https://i")
  claims := some sampleClaims

theorem sample_texts : (textColumn sampleConfig.redirectUri = some sampleConfig.redirectUri ∧
    textColumn (safeReturn sampleConfig (js "/")) = some (js "/")) ∧
    jsonbAccepts sampleActor.value = true := by decide +kernel

theorem sample_actor : mapActor sampleConfig sampleClaims = .ok sampleActor := rfl

theorem accepted_sample : Accepted sampleConfig Db.empty (js "/") (js "https://i")
    sampleConfig.redirectUri (js "/") (fun _ => sampleSupplies) (fun _ => sampleSupplies) sampleSupplies
    sampleSupplies sampleClaims sampleActor (sortKeys jsonbOrder sampleActor.value) where
  freshLogin := rfl
  freshSession := rfl
  redirect := sample_texts.1.1
  returns := sample_texts.1.2
  provider := rfl
  inTime := by decide
  exchanged := rfl
  withNonce := rfl
  mapped := sample_actor
  stored := if_pos sample_texts.2
  databaseTime := by decide
  serviceTime := by decide

theorem login_round_trip_sample : ∃ s₁ s₂ s₃ s₄ result, RoundTrip sampleConfig Db.empty s₁ s₂ s₃ s₄
    (js "/") (js "code") (js "https://i") (js "/") (fun _ => sampleSupplies) (fun _ => sampleSupplies)
    sampleSupplies sampleSupplies true sampleActor (sortKeys jsonbOrder sampleActor.value) result :=
  login_round_trip _ _ _ _ _ _ _ _ _ _ _ _ _ _ _ accepted_sample

/-- Three sessions of the service: a login begins, completes and answers. -/
theorem sample_run : ∃ (w : IdentityWorld Nat) (log : Log Nat) (c : Call) (result : OidcSessionResult)
    (json : JsValue), Run sampleConfig w log ∧ w.sessions 1 = .returned c (.session result) ∧
      w.sessions 2 = .returned (.authenticateSession result.sessionId (some result.csrfToken) true)
        (.actor (some json)) := by
  obtain ⟨s₁, s₂, s₃, s₄, result, h⟩ := @login_round_trip sampleConfig Db.empty (js "/") (js "code")
    (js "https://i") _ _ _ _ _ _ true _ _ _ accepted_sample
  have hinit : Run sampleConfig (⟨Db.empty, fun _ => .idle⟩ : IdentityWorld Nat) [] :=
    .init ⟨⟨rfl, fun _ => rfl⟩, rfl⟩
  obtain ⟨w₁, log₁, h₁, hdb₁, -, hidle₁⟩ := @exists_call _ _ _ _ _ _ _ _ _ _ 0 _ _ _
    (.beginLogin (js "/")) _ _ hinit rfl _ h.begun
  have hcompleted := h.completed
  rw [← hdb₁] at hcompleted
  obtain ⟨w₂, log₂, h₂, hdb₂, hi₂, hidle₂⟩ := @exists_call _ _ _ _ _ _ _ _ _ _ 1 _ _ _
    (.completeLogin _ (js "code") _) _ _ h₁ (hidle₁ 1 (by decide)) _ hcompleted
  have hauthenticated := h.authenticated
  rw [← hdb₂] at hauthenticated
  obtain ⟨w₃, log₃, h₃, -, hi₃, hsame₃⟩ := @exists_call _ _ _ _ _ _ _ _ _ _ 2 _ _ _
    (.authenticateSession result.sessionId (some result.csrfToken) true) _ _ h₂
    ((hidle₂ 2 (by decide)).trans (hidle₁ 2 (by decide))) _ hauthenticated
  exact ⟨w₃, _, _, result, _, h₃, (hsame₃ 1 (by decide)).trans hi₂, hi₃⟩

theorem sessions_of_logins_sample : ∃ (w : IdentityWorld Nat) (log : Log Nat) (n i m : Nat)
    (v : IdentitySessionRecord Actor) (x : Chain), Run sampleConfig w log ∧
      x.Leads sampleConfig log i n v ∧ x.SavedAt log m := by
  obtain ⟨w, log, c, result, json, hrun, hi, -⟩ := sample_run
  obtain ⟨n, u, v, hat⟩ := created_of_returned (transcript_of_run hrun) hi
  obtain ⟨chain, saved, hall, -⟩ := sessions_of_logins sampleConfig w log hrun
  obtain ⟨-, hx, hm, -⟩ := hall n 1 u v true hat
  exact ⟨w, log, n, 1, saved n, v, chain n, hrun, hx, hm⟩

theorem actor_of_session_sample : ∃ (w : IdentityWorld Nat) (log : Log Nat) (sessionId : JsString)
    (n j : Nat) (u : Supplies) (v : IdentitySessionRecord Actor), Run sampleConfig w log ∧
      log[n]? = some ⟨j, u, .createSession v, true⟩ ∧ v.sessionHash = hash sessionId := by
  obtain ⟨w, log, c, result, json, hrun, -, hi⟩ := sample_run
  obtain ⟨n, g, d, j, u, ug, ud, v, record, now, -, -, hat, -, -, hkey, -⟩ :=
    actor_of_session sampleConfig w log hrun 2 _ _ _ _ hi
  exact ⟨w, log, _, n, j, u, v, hrun, hat, hkey⟩

theorem returnTo_safe_sample : ∃ (w : IdentityWorld Nat) (c : Call) (result : OidcSessionResult),
    w.sessions 1 = .returned c (.session result) ∧ IsPath result.returnTo := by
  obtain ⟨w, log, c, result, json, hrun, hi, -⟩ := sample_run
  exact ⟨w, c, result, hi, (returnTo_safe sampleConfig w log hrun 1 c result hi).1⟩

end TrustCore.Identity
