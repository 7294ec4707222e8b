import TrustCore.ArchiveVerify
import TrustCore.Columns
import TrustCore.OutboxHandlers
import TrustCore.Transcripts

/-!
# Logins and sessions of the identity service

`OidcIdentityService` over `PostgresIdentityStore`. A login is saved under the digest of its state,
and the one statement that deletes it also returns it. Then come checks, the exchange with the
identity provider and the insertion of a session under the digest of its id. Whatever the calls, their
arguments and their interleaving, each saved login leads to at most one session, and a session answers
only until it is revoked or has expired.
-/

namespace TrustCore.Identity

open TrustCore.Utf TrustCore.Json TrustCore.Columns TrustCore.Runs TrustCore.Sessions
open TrustCore.Transcripts
open TrustCore.ArchiveVerify (encodeBase64)
open TrustCore.Programs (Prog)
open TrustCore.Sha256 (sha256 isSha256 isSha256_sha256 isWellFormed_of_isSha256 digestWords)

/-! ## The service -/

structure IdentityClaims where
  subject : JsString
  issuer : JsString
  displayName : JsString
  email : Option JsString
  roles : List JsString
  workspaceIds : List JsString
  nonce : JsString

/-- Instants are milliseconds since 1970. -/
structure LoginTransaction where
  stateHash : JsString
  browserBindingHash : JsString
  nonce : JsString
  codeVerifier : JsString
  redirectUri : JsString
  returnTo : JsString
  expiresAt : Int

/-- What `roleMap[role]` finds: a role, or what every object inherits. -/
inductive RoleValue where
  | mapped (role : JsString)
  | inherited (name : JsString)
  deriving DecidableEq

structure Actor where
  id : JsString
  displayName : JsString
  roles : List RoleValue
  workspaceIds : List JsString

/-- `A` is what holds the actor: a value of the service, or one read from the database. -/
structure IdentitySessionRecord (A : Type) where
  sessionHash : JsString
  csrfHash : JsString
  actor : A
  createdAt : Int
  expiresAt : Int
  lastSeenAt : Int

structure OidcServiceConfig where
  clientId : JsString
  redirectUri : JsString
  sessionLifetimeMs : Option Int
  loginLifetimeMs : Option Int
  allowedReturnPaths : Option (List JsString)
  roleMap : Option (List (JsString × JsString))

structure ExchangeInput where
  code : JsString
  codeVerifier : JsString
  redirectUri : JsString
  expectedNonce : JsString

/-- The endpoint, and the parameters that replace its query. -/
structure AuthorizationUrl where
  endpoint : JsString
  search : List (JsString × JsString)

structure OidcLoginResult where
  authorizationUrl : AuthorizationUrl
  browserBinding : JsString

structure OidcSessionResult where
  sessionId : JsString
  csrfToken : JsString
  actor : Actor
  expiresAt : Int
  returnTo : JsString

inductive Failure where
  | identity (code message : JsString)
  | database
  | provider

inductive Stmt where
  | now
  | randomBytes (size : Nat)
  | saveLogin (value : LoginTransaction)
  | authorizationEndpoint
  | consumeLogin (stateHash : JsString)
  | exchangeCode (input : ExchangeInput)
  | createSession (value : IdentitySessionRecord Actor)
  | getSession (sessionHash : JsString)
  | revokeSession (sessionHash : JsString)

/-- An insertion tells whether it was accepted; the provider may have no answer. -/
abbrev Stmt.Result : Stmt → Type
  | .now => Int
  | .randomBytes size => { bs : Bytes // bs.length = size }
  | .saveLogin _ => Bool
  | .authorizationEndpoint => Option JsString
  | .consumeLogin _ => Option LoginTransaction
  | .exchangeCode _ => Option IdentityClaims
  | .createSession _ => Bool
  | .getSession _ => Option (IdentitySessionRecord JsValue)
  | .revokeSession _ => Unit

abbrev IdentityProg (α : Type) := Prog Stmt Stmt.Result Failure α

def base64Url (bs : Bytes) : JsString :=
  (encodeBase64 bs).filterMap fun u =>
    if u = 61 then none else some (if u = 43 then 45 else if u = 47 then 95 else u)

def digestBytes (bs : Bytes) : Bytes :=
  (digestWords bs).flatMap fun word =>
    [.ofNat (word >>> 24), .ofNat (word >>> 16), .ofNat (word >>> 8), .ofNat word]

def hash (value : JsString) : JsString := sha256 (textEncode value)

def base64Hash (value : JsString) : JsString := base64Url (digestBytes (textEncode value))

def safeEqual (a b : JsString) : Bool := decide (textEncode a = textEncode b)

def safeReturn (config : OidcServiceConfig) (value : JsString) : JsString :=
  let allowed := config.allowedReturnPaths.getD [js "/"]
  if !(js "/").isPrefixOf value || (js "//").isPrefixOf value ||
      !allowed.any (fun path => value == path || (path ++ js "/").isPrefixOf value) then
    js "/"
  else value

/-- The first of each of the values, in order. -/
def newSet {α : Type} [DecidableEq α] (values : List α) : List α := values.reverse.dedup.reverse

/-- `roleMap[role]`, where it is truthy. -/
def lookupRole (roleMap : List (JsString × JsString)) (role : JsString) : Option RoleValue :=
  match roleMap.lookup role with
  | some value => if value = [] then none else some (.mapped value)
  | none => if role ∈ Outbox.inheritedNames then some (.inherited role) else none

def defaultRoleMap : List (JsString × JsString) :=
  [js "owner", js "admin", js "editor", js "recovery_operator", js "auditor"].map fun role =>
    (role, role)

def mapActor (config : OidcServiceConfig) (claims : IdentityClaims) : Except Failure Actor :=
  let roleMap := config.roleMap.getD defaultRoleMap
  let roles := newSet (claims.roles.filterMap (lookupRole roleMap))
  if roles = [] ∨ claims.workspaceIds = [] then
    .error (.identity (js "OIDC_CLAIMS_DENIED")
      (js "Identity has no permitted Trust Core role or workspace."))
  else
    .ok { id := claims.issuer ++ js "#" ++ claims.subject
          displayName := claims.displayName
          roles
          workspaceIds := newSet claims.workspaceIds }

structure LoginTokens where
  state : JsString
  browserBinding : JsString
  nonce : JsString
  codeVerifier : JsString

def loginTransaction (config : OidcServiceConfig) (returnTo : JsString) (tokens : LoginTokens)
    (now : Int) : LoginTransaction where
  stateHash := hash tokens.state
  browserBindingHash := hash tokens.browserBinding
  nonce := tokens.nonce
  codeVerifier := tokens.codeVerifier
  redirectUri := config.redirectUri
  returnTo := safeReturn config returnTo
  expiresAt := now + config.loginLifetimeMs.getD 300000

def authorizationUrl (config : OidcServiceConfig) (tokens : LoginTokens) (endpoint : JsString) :
    AuthorizationUrl where
  endpoint
  search :=
    [(js "response_type", js "code"), (js "client_id", config.clientId),
      (js "redirect_uri", config.redirectUri), (js "scope", js "openid profile email"),
      (js "state", tokens.state), (js "nonce", tokens.nonce),
      (js "code_challenge", base64Hash tokens.codeVerifier), (js "code_challenge_method", js "S256")]

def token (bs : Bytes) : JsString := base64Url bs

inductive Answer where
  | login (result : OidcLoginResult)
  | session (result : OidcSessionResult)
  | actor (actor : Option JsValue)
  | revoked

def beginLogin (config : OidcServiceConfig) (returnTo : JsString) : IdentityProg Answer := do
  let state ← Prog.perform (Stmt.randomBytes 32)
  let browserBinding ← Prog.perform (Stmt.randomBytes 32)
  let nonce ← Prog.perform (Stmt.randomBytes 32)
  let codeVerifier ← Prog.perform (Stmt.randomBytes 48)
  let now ← Prog.perform Stmt.now
  let tokens : LoginTokens :=
    ⟨token state.1, token browserBinding.1, token nonce.1, token codeVerifier.1⟩
  match ← Prog.perform (Stmt.saveLogin (loginTransaction config returnTo tokens now)) with
  | false => Prog.throw .database
  | true =>
    match ← Prog.perform Stmt.authorizationEndpoint with
    | none => Prog.throw .provider
    | some endpoint =>
      return .login ⟨authorizationUrl config tokens endpoint, tokens.browserBinding⟩

/-- The end of `completeLogin`, at the two readings of the clock. -/
def insertSession (config : OidcServiceConfig) (transaction : LoginTransaction) (actor : Actor)
    (sessionId csrfToken : JsString) (createdAt now : Int) : IdentityProg Answer := do
  let expiresAt := now + config.sessionLifetimeMs.getD 1800000
  match ← Prog.perform (Stmt.createSession
    { sessionHash := hash sessionId
      csrfHash := hash csrfToken
      actor, createdAt, expiresAt
      lastSeenAt := createdAt }) with
  | false => Prog.throw .database
  | true => return .session ⟨sessionId, csrfToken, actor, expiresAt, transaction.returnTo⟩

/-- The rest of `completeLogin` once the provider has answered. -/
def openSession (config : OidcServiceConfig) (transaction : LoginTransaction)
    (claims : IdentityClaims) : IdentityProg Answer :=
  if claims.nonce ≠ transaction.nonce then
    Prog.throw (.identity (js "OIDC_NONCE_INVALID") (js "Identity nonce validation failed."))
  else
    match mapActor config claims with
    | .error e => Prog.throw e
    | .ok actor => do
      let sessionId ← Prog.perform (Stmt.randomBytes 32)
      let csrfToken ← Prog.perform (Stmt.randomBytes 24)
      let createdAt ← Prog.perform Stmt.now
      let now ← Prog.perform Stmt.now
      insertSession config transaction actor (token sessionId.1) (token csrfToken.1) createdAt now

/-- The rest of `completeLogin` after the check of the browser. -/
def exchangeLogin (config : OidcServiceConfig) (code : JsString) (transaction : LoginTransaction)
    (now : Int) : IdentityProg Answer :=
  if transaction.expiresAt ≤ now then
    Prog.throw (.identity (js "OIDC_STATE_EXPIRED") (js "Login state has expired."))
  else do
    match ← Prog.perform (Stmt.exchangeCode
      ⟨code, transaction.codeVerifier, transaction.redirectUri, transaction.nonce⟩) with
    | none => Prog.throw .provider
    | some claims => openSession config transaction claims

/-- The rest of `completeLogin` once the login is consumed. -/
def checkLogin (config : OidcServiceConfig) (code browserBinding : JsString)
    (transaction : LoginTransaction) : IdentityProg Answer :=
  if !safeEqual transaction.browserBindingHash (hash browserBinding) then
    Prog.throw (.identity (js "OIDC_BROWSER_BINDING_INVALID")
      (js "Login callback did not originate from the initiating browser."))
  else do
    let now ← Prog.perform Stmt.now
    exchangeLogin config code transaction now

def completeLogin (config : OidcServiceConfig) (state code browserBinding : JsString) :
    IdentityProg Answer := do
  match ← Prog.perform (Stmt.consumeLogin (hash state)) with
  | none =>
    Prog.throw (.identity (js "OIDC_STATE_INVALID") (js "Login state is invalid or already used."))
  | some transaction => checkLogin config code browserBinding transaction

/-- The answer of `authenticateSession` for a record, at a reading of the clock. -/
def authenticatedActor (record : IdentitySessionRecord JsValue) (csrfToken : Option JsString)
    (mutation : Bool) (now : Int) : Option JsValue :=
  let supplied := csrfToken.getD []
  if record.expiresAt ≤ now ∨ (mutation ∧ supplied = []) ∨
      (mutation ∧ !safeEqual record.csrfHash (hash supplied)) then none
  else some record.actor

def authenticateSession (sessionId : JsString) (csrfToken : Option JsString) (mutation : Bool) :
    IdentityProg Answer := do
  match ← Prog.perform (Stmt.getSession (hash sessionId)) with
  | none => return .actor none
  | some record =>
    let now ← Prog.perform Stmt.now
    return .actor (authenticatedActor record csrfToken mutation now)

def revokeSession (sessionId : JsString) : IdentityProg Answer := do
  Prog.perform (Stmt.revokeSession (hash sessionId))
  return .revoked

/-! ## The store -/

/-- A row of `identity_sessions`. `lastSeenAt` and `revokedAt` come from the clock of the database, in
microseconds, and so `lastSeenAt` is in microseconds from the start. -/
structure SessionRow where
  csrfHash : JsString
  actorJson : JsValue
  createdAt : Int
  expiresAt : Int
  lastSeenAt : Int
  revokedAt : Option Int

/-- Both tables by their primary keys. -/
structure Db where
  logins : JsString → Option LoginTransaction
  sessions : JsString → Option SessionRow

def Db.empty : Db := ⟨fun _ => none, fun _ => none⟩

/-- What a statement takes from outside the database. -/
structure Supplies where
  now : Int
  databaseNow : Int
  random : (size : Nat) → { bs : Bytes // bs.length = size }
  endpoint : Option JsString
  claims : Option IdentityClaims

/-- The row of a login, unless a column refuses its value. -/
def loginRow (v : LoginTransaction) : Option LoginTransaction :=
  if isSha256 v.stateHash && isSha256 v.browserBindingHash then do
    let nonce ← textColumn v.nonce
    let codeVerifier ← textColumn v.codeVerifier
    let redirectUri ← textColumn v.redirectUri
    let returnTo ← textColumn v.returnTo
    return { v with nonce, codeVerifier, redirectUri, returnTo }
  else none

def saveLogin (v : LoginTransaction) (s : Db) : Bool × Db :=
  match loginRow v, s.logins v.stateHash with
  | some row, none => (true, { s with logins := Function.update s.logins v.stateHash (some row) })
  | _, _ => (false, s)

def consumeLogin (stateHash : JsString) (s : Db) : Option LoginTransaction × Db :=
  (s.logins stateHash, { s with logins := Function.update s.logins stateHash none })

/-- `JSON.stringify` makes `null` of a function in an array, and `\x7b\x7d` of `Object.prototype`. -/
def RoleValue.value : RoleValue → JsValue
  | .mapped role => .string role
  | .inherited name => if name = js "__proto__" then .object [] else .null

def Actor.value (actor : Actor) : JsValue :=
  .object
    [(js "id", .string actor.id), (js "displayName", .string actor.displayName),
      (js "roles", .array (actor.roles.map RoleValue.value)),
      (js "workspaceIds", .array (actor.workspaceIds.map JsValue.string))]

def sessionRow (v : IdentitySessionRecord Actor) : Option SessionRow :=
  if isSha256 v.sessionHash && isSha256 v.csrfHash then do
    let actorJson ← jsonbColumn v.actor.value
    return { csrfHash := v.csrfHash, actorJson, createdAt := v.createdAt, expiresAt := v.expiresAt
             lastSeenAt := v.lastSeenAt * 1000, revokedAt := none }
  else none

def createSession (v : IdentitySessionRecord Actor) (s : Db) : Bool × Db :=
  match sessionRow v, s.sessions v.sessionHash with
  | some row, none => (true, { s with sessions := Function.update s.sessions v.sessionHash (some row) })
  | _, _ => (false, s)

def mapSession (sessionHash : JsString) (row : SessionRow) : IdentitySessionRecord JsValue where
  sessionHash
  csrfHash := row.csrfHash
  actor := row.actorJson
  createdAt := row.createdAt
  expiresAt := row.expiresAt
  lastSeenAt := row.lastSeenAt / 1000

/-- `revoked_at IS NULL AND expires_at>now()`. -/
def SessionRow.open (row : SessionRow) (databaseNow : Int) : Bool :=
  row.revokedAt.isNone && decide (databaseNow < row.expiresAt * 1000)

def getSession (databaseNow : Int) (sessionHash : JsString) (s : Db) :
    Option (IdentitySessionRecord JsValue) × Db :=
  match s.sessions sessionHash with
  | none => (none, s)
  | some row =>
    if row.open databaseNow then
      let row := { row with lastSeenAt := databaseNow }
      (some (mapSession sessionHash row),
        { s with sessions := Function.update s.sessions sessionHash (some row) })
    else (none, s)

def storeRevocation (databaseNow : Int) (sessionHash : JsString) (s : Db) : Db :=
  match s.sessions sessionHash with
  | none => s
  | some row =>
    if row.revokedAt.isNone then
      { s with sessions := Function.update s.sessions sessionHash
                (some { row with revokedAt := some databaseNow }) }
    else s

def perform (supplies : Supplies) : (st : Stmt) → Db → st.Result × Db
  | .now, s => (supplies.now, s)
  | .randomBytes size, s => (supplies.random size, s)
  | .saveLogin v, s => saveLogin v s
  | .authorizationEndpoint, s => (supplies.endpoint, s)
  | .consumeLogin stateHash, s => consumeLogin stateHash s
  | .exchangeCode _, s => (supplies.claims, s)
  | .createSession v, s => createSession v s
  | .getSession sessionHash, s => getSession supplies.databaseNow sessionHash s
  | .revokeSession sessionHash, s => ((), storeRevocation supplies.databaseNow sessionHash s)

inductive Call where
  | beginLogin (returnTo : JsString)
  | completeLogin (state code browserBinding : JsString)
  | authenticateSession (sessionId : JsString) (csrfToken : Option JsString) (mutation : Bool)
  | revokeSession (sessionId : JsString)

def program (config : OidcServiceConfig) : Call → IdentityProg Answer
  | .beginLogin returnTo => beginLogin config returnTo
  | .completeLogin state code browserBinding => completeLogin config state code browserBinding
  | .authenticateSession sessionId csrfToken mutation =>
    authenticateSession sessionId csrfToken mutation
  | .revokeSession sessionId => revokeSession sessionId

def service (config : OidcServiceConfig) : Service Call Supplies Db Stmt Stmt.Result Failure Answer where
  program := program config
  perform := perform

end TrustCore.Identity
