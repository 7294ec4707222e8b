import TrustCore.AuditLog
import TrustCore.ComposedIds
import TrustCore.Policy
import TrustCore.Sessions

/-!
# Policy assignments and their audit events

`createPolicyAssignment` and `revokePolicyAssignment` write the assignment in one transaction and its
audit event in a later one, and both answer at once when the assignment is already in the requested
state. Between the two transactions an assignment is written and not recorded: a call that is cut off
there leaves it so, and a call that finds it so is answered without an event. A revocation that
another one overtakes is recorded twice. In all other runs every answer has exactly one event.
-/

namespace TrustCore.PolicyAssignments

open TrustCore.Utf TrustCore.Json TrustCore.Sha256 TrustCore.Columns TrustCore.AuditChain
open TrustCore.AuditLog TrustCore.ComposedIds TrustCore.Policy TrustCore.Runs TrustCore.Sessions
open TrustCore.Programs (Prog)

/-! ## A `uuid` column -/

/-- The hex digits of the bytes that are left, and what follows them. A hyphen may stand after every
second byte but the last. -/
def uuidDigits : Nat → JsString → Option (JsString × JsString)
  | 0, rest => some ([], rest)
  | n + 1, a :: b :: rest =>
    match hexValue a, hexValue b,
      uuidDigits n (if n % 2 = 0 ∧ n ≠ 0 ∧ rest.head? = some 45 then rest.tail else rest) with
    | some x, some y, some (digits, rest) => some (hexDigit x :: hexDigit y :: digits, rest)
    | _, _, _ => none
  | _ + 1, _ => none

/-- The text of the bytes that are left. -/
def uuidText : Nat → JsString → JsString
  | n + 1, a :: b :: digits =>
    if n = 11 ∨ n = 9 ∨ n = 7 ∨ n = 5 then 45 :: a :: b :: uuidText n digits
    else a :: b :: uuidText n digits
  | _, _ => []

/-- A `uuid` parameter as it is read back; `none` is refused. -/
def uuidColumn : JsString → Option JsString
  | 123 :: text =>
    match uuidDigits 16 text with
    | some (digits, [125]) => some (uuidText 16 digits)
    | _ => none
  | text =>
    match uuidDigits 16 text with
    | some (digits, []) => some (uuidText 16 digits)
    | _ => none

theorem hexValue_lt {u : UInt16} {x : Nat} (h : hexValue u = some x) : x < 16 := by
  unfold hexValue at h
  split_ifs at h
  all_goals
    cases h
    omega

theorem ascii_of_hexValue {u : UInt16} {x : Nat} (h : hexValue u = some x) : u.toNat < 128 := by
  unfold hexValue at h
  split_ifs at h
  all_goals omega

theorem uuidDigits_hex {n : Nat} {s digits rest : JsString}
    (h : uuidDigits n s = some (digits, rest)) :
    digits.length = 2 * n ∧ ∀ u ∈ digits, ∃ x < 16, u = hexDigit x := by
  induction n generalizing s digits with
  | zero =>
    cases h
    simp
  | succ n ih =>
    match s, h with
    | a :: b :: s, h =>
      simp only [uuidDigits] at h
      split at h
      · rename_i x y digits' rest' hx hy hdigits
        simp only [Option.some.injEq, Prod.mk.injEq] at h
        obtain ⟨rfl, rfl⟩ := h
        obtain ⟨hlength, hhex⟩ := ih hdigits
        refine ⟨by simp only [List.length_cons]; omega, ?_⟩
        intro u hu
        rcases List.mem_cons.mp hu with rfl | hu
        · exact ⟨x, hexValue_lt hx, rfl⟩
        rcases List.mem_cons.mp hu with rfl | hu
        · exact ⟨y, hexValue_lt hy, rfl⟩
        · exact hhex u hu
      · cases h

theorem hexDigit_ne {x : Nat} (h : x < 16) : hexDigit x ≠ 45 ∧ hexDigit x ≠ 123 := by
  revert x
  decide

theorem head_uuidText {n : Nat} {digits : JsString} (hlength : digits.length = 2 * n)
    (hhex : ∀ u ∈ digits, ∃ x < 16, u = hexDigit x) :
    (uuidText n digits).head? = some 45 ↔ n = 12 ∨ n = 10 ∨ n = 8 ∨ n = 6 := by
  match n, digits, hlength, hhex with
  | 0, digits, _, _ => simp [uuidText]
  | n + 1, a :: b :: digits, _, hhex =>
    obtain ⟨x, hx, rfl⟩ := hhex a (by simp)
    by_cases hgroup : n = 11 ∨ n = 9 ∨ n = 7 ∨ n = 5
    · rw [uuidText, if_pos hgroup]
      exact iff_of_true rfl (by omega)
    · rw [uuidText, if_neg hgroup, List.head?_cons, Option.some.injEq]
      exact iff_of_false (hexDigit_ne hx).1 (by omega)

/-- What is printed is read again. -/
theorem uuidDigits_uuidText {n : Nat} {digits : JsString} (hn : n ≤ 16)
    (hlength : digits.length = 2 * n) (hhex : ∀ u ∈ digits, ∃ x < 16, u = hexDigit x) :
    uuidDigits n (if n = 12 ∨ n = 10 ∨ n = 8 ∨ n = 6 then (uuidText n digits).tail
      else uuidText n digits) = some (digits, []) := by
  induction n generalizing digits with
  | zero =>
    rw [List.length_eq_zero_iff.mp hlength]
    rfl
  | succ n ih =>
    match digits, hlength, hhex with
    | a :: b :: digits, hlength, hhex =>
      obtain ⟨x, hx, rfl⟩ := hhex a (by simp)
      obtain ⟨y, hy, rfl⟩ := hhex b (by simp)
      have hlength' : digits.length = 2 * n := by
        simp only [List.length_cons] at hlength
        omega
      have hnext := ih (by omega) hlength' fun u hu => hhex u (by simp [hu])
      have hplain : (if n + 1 = 12 ∨ n + 1 = 10 ∨ n + 1 = 8 ∨ n + 1 = 6 then
          (uuidText (n + 1) (hexDigit x :: hexDigit y :: digits)).tail
          else uuidText (n + 1) (hexDigit x :: hexDigit y :: digits)) =
          hexDigit x :: hexDigit y :: uuidText n digits := by
        by_cases hgroup : n = 11 ∨ n = 9 ∨ n = 7 ∨ n = 5
        · rw [if_pos (by omega), uuidText, if_pos hgroup, List.tail_cons]
        · rw [if_neg (by omega), uuidText, if_neg hgroup]
      have hhyphen : (if n % 2 = 0 ∧ n ≠ 0 ∧ (uuidText n digits).head? = some 45 then
          (uuidText n digits).tail else uuidText n digits) =
          if n = 12 ∨ n = 10 ∨ n = 8 ∨ n = 6 then (uuidText n digits).tail
          else uuidText n digits := by
        have hhead := head_uuidText hlength' fun u hu => hhex u (by simp [hu])
        by_cases hgroup : n = 12 ∨ n = 10 ∨ n = 8 ∨ n = 6
        · rw [if_pos ⟨by omega, by omega, hhead.mpr hgroup⟩, if_pos hgroup]
        · rw [if_neg fun h => hgroup (hhead.mp h.2.2), if_neg hgroup]
      rw [hplain, uuidDigits, hexValue_hexDigit x hx, hexValue_hexDigit y hy, hhyphen, hnext]

/-- What a `uuid` column gives back it gives back again. -/
theorem uuidColumn_hex {s t : JsString} (h : uuidColumn s = some t) :
    ∃ digits, t = uuidText 16 digits ∧ digits.length = 2 * 16 ∧
      ∀ u ∈ digits, ∃ x < 16, u = hexDigit x := by
  unfold uuidColumn at h
  split at h
  all_goals
    split at h
    · rename_i hdigits
      cases h
      exact ⟨_, rfl, uuidDigits_hex hdigits⟩
    · cases h

theorem uuidColumn_idem {s t : JsString} (h : uuidColumn s = some t) : uuidColumn t = some t := by
  obtain ⟨digits, rfl, hlength, hhex⟩ := uuidColumn_hex h
  have hagain := uuidDigits_uuidText (le_refl 16) hlength hhex
  rw [if_neg (by omega)] at hagain
  have hopen : ∀ text, uuidText 16 digits ≠ 123 :: text := by
    match digits, hlength, hhex with
    | a :: b :: digits, _, hhex =>
      obtain ⟨x, hx, rfl⟩ := hhex a (by simp)
      intro text hsame
      rw [uuidText, if_neg (by omega), List.cons.injEq] at hsame
      exact (hexDigit_ne hx).2 hsame.1
  rw [uuidColumn.eq_2 _ hopen, hagain]

theorem ascii_of_uuidDigits {n : Nat} {s digits rest : JsString}
    (h : uuidDigits n s = some (digits, rest)) : ∀ u ∈ s, u.toNat < 128 ∨ u ∈ rest := by
  induction n generalizing s digits with
  | zero =>
    cases h
    exact fun u hu => Or.inr hu
  | succ n ih =>
    match s, h with
    | a :: b :: s, h =>
      simp only [uuidDigits] at h
      split at h
      · rename_i x y digits' rest' hx hy hdigits
        simp only [Option.some.injEq, Prod.mk.injEq] at h
        obtain ⟨-, rfl⟩ := h
        intro u hu
        rcases List.mem_cons.mp hu with rfl | hu
        · exact Or.inl (ascii_of_hexValue hx)
        rcases List.mem_cons.mp hu with rfl | hu
        · exact Or.inl (ascii_of_hexValue hy)
        split at hdigits
        · rename_i hhyphen
          match s, hu, hhyphen, hdigits with
          | v :: s, hu, hhyphen, hdigits =>
            rcases List.mem_cons.mp hu with rfl | hu
            · have h45 : u = 45 := by simpa using hhyphen.2.2
              exact Or.inl (h45 ▸ by decide)
            · exact ih hdigits u hu
        · exact ih hdigits u hu
      · cases h

theorem isWellFormed_uuid {s t : JsString} (h : uuidColumn s = some t) : isWellFormed s = true := by
  apply isWellFormed_ascii
  unfold uuidColumn at h
  split at h
  · split at h
    · rename_i text digits hdigits
      intro u hu
      rcases List.mem_cons.mp hu with rfl | hu
      · decide
      · rcases ascii_of_uuidDigits hdigits u hu with hascii | hrest
        · exact hascii
        · rw [List.mem_singleton.mp hrest]
          decide
    · cases h
  · split at h
    · rename_i hdigits
      intro u hu
      rcases ascii_of_uuidDigits hdigits u hu with hascii | hrest
      · exact hascii
      · cases hrest
    · cases h

/-! ## The commands -/

def principalTypeText : PrincipalType → JsString
  | .user => js "user"
  | .service => js "service"
  | .application => js "application"

def scopeKindText : ScopeKind → JsString
  | .workspace => js "workspace"
  | .dataset => js "dataset"
  | .application => js "application"

/-- A row of `policy_assignments`, and what `mapPolicy` makes of it. -/
structure PolicyAssignment where
  id : JsString
  workspaceId : JsString
  principalType : PrincipalType
  principalId : JsString
  role : JsString
  scopeKind : ScopeKind
  scopeId : JsString
  createdBy : JsString
  createdAt : Instant
  revokedAt : Option Instant
  deriving DecidableEq

structure Catalog where
  policyAssignments : List PolicyAssignment
  auditEvents : Table

/-- The actor of a command, with the fields that the commands read. -/
structure Actor where
  id : JsString
  principalType : Option ActorType

structure CreatePolicyAssignmentCommand where
  workspaceId : WorkspaceId
  principalType : PrincipalType
  principalId : JsString
  role : JsString
  scopeKind : ScopeKind
  scopeId : JsString
  idempotencyKey : JsString

structure RevokePolicyAssignmentCommand where
  workspaceId : WorkspaceId
  idempotencyKey : JsString

inductive CommandError where
  | coded (code message : JsString)
  | database

inductive Stmt where
  | listPolicyAssignments (workspaceId : JsString)
  | getPolicyAssignment (workspaceId assignmentId : JsString)
  | createPolicyAssignment (assignment : PolicyAssignment)
  | revokePolicyAssignment (workspaceId assignmentId : JsString) (revokedAt : Instant)
  | recordPolicyAssignmentChange (input : PolicyAssignmentChange)
  | clock

abbrev Stmt.Result : Stmt → Type
  | .listPolicyAssignments _ => List PolicyAssignment
  | .getPolicyAssignment _ _ => Except CommandError (Option PolicyAssignment)
  | .createPolicyAssignment _ => Except CommandError PolicyAssignment
  | .revokePolicyAssignment _ _ _ => Except CommandError Unit
  | .recordPolicyAssignmentChange _ => Except CommandError Unit
  | .clock => Instant

abbrev CommandProg (α : Type) := Prog Stmt Stmt.Result CommandError α

/-- What a statement takes from outside the database. -/
structure Supplies where
  now : Instant
  randomUUID : JsString

/-- `SELECT * … WHERE workspace_id=$1 AND revoked_at IS NULL ORDER BY created_at,id`. -/
def listPolicyAssignments (s : Catalog) (workspaceId : JsString) : List PolicyAssignment :=
  (s.policyAssignments.filter fun row =>
    row.workspaceId == workspaceId && row.revokedAt.isNone).insertionSort
      fun a b => before a.createdAt a.id b.createdAt b.id = true

/-- `WHERE workspace_id=$1 AND id=$2`. -/
def ofId (workspaceId id : JsString) (row : PolicyAssignment) : Bool :=
  row.workspaceId == workspaceId && row.id == id

def getPolicyAssignment (s : Catalog) (workspaceId assignmentId : JsString) :
    Except CommandError (Option PolicyAssignment) :=
  match uuidColumn assignmentId with
  | none => .error .database
  | some id => .ok (s.policyAssignments.find? (ofId workspaceId id))

/-- The unique index over the assignments that are in force. -/
def sameActive (row row' : PolicyAssignment) : Bool :=
  row.revokedAt.isNone && row'.revokedAt.isNone && row.workspaceId == row'.workspaceId &&
    row.principalType == row'.principalType && row.principalId == row'.principalId &&
    row.role == row'.role && row.scopeKind == row'.scopeKind && row.scopeId == row'.scopeId

/-- The row of an assignment, unless one of its columns refuses the value. -/
def assignmentRow (assignment : PolicyAssignment) : Option PolicyAssignment := do
  let id ← uuidColumn assignment.id
  let principalId ← textColumn assignment.principalId
  let role ← textColumn assignment.role
  let scopeId ← textColumn assignment.scopeId
  let createdBy ← textColumn assignment.createdBy
  return { assignment with id, principalId, role, scopeId, createdBy }

/-- `INSERT INTO policy_assignments … RETURNING *`. -/
def insertPolicyAssignment (s : Catalog) (assignment : PolicyAssignment) :
    Except CommandError PolicyAssignment × Catalog :=
  match assignmentRow assignment with
  | none => (.error .database, s)
  | some row =>
    if s.policyAssignments.any (fun stored => stored.id == row.id || sameActive row stored) then
      (.error .database, s)
    else (.ok row, { s with policyAssignments := s.policyAssignments ++ [row] })

def setRevoked (workspaceId id : JsString) (revokedAt : Instant) (row : PolicyAssignment) :
    PolicyAssignment :=
  if ofId workspaceId id row && row.revokedAt.isNone then { row with revokedAt := some revokedAt }
  else row

/-- `UPDATE policy_assignments SET revoked_at=$3 WHERE … AND revoked_at IS NULL`. -/
def updateRevoked (s : Catalog) (workspaceId assignmentId : JsString) (revokedAt : Instant) :
    Except CommandError Unit × Catalog :=
  match uuidColumn assignmentId with
  | none => (.error .database, s)
  | some id =>
    (.ok (),
      { s with policyAssignments := s.policyAssignments.map (setRevoked workspaceId id revokedAt) })

def recordChange (s : Catalog) (randomUUID : JsString) (input : PolicyAssignmentChange) :
    Except CommandError Unit × Catalog :=
  match recordPolicyAssignmentChange s.auditEvents randomUUID input with
  | none => (.error .database, s)
  | some auditEvents => (.ok (), { s with auditEvents })

/-- One transaction of the contract repository, or one look at the clock. -/
def perform (supplies : Supplies) : (st : Stmt) → Catalog → st.Result × Catalog
  | .listPolicyAssignments workspaceId, s => (listPolicyAssignments s workspaceId, s)
  | .getPolicyAssignment workspaceId assignmentId, s =>
    (getPolicyAssignment s workspaceId assignmentId, s)
  | .createPolicyAssignment assignment, s => insertPolicyAssignment s assignment
  | .revokePolicyAssignment workspaceId assignmentId revokedAt, s =>
    updateRevoked s workspaceId assignmentId revokedAt
  | .recordPolicyAssignmentChange input, s => recordChange s supplies.randomUUID input
  | .clock, s => (supplies.now, s)

def samePolicyAssignment (assignment : PolicyAssignment) (command : CreatePolicyAssignmentCommand) :
    Bool :=
  assignment.workspaceId == command.workspaceId.text &&
    assignment.principalType == command.principalType &&
    assignment.principalId == command.principalId && assignment.role == command.role &&
    assignment.scopeKind == command.scopeKind && assignment.scopeId == command.scopeId

def CreatePolicyAssignmentCommand.assignmentId (actor : Actor)
    (command : CreatePolicyAssignmentCommand) : JsString :=
  ComposedIds.assignmentId ⟨command.workspaceId, actor.id, command.idempotencyKey⟩

/-- The metadata of the event of a new assignment. -/
def createdMetadata (created : PolicyAssignment) : JsonObject where
  members :=
    [(js "principalType", .string (principalTypeText created.principalType)),
      (js "principalId", .string created.principalId), (js "role", .string created.role),
      (js "scopeKind", .string (scopeKindText created.scopeKind)),
      (js "scopeId", .string created.scopeId)]
  json := by
    have hkeys : [js "principalType", js "principalId", js "role", js "scopeKind",
      js "scopeId"].Nodup := by decide
    simp [isJson, isJsonMembers] at hkeys ⊢
    exact hkeys

/-- The audit transaction of a call, and its answer. -/
def recorded (input : PolicyAssignmentChange) (answer : PolicyAssignment) :
    CommandProg PolicyAssignment := do
  Prog.ofExcept (← Prog.perform (.recordPolicyAssignmentChange input))
  return answer

def newAssignment (actor : Actor) (command : CreatePolicyAssignmentCommand) (now : Instant) :
    PolicyAssignment where
  id := command.assignmentId actor
  workspaceId := command.workspaceId.text
  principalType := command.principalType
  principalId := command.principalId
  role := command.role
  scopeKind := command.scopeKind
  scopeId := command.scopeId
  createdBy := actor.id
  createdAt := now
  revokedAt := none

def createdChange (actor : Actor) (command : CreatePolicyAssignmentCommand)
    (created : PolicyAssignment) : PolicyAssignmentChange where
  workspaceId := command.workspaceId.text
  actorId := actor.id
  principalType := actor.principalType
  assignmentId := created.id
  created := true
  requestId := command.idempotencyKey
  occurredAt := created.createdAt
  metadata := createdMetadata created

/-- The two transactions of `createPolicyAssignment` at an instant. -/
def insertAt (actor : Actor) (command : CreatePolicyAssignmentCommand) (now : Instant) :
    CommandProg PolicyAssignment := do
  let created ← Prog.ofExcept (← Prog.perform
    (.createPolicyAssignment (newAssignment actor command now)))
  recorded (createdChange actor command created) created

/-- `createPolicyAssignment` where there is no assignment of the id. -/
def insertNew (actor : Actor) (command : CreatePolicyAssignmentCommand) :
    CommandProg PolicyAssignment := do
  let now ← Prog.perform .clock
  insertAt actor command now

def createPolicyAssignment (actor : Actor) (command : CreatePolicyAssignmentCommand) :
    CommandProg PolicyAssignment := do
  let assignments : List PolicyAssignment ←
    Prog.perform (Stmt.listPolicyAssignments command.workspaceId.text)
  match assignments.find? fun assignment => assignment.id == command.assignmentId actor with
  | some existing =>
    if samePolicyAssignment existing command then return existing
    else Prog.throw (.coded (js "IDEMPOTENCY_CONFLICT")
      (js "Policy assignment idempotency key was reused with different input."))
  | none => insertNew actor command

def revokedChange (assignmentId : JsString) (actor : Actor) (command : RevokePolicyAssignmentCommand)
    (revokedAt : Instant) : PolicyAssignmentChange where
  workspaceId := command.workspaceId.text
  actorId := actor.id
  principalType := actor.principalType
  assignmentId := assignmentId
  created := false
  requestId := command.idempotencyKey
  occurredAt := revokedAt
  metadata := ⟨[], isJson_empty⟩

/-- The two transactions of `revokePolicyAssignment` at an instant. -/
def revokeAt (assignmentId : JsString) (actor : Actor) (command : RevokePolicyAssignmentCommand)
    (assignment : PolicyAssignment) (revokedAt : Instant) : CommandProg PolicyAssignment := do
  Prog.ofExcept (← Prog.perform (.revokePolicyAssignment command.workspaceId.text assignmentId
    revokedAt))
  recorded (revokedChange assignmentId actor command revokedAt)
    { assignment with revokedAt := some revokedAt }

/-- `revokePolicyAssignment` where the assignment is in force. -/
def revokeActive (assignmentId : JsString) (actor : Actor) (command : RevokePolicyAssignmentCommand)
    (assignment : PolicyAssignment) : CommandProg PolicyAssignment := do
  let revokedAt ← Prog.perform .clock
  revokeAt assignmentId actor command assignment revokedAt

def revokePolicyAssignment (assignmentId : JsString) (actor : Actor)
    (command : RevokePolicyAssignmentCommand) : CommandProg PolicyAssignment := do
  let found ← Prog.ofExcept (← Prog.perform (.getPolicyAssignment command.workspaceId.text
    assignmentId))
  match found with
  | none => Prog.throw (.coded (js "POLICY_ASSIGNMENT_NOT_FOUND")
      (js "Policy assignment was not found."))
  | some assignment =>
    if assignment.revokedAt.isSome then return assignment
    else revokeActive assignmentId actor command assignment

inductive Call where
  | create (actor : Actor) (command : CreatePolicyAssignmentCommand)
  | revoke (assignmentId : JsString) (actor : Actor) (command : RevokePolicyAssignmentCommand)

def Call.program : Call → CommandProg PolicyAssignment
  | .create actor command => createPolicyAssignment actor command
  | .revoke assignmentId actor command => revokePolicyAssignment assignmentId actor command

def Call.workspaceId : Call → JsString
  | .create _ command => command.workspaceId.text
  | .revoke _ _ command => command.workspaceId.text

/-- Whether the matching action is `policy_assignment.created`. -/
def Call.created : Call → Bool
  | .create .. => true
  | .revoke .. => false

def commands : Service Call Supplies Catalog Stmt Stmt.Result CommandError PolicyAssignment where
  program := Call.program
  perform := perform

/-! ## Changes and their events -/

/-- An assignment of a workspace comes to be, or is revoked. -/
structure Change where
  created : Bool
  workspaceId : JsString
  id : JsString

def actionText (created : Bool) : JsString :=
  if created then js "policy_assignment.created" else js "policy_assignment.revoked"

/-- The subject of an event names the assignment in any spelling of its id. -/
def isEventOf (c : Change) (row : AuditRow) : Bool :=
  row.workspaceId == c.workspaceId && row.action == actionText c.created &&
    uuidColumn row.subjectId == some c.id

def changeEvents (s : Catalog) (c : Change) : List AuditRow := s.auditEvents.filter (isEventOf c)

def Written (s : Catalog) (c : Change) : Prop :=
  ∃ row ∈ s.policyAssignments, ofId c.workspaceId c.id row = true ∧
    (c.created = true ∨ row.revokedAt.isSome = true)

/-- The transaction that appends the event of the change. -/
def Stmt.Records (c : Change) : Stmt → Prop
  | .recordPolicyAssignmentChange input => input.created = c.created ∧
      input.workspaceId = c.workspaceId ∧ uuidColumn input.assignmentId = some c.id
  | _ => False

section Sessions

variable {ι : Type} [DecidableEq ι]

abbrev CommandSession := Session Call Stmt Stmt.Result CommandError PolicyAssignment

abbrev CommandWorld (ι : Type) :=
  World ι Call Catalog Stmt Stmt.Result CommandError PolicyAssignment

/-- The session has written the change, and appends its event next. -/
def Recording (c : Change) : CommandSession → Prop
  | .running _ (.stmt st _) => st.Records c
  | _ => False

/-- What may run while other sessions are between their two transactions. -/
def StatementAdmitted (w : CommandWorld ι) (supplies : Supplies) (call : Call) : Stmt → Prop
  | .listPolicyAssignments workspaceId =>
    ∀ actor command, call = .create actor command →
      ∀ row ∈ listPolicyAssignments w.db workspaceId, row.id = command.assignmentId actor →
        samePolicyAssignment row command = true →
          ∀ j, ¬ Recording ⟨true, workspaceId, row.id⟩ (w.sessions j)
  | .getPolicyAssignment workspaceId assignmentId =>
    ∀ row, getPolicyAssignment w.db workspaceId assignmentId = .ok (some row) →
      row.revokedAt.isSome = true → ∀ j, ¬ Recording ⟨false, workspaceId, row.id⟩ (w.sessions j)
  | .revokePolicyAssignment workspaceId assignmentId _ =>
    ∀ row ∈ w.db.policyAssignments, row.workspaceId = workspaceId →
      uuidColumn assignmentId = some row.id → row.revokedAt = none
  | .recordPolicyAssignmentChange input =>
    ∃ auditEvents, recordPolicyAssignmentChange w.db.auditEvents supplies.randomUUID input =
      some auditEvents
  | _ => True

/-- No call is cut off or refused its event between its two transactions; none is answered from an
assignment that another is still to record; and none revokes what is revoked since it looked. -/
def Admits (w : CommandWorld ι) : Label ι Call Supplies → Prop
  | .stop i => ∀ c, ¬ Recording c (w.sessions i)
  | .run i supplies => ∀ call st, w.Next i call st → StatementAdmitted w supplies call st
  | _ => True

/-- A change is still to be made, or made and not recorded, or recorded. -/
inductive Balance (w : CommandWorld ι) (c : Change) : Prop
  | unwritten (hwritten : ¬ Written w.db c) (hevents : changeEvents w.db c = [])
      (hsessions : ∀ i, ¬ Recording c (w.sessions i))
  | pending (i : ι) (hwritten : Written w.db c) (hevents : changeEvents w.db c = [])
      (hsessions : ∀ j, Recording c (w.sessions j) ↔ j = i)
  | recorded (hwritten : Written w.db c) (hevents : (changeEvents w.db c).length = 1)
      (hsessions : ∀ i, ¬ Recording c (w.sessions i))

end Sessions

/-! ## What the transactions do -/

section Transactions

variable {s s' : Catalog} {c : Change}

/-- An append that refuses a stored id and is accepted has stored a row. -/
theorem appendEvent_refuse {column : JsString → Option JsString} {t t' : Table} {b : AuditEventBody}
    {occurredAt : Instant} (h : appendEvent .refuse column t b occurredAt = some t') :
    ∃ previous row, eventRow (appendAuditEvent b (previousHash t b.workspaceId)) occurredAt previous =
      some row ∧ t' = t ++ [row] := by
  simp only [appendEvent, reduceCtorEq, false_and, if_false] at h
  split at h
  · cases h
  · rename_i row hrow
    split at h
    · cases h
    · cases h
      exact ⟨_, row, hrow, rfl⟩

theorem textColumn_actionText (created : Bool) :
    textColumn (actionText created) = some (actionText created) := by
  revert created
  decide

theorem actionText_inj {created created' : Bool} :
    actionText created = actionText created' ↔ created = created' := by
  revert created created'
  decide

/-- An accepted event is one of the change that its statement records, and of no other. -/
theorem isEventOf_iff {randomUUID : JsString} {input : PolicyAssignmentChange} {id : JsString}
    (hid : uuidColumn input.assignmentId = some id) {t auditEvents : Table}
    (h : recordPolicyAssignmentChange t randomUUID input = some auditEvents) :
    ∃ row, auditEvents = t ++ [row] ∧
      ∀ c, isEventOf c row = true ↔ (Stmt.recordPolicyAssignmentChange input).Records c := by
  obtain ⟨previous, row, hrow, rfl⟩ := appendEvent_refuse h
  refine ⟨row, rfl, fun c => ?_⟩
  simp only [eventRow, Option.bind_eq_bind, Option.bind_eq_some_iff, Option.pure_def,
    Option.some.injEq] at hrow
  obtain ⟨actorId, -, action, haction, subjectKind, -, subjectId, hsubject, requestId, -,
    correlationId, -, metadataJson, -, rfl⟩ := hrow
  have hbody : (input.body randomUUID).action = actionText input.created := rfl
  rw [appendAuditEvent, hbody, textColumn_actionText, Option.some.injEq] at haction
  have hsame : subjectId = input.assignmentId := textColumn_eq hsubject (isWellFormed_uuid hid)
  rw [isEventOf, Stmt.Records, ← haction, hsame]
  simp only [Bool.and_eq_true, beq_iff_eq, actionText_inj]
  constructor
  · rintro ⟨⟨hworkspace, hcreated⟩, hsubject⟩
    exact ⟨hcreated, hworkspace, hsubject⟩
  · rintro ⟨hcreated, hworkspace, hsubject⟩
    exact ⟨⟨hworkspace, hcreated⟩, hsubject⟩

theorem assignmentRow_eq {assignment row : PolicyAssignment} (h : assignmentRow assignment = some row) :
    row.workspaceId = assignment.workspaceId ∧ row.revokedAt = assignment.revokedAt ∧
      uuidColumn row.id = some row.id := by
  simp only [assignmentRow, Option.bind_eq_bind, Option.bind_eq_some_iff, Option.pure_def,
    Option.some.injEq] at h
  obtain ⟨id, hid, principalId, -, role, -, scopeId, -, createdBy, -, rfl⟩ := h
  exact ⟨rfl, rfl, uuidColumn_idem hid⟩

/-- An insert that is accepted writes one row under a new id, and no event. -/
theorem insertPolicyAssignment_ok {assignment created : PolicyAssignment}
    (h : insertPolicyAssignment s assignment = (.ok created, s')) :
    assignmentRow assignment = some created ∧ (∀ row ∈ s.policyAssignments, row.id ≠ created.id) ∧
      s' = { s with policyAssignments := s.policyAssignments ++ [created] } := by
  unfold insertPolicyAssignment at h
  split at h
  · cases h
  · rename_i row hrow
    split at h
    · cases h
    · rename_i hnew
      cases h
      refine ⟨hrow, ?_, rfl⟩
      intro stored hstored hid
      refine hnew (List.any_eq_true.mpr ⟨stored, hstored, ?_⟩)
      rw [beq_iff_eq.mpr hid, Bool.true_or]

theorem insertPolicyAssignment_error {assignment : PolicyAssignment} {e : CommandError}
    (h : insertPolicyAssignment s assignment = (.error e, s')) : s' = s := by
  unfold insertPolicyAssignment at h
  split at h
  · cases h
    rfl
  · split at h
    · cases h
      rfl
    · cases h

/-- A new row makes one change. -/
theorem written_insert {created : PolicyAssignment} (hrevoked : created.revokedAt = none) :
    Written { s with policyAssignments := s.policyAssignments ++ [created] } c ↔
      Written s c ∨ c = ⟨true, created.workspaceId, created.id⟩ := by
  have hlast : (ofId c.workspaceId c.id created = true ∧
      (c.created = true ∨ created.revokedAt.isSome = true)) ↔
        c = ⟨true, created.workspaceId, created.id⟩ := by
    obtain ⟨isCreated, workspaceId, id⟩ := c
    simp only [ofId, hrevoked, Bool.and_eq_true, beq_iff_eq, Option.isSome_none, Bool.false_eq_true,
      or_false, Change.mk.injEq]
    constructor
    · rintro ⟨⟨rfl, rfl⟩, rfl⟩
      exact ⟨rfl, rfl, rfl⟩
    · rintro ⟨rfl, rfl, rfl⟩
      exact ⟨⟨rfl, rfl⟩, rfl⟩
  rw [← hlast]
  simp only [Written, List.mem_append, List.mem_singleton, or_and_right, exists_or, exists_eq_left]

theorem setRevoked_spec (workspaceId id : JsString) (revokedAt : Instant) (row : PolicyAssignment) :
    (∀ ws i, ofId ws i (setRevoked workspaceId id revokedAt row) = ofId ws i row) ∧
      ((setRevoked workspaceId id revokedAt row).revokedAt.isSome = true ↔
        row.revokedAt.isSome = true ∨ ofId workspaceId id row = true) := by
  unfold setRevoked
  split
  · rename_i htaken
    rw [Bool.and_eq_true] at htaken
    exact ⟨fun _ _ => rfl, iff_of_true rfl (Or.inr htaken.1)⟩
  · rename_i hkept
    refine ⟨fun _ _ => rfl, ⟨Or.inl, ?_⟩⟩
    rintro (hrevoked | hof)
    · exact hrevoked
    · rw [hof, Bool.true_and] at hkept
      cases hrow : row.revokedAt with
      | none => simp [hrow] at hkept
      | some t => rfl

theorem change_eq_iff {row : PolicyAssignment} {workspaceId id : JsString}
    (hrow : ofId workspaceId id row = true) :
    ofId c.workspaceId c.id row = true ∧ c.created = false ↔ c = ⟨false, workspaceId, id⟩ := by
  obtain ⟨isCreated, ws, i⟩ := c
  simp only [ofId, Bool.and_eq_true, beq_iff_eq, Change.mk.injEq] at hrow ⊢
  obtain ⟨rfl, rfl⟩ := hrow
  constructor
  · rintro ⟨⟨rfl, rfl⟩, rfl⟩
    exact ⟨rfl, rfl, rfl⟩
  · rintro ⟨rfl, rfl, rfl⟩
    exact ⟨⟨rfl, rfl⟩, rfl⟩

/-- An update makes the revocation of the rows that it is about. -/
theorem written_update {workspaceId id : JsString} {revokedAt : Instant} :
    Written { s with policyAssignments :=
        s.policyAssignments.map (setRevoked workspaceId id revokedAt) } c ↔
      Written s c ∨ (c = ⟨false, workspaceId, id⟩ ∧
        ∃ row ∈ s.policyAssignments, ofId workspaceId id row = true) := by
  constructor
  · rintro ⟨_, hmem, hof, hchange⟩
    obtain ⟨row, hrow, rfl⟩ := List.mem_map.mp hmem
    obtain ⟨hsame, hrevoked⟩ := setRevoked_spec workspaceId id revokedAt row
    rw [hsame] at hof
    rw [hrevoked] at hchange
    by_cases hbefore : c.created = true ∨ row.revokedAt.isSome = true
    · exact Or.inl ⟨row, hrow, hof, hbefore⟩
    · rw [not_or, Bool.not_eq_true] at hbefore
      have htarget : ofId workspaceId id row = true := by
        rcases hchange with hcreated | hrevoked | htarget
        · rw [hbefore.1] at hcreated
          cases hcreated
        · exact absurd hrevoked hbefore.2
        · exact htarget
      exact Or.inr ⟨(change_eq_iff htarget).mp ⟨hof, hbefore.1⟩, row, hrow, htarget⟩
  · rintro (⟨row, hrow, hof, hchange⟩ | ⟨rfl, row, hrow, hof⟩)
    · obtain ⟨hsame, hrevoked⟩ := setRevoked_spec workspaceId id revokedAt row
      exact ⟨_, List.mem_map_of_mem hrow, by rw [hsame, hof], hchange.imp_right
        fun h => hrevoked.mpr (Or.inl h)⟩
    · obtain ⟨hsame, hrevoked⟩ := setRevoked_spec workspaceId id revokedAt row
      exact ⟨_, List.mem_map_of_mem hrow, by rw [hsame, hof],
        Or.inr (hrevoked.mpr (Or.inr hof))⟩

end Transactions

/-! ## What a step does to a change -/

section Balances

variable {ι : Type} [DecidableEq ι] {w : CommandWorld ι} {c : Change} {i : ι} {x : CommandSession}
  {s : Catalog}

theorem recording_set (h : Recording c x ↔ Recording c (w.sessions i)) (j : ι) :
    Recording c ((w.set i x).sessions j) ↔ Recording c (w.sessions j) := by
  by_cases hji : j = i
  · rw [hji, World.set_self, h]
  · rw [World.set_ne hji]

theorem Balance.same (hb : Balance w c) (hwritten : Written s c ↔ Written w.db c)
    (hevents : changeEvents s c = changeEvents w.db c)
    (hsession : Recording c x ↔ Recording c (w.sessions i)) :
    Balance { w.set i x with db := s } c := by
  cases hb with
  | unwritten hw he hr =>
    exact .unwritten (mt hwritten.mp hw) (hevents.trans he) fun j => mt (recording_set hsession j).mp (hr j)
  | pending k hw he hr =>
    exact .pending k (hwritten.mpr hw) (hevents.trans he) fun j =>
      (recording_set hsession j).trans (hr j)
  | recorded hw he hr =>
    exact .recorded (hwritten.mpr hw) (hevents ▸ he) fun j => mt (recording_set hsession j).mp (hr j)

/-- A change is written by the session that is to record it. -/
theorem Balance.write (hb : Balance w c) (hbefore : ¬ Written w.db c) (hwritten : Written s c)
    (hevents : changeEvents s c = changeEvents w.db c) (hsession : Recording c x) :
    Balance { w.set i x with db := s } c := by
  cases hb with
  | unwritten hw he hr =>
    refine .pending i hwritten (hevents.trans he) fun j => ?_
    by_cases hji : j = i
    · subst hji
      simpa using hsession
    · simpa [World.set_ne hji, hji] using hr j
  | pending k hw _ _ => exact absurd hw hbefore
  | recorded hw _ _ => exact absurd hw hbefore

/-- The session that has written a change records it. -/
theorem Balance.record (hb : Balance w c) (hbefore : Recording c (w.sessions i))
    (hwritten : Written s c ↔ Written w.db c) {row : AuditRow}
    (hevents : changeEvents s c = changeEvents w.db c ++ [row]) (hsession : ¬ Recording c x) :
    Balance { w.set i x with db := s } c := by
  cases hb with
  | unwritten _ _ hr => exact absurd hbefore (hr i)
  | recorded _ _ hr => exact absurd hbefore (hr i)
  | pending k hw he hr =>
    have hk : i = k := (hr i).mp hbefore
    subst hk
    refine .recorded (hwritten.mpr hw) (by rw [hevents, he]; rfl) fun j => ?_
    by_cases hji : j = i
    · subst hji
      simpa using hsession
    · simpa [World.set_ne hji, hji] using mt (hr j).mp hji

/-- A statement that leaves the catalog alone. -/
theorem Balance.read (hb : Balance w c) (hbefore : ¬ Recording c (w.sessions i))
    (hsession : ¬ Recording c x) : Balance { w.set i x with db := w.db } c :=
  hb.same Iff.rfl rfl (iff_of_false hsession hbefore)

omit [DecidableEq ι] in
theorem Balance.events_of_recording (hb : Balance w c) (h : Recording c (w.sessions i)) :
    changeEvents w.db c = [] := by
  cases hb with
  | unwritten _ he _ => exact he
  | pending _ _ he _ => exact he
  | recorded _ _ hr => exact absurd h (hr i)

omit [DecidableEq ι] in
/-- A written change that nobody is to record has its event. -/
theorem Balance.event_of_written (hb : Balance w c) (hwritten : Written w.db c)
    (hnobody : ∀ j, ¬ Recording c (w.sessions j)) : (changeEvents w.db c).length = 1 := by
  cases hb with
  | unwritten hw _ _ => exact absurd hwritten hw
  | pending k _ _ hr => exact absurd ((hr k).mpr rfl) (hnobody k)
  | recorded _ he _ => exact he

end Balances

/-! ## Where a call stands -/

section Stages

/-- What holds of a call at each of its statements. -/
inductive At (s : Catalog) : Call → CommandProg PolicyAssignment → Prop
  | begun (call : Call) : At s call call.program
  | inserting (actor : Actor) (command : CreatePolicyAssignmentCommand) :
      At s (.create actor command) (insertNew actor command)
  | insertingAt (actor : Actor) (command : CreatePolicyAssignmentCommand) (now : Instant) :
      At s (.create actor command) (insertAt actor command now)
  | revoking (assignmentId : JsString) (actor : Actor) (command : RevokePolicyAssignmentCommand)
      (a : PolicyAssignment) (hid : uuidColumn assignmentId = some a.id)
      (hrow : ∃ row ∈ s.policyAssignments, ofId command.workspaceId.text a.id row = true) :
      At s (.revoke assignmentId actor command) (revokeActive assignmentId actor command a)
  | revokingAt (assignmentId : JsString) (actor : Actor) (command : RevokePolicyAssignmentCommand)
      (a : PolicyAssignment) (now : Instant) (hid : uuidColumn assignmentId = some a.id)
      (hrow : ∃ row ∈ s.policyAssignments, ofId command.workspaceId.text a.id row = true) :
      At s (.revoke assignmentId actor command) (revokeAt assignmentId actor command a now)
  | recording (call : Call) (input : PolicyAssignmentChange) (a : PolicyAssignment)
      (hcreated : input.created = call.created) (hworkspace : input.workspaceId = call.workspaceId)
      (hid : uuidColumn input.assignmentId = some a.id) : At s call (recorded input a)
  | answered (call : Call) (a : PolicyAssignment)
      (h : (changeEvents s ⟨call.created, call.workspaceId, a.id⟩).length = 1) : At s call (.pure a)
  | failed (call : Call) (e : CommandError) : At s call (.throw e)

/-- Rows stay, and so does the one event of a change. -/
structure Later (s s' : Catalog) : Prop where
  rows : ∀ workspaceId id, (∃ row ∈ s.policyAssignments, ofId workspaceId id row = true) →
    ∃ row ∈ s'.policyAssignments, ofId workspaceId id row = true
  events : ∀ c, (changeEvents s c).length = 1 → (changeEvents s' c).length = 1

theorem Later.refl (s : Catalog) : Later s s := ⟨fun _ _ => id, fun _ => id⟩

theorem At.mono {s s' : Catalog} (h : Later s s') {call : Call} {p : CommandProg PolicyAssignment}
    (hA : At s call p) : At s' call p := by
  cases hA with
  | begun => exact .begun call
  | inserting actor command => exact .inserting actor command
  | insertingAt actor command now => exact .insertingAt actor command now
  | revoking assignmentId actor command a hid hrow =>
    exact .revoking assignmentId actor command a hid (h.rows _ _ hrow)
  | revokingAt assignmentId actor command a now hid hrow =>
    exact .revokingAt assignmentId actor command a now hid (h.rows _ _ hrow)
  | recording call input a hcreated hworkspace hid => exact .recording call input a hcreated hworkspace hid
  | answered call a he => exact .answered call a (h.events _ he)
  | failed call e => exact .failed call e

variable {ι : Type} [DecidableEq ι] {w : CommandWorld ι} {call : Call} {st : Stmt}
  {k : st.Result → CommandProg PolicyAssignment} {supplies : Supplies} {i : ι}

/-- What the next statement of a session leads to. -/
structure Leads (w : CommandWorld ι) (i : ι) (call : Call) (s : Catalog)
    (p : CommandProg PolicyAssignment) : Prop where
  later : Later w.db s
  stage : At s call p
  balance : ∀ c, Balance { w.set i (.running call p) with db := s } c

theorem Leads.read {p : CommandProg PolicyAssignment} (hb : ∀ c, Balance w c)
    (hbefore : ∀ c, ¬ Recording c (w.sessions i)) (hstage : At w.db call p)
    (hafter : ∀ c, ¬ Recording c (.running call p)) : Leads w i call w.db p :=
  ⟨.refl w.db, hstage, fun c => (hb c).read (hbefore c) (hafter c)⟩

theorem mem_listPolicyAssignments {s : Catalog} {workspaceId : JsString} {row : PolicyAssignment}
    (h : row ∈ listPolicyAssignments s workspaceId) :
    row ∈ s.policyAssignments ∧ row.workspaceId = workspaceId := by
  rw [listPolicyAssignments, (List.perm_insertionSort _ _).mem_iff, List.mem_filter,
    Bool.and_eq_true, beq_iff_eq] at h
  exact ⟨h.1, h.2.1⟩

/-- A create call that has looked. -/
theorem leads_list (hb : ∀ c, Balance w c) {actor : Actor} {command : CreatePolicyAssignmentCommand}
    (hi : w.sessions i = .running (.create actor command) (createPolicyAssignment actor command))
    (hg : StatementAdmitted w supplies (.create actor command)
      (.listPolicyAssignments command.workspaceId.text)) :
    Leads w i (.create actor command) w.db
      (match (listPolicyAssignments w.db command.workspaceId.text).find?
          fun assignment => assignment.id == command.assignmentId actor with
        | some existing =>
          if samePolicyAssignment existing command then .pure existing
          else .throw (.coded (js "IDEMPOTENCY_CONFLICT")
            (js "Policy assignment idempotency key was reused with different input."))
        | none => insertNew actor command) := by
  have hbefore : ∀ c, ¬ Recording c (w.sessions i) := by
    intro c
    rw [hi]
    exact id
  split
  · rename_i existing hfind
    have hmem := List.mem_of_find?_eq_some hfind
    have hid : existing.id = command.assignmentId actor := by simpa using List.find?_some hfind
    obtain ⟨hrow, hworkspace⟩ := mem_listPolicyAssignments hmem
    split
    · rename_i hsame
      have hwritten : Written w.db ⟨true, command.workspaceId.text, existing.id⟩ := by
        refine ⟨existing, hrow, ?_, Or.inl rfl⟩
        simp [ofId, hworkspace]
      have hevent := (hb _).event_of_written hwritten (hg actor command rfl existing hmem hid hsame)
      exact .read hb hbefore (.answered (.create actor command) existing hevent) fun _ => id
    · exact .read hb hbefore (.failed _ _) fun _ => id
  · exact .read hb hbefore (.inserting actor command) fun _ => id

/-- A revoke call that has looked. -/
theorem leads_get (hb : ∀ c, Balance w c) {assignmentId : JsString} {actor : Actor}
    {command : RevokePolicyAssignmentCommand}
    (hi : w.sessions i = .running (.revoke assignmentId actor command)
      (revokePolicyAssignment assignmentId actor command))
    (hg : StatementAdmitted w supplies (.revoke assignmentId actor command)
      (.getPolicyAssignment command.workspaceId.text assignmentId)) :
    Leads w i (.revoke assignmentId actor command) w.db
      ((Prog.ofExcept (getPolicyAssignment w.db command.workspaceId.text assignmentId)).bind
        fun found => match found with
          | none => .throw (.coded (js "POLICY_ASSIGNMENT_NOT_FOUND")
              (js "Policy assignment was not found."))
          | some assignment =>
            if assignment.revokedAt.isSome then .pure assignment
            else revokeActive assignmentId actor command assignment) := by
  have hbefore : ∀ c, ¬ Recording c (w.sessions i) := by
    intro c
    rw [hi]
    exact id
  cases hget : getPolicyAssignment w.db command.workspaceId.text assignmentId with
  | error e => exact .read hb hbefore (.failed _ e) fun _ => id
  | ok found =>
    cases found with
    | none => exact .read hb hbefore (.failed _ _) fun _ => id
    | some assignment =>
      obtain ⟨hid, hrow, hof⟩ : uuidColumn assignmentId = some assignment.id ∧
          assignment ∈ w.db.policyAssignments ∧
            ofId command.workspaceId.text assignment.id assignment = true := by
        rw [getPolicyAssignment] at hget
        split at hget
        · cases hget
        · rename_i id hid
          rw [Except.ok.injEq] at hget
          have hof := List.find?_some hget
          have hsame : assignment.id = id := by
            simp only [ofId, Bool.and_eq_true, beq_iff_eq] at hof
            exact hof.2
          exact ⟨hsame ▸ hid, List.mem_of_find?_eq_some hget, hsame ▸ hof⟩
      change Leads w i _ w.db (if assignment.revokedAt.isSome then .pure assignment
        else revokeActive assignmentId actor command assignment)
      split
      · rename_i hrevoked
        have hwritten : Written w.db ⟨false, command.workspaceId.text, assignment.id⟩ :=
          ⟨assignment, hrow, hof, Or.inr hrevoked⟩
        have hevent := (hb _).event_of_written hwritten (hg assignment hget hrevoked)
        exact .read hb hbefore (.answered (.revoke assignmentId actor command) assignment hevent)
          fun _ => id
      · exact .read hb hbefore (.revoking assignmentId actor command assignment hid
          ⟨assignment, hrow, hof⟩) fun _ => id

omit [DecidableEq ι] in
theorem recording_iff {c : Change} (call : Call) (input : PolicyAssignmentChange)
    (a : PolicyAssignment) {id : JsString} (hid : uuidColumn input.assignmentId = some id) :
    Recording c (.running call (recorded input a)) ↔ c = ⟨input.created, input.workspaceId, id⟩ := by
  change (input.created = c.created ∧ input.workspaceId = c.workspaceId ∧
    uuidColumn input.assignmentId = some c.id) ↔ _
  obtain ⟨isCreated, ws, i⟩ := c
  rw [hid, Option.some.injEq, Change.mk.injEq]
  exact ⟨fun ⟨h₁, h₂, h₃⟩ => ⟨h₁.symm, h₂.symm, h₃.symm⟩,
    fun ⟨h₁, h₂, h₃⟩ => ⟨h₁.symm, h₂.symm, h₃.symm⟩⟩

/-- A create call that has inserted its row, or was refused. -/
theorem leads_insert (hb : ∀ c, Balance w c) {actor : Actor} {command : CreatePolicyAssignmentCommand}
    {now : Instant}
    (hi : w.sessions i = .running (.create actor command) (insertAt actor command now)) :
    Leads w i (.create actor command)
      (insertPolicyAssignment w.db (newAssignment actor command now)).2
      ((Prog.ofExcept (insertPolicyAssignment w.db (newAssignment actor command now)).1).bind
        fun created => recorded (createdChange actor command created) created) := by
  have hbefore : ∀ c, ¬ Recording c (w.sessions i) := by
    intro c
    rw [hi]
    exact id
  rcases hinsert : insertPolicyAssignment w.db (newAssignment actor command now) with ⟨answer, s'⟩
  cases answer with
  | error e =>
    obtain rfl := insertPolicyAssignment_error hinsert
    exact .read hb hbefore (.failed _ e) fun _ => id
  | ok created =>
    obtain ⟨hrow, hnew, rfl⟩ := insertPolicyAssignment_ok hinsert
    obtain ⟨hworkspace, hrevoked, hid⟩ := assignmentRow_eq hrow
    refine ⟨⟨fun ws id h => ?_, fun _ => id⟩, ?_, fun c => ?_⟩
    · obtain ⟨row, hmem, hof⟩ := h
      exact ⟨row, List.mem_append_left _ hmem, hof⟩
    · exact .recording (.create actor command) (createdChange actor command created) created rfl rfl
        hid
    · have hrecording : Recording c (.running (.create actor command)
          (recorded (createdChange actor command created) created)) ↔
          c = ⟨true, created.workspaceId, created.id⟩ := by
        rw [recording_iff _ (createdChange actor command created) _ hid, hworkspace]
        exact Iff.rfl
      by_cases hc : c = ⟨true, created.workspaceId, created.id⟩
      · refine (hb c).write ?_ ((written_insert hrevoked).mpr (Or.inr hc)) rfl (hrecording.mpr hc)
        rintro ⟨row, hmem, hof, -⟩
        simp only [ofId, hc, Bool.and_eq_true, beq_iff_eq] at hof
        exact hnew row hmem hof.2
      · refine (hb c).same ?_ rfl (iff_of_false (mt hrecording.mp hc) (hbefore c))
        rw [written_insert hrevoked, or_iff_left hc]

/-- A revoke call that has updated its row, which no other has revoked before. -/
theorem leads_update (hb : ∀ c, Balance w c) {assignmentId : JsString} {actor : Actor}
    {command : RevokePolicyAssignmentCommand} {a : PolicyAssignment} {now : Instant}
    (hid : uuidColumn assignmentId = some a.id)
    (hrow : ∃ row ∈ w.db.policyAssignments, ofId command.workspaceId.text a.id row = true)
    (hi : w.sessions i = .running (.revoke assignmentId actor command)
      (revokeAt assignmentId actor command a now))
    (hg : StatementAdmitted w supplies (.revoke assignmentId actor command)
      (.revokePolicyAssignment command.workspaceId.text assignmentId now)) :
    Leads w i (.revoke assignmentId actor command)
      (updateRevoked w.db command.workspaceId.text assignmentId now).2
      ((Prog.ofExcept (updateRevoked w.db command.workspaceId.text assignmentId now).1).bind
        fun _ => recorded (revokedChange assignmentId actor command now)
          { a with revokedAt := some now }) := by
  have hbefore : ∀ c, ¬ Recording c (w.sessions i) := by
    intro c
    rw [hi]
    exact id
  simp only [updateRevoked, hid]
  refine ⟨⟨fun ws id h => ?_, fun _ => id⟩, ?_, fun c => ?_⟩
  · obtain ⟨row, hmem, hof⟩ := h
    refine ⟨_, List.mem_map_of_mem hmem, ?_⟩
    rw [(setRevoked_spec _ _ now row).1, hof]
  · exact .recording (.revoke assignmentId actor command)
      (revokedChange assignmentId actor command now) { a with revokedAt := some now } rfl rfl hid
  · have hrecording : Recording c (.running (.revoke assignmentId actor command)
        (recorded (revokedChange assignmentId actor command now) { a with revokedAt := some now })) ↔
        c = ⟨false, command.workspaceId.text, a.id⟩ :=
      recording_iff _ (revokedChange assignmentId actor command now) _ hid
    by_cases hc : c = ⟨false, command.workspaceId.text, a.id⟩
    · refine (hb c).write ?_ (written_update.mpr (Or.inr ⟨hc, hrow⟩)) rfl (hrecording.mpr hc)
      rintro ⟨row, hmem, hof, hchange⟩
      simp only [hc, ofId, Bool.and_eq_true, beq_iff_eq] at hof hchange
      rw [hg row hmem hof.1 (hof.2 ▸ hid)] at hchange
      simp at hchange
    · refine (hb c).same ?_ rfl (iff_of_false (mt hrecording.mp hc) (hbefore c))
      rw [written_update, or_iff_left fun h => hc h.1]

/-- A call that has recorded its change. -/
theorem leads_record (hb : ∀ c, Balance w c) {input : PolicyAssignmentChange} {a : PolicyAssignment}
    (hcreated : input.created = call.created) (hworkspace : input.workspaceId = call.workspaceId)
    (hid : uuidColumn input.assignmentId = some a.id)
    (hi : w.sessions i = .running call (recorded input a))
    (hg : StatementAdmitted w supplies call (.recordPolicyAssignmentChange input)) :
    Leads w i call (recordChange w.db supplies.randomUUID input).2
      ((Prog.ofExcept (recordChange w.db supplies.randomUUID input).1).bind fun _ => .pure a) := by
  obtain ⟨auditEvents, haccepted⟩ := hg
  obtain ⟨row, rfl, hevent⟩ := isEventOf_iff hid haccepted
  have hrecording : ∀ c, Recording c (w.sessions i) ↔ c = ⟨input.created, input.workspaceId, a.id⟩ := by
    intro c
    rw [hi]
    exact recording_iff call input a hid
  have hrow : ∀ c, isEventOf c row = true ↔ c = ⟨input.created, input.workspaceId, a.id⟩ := by
    intro c
    rw [hevent c, ← recording_iff call input a hid]
    exact Iff.rfl
  simp only [recordChange, haccepted]
  have hbalance : ∀ c, Balance { w.set i (.running call (.pure a)) with
      db := { w.db with auditEvents := w.db.auditEvents ++ [row] } } c := by
    intro c
    by_cases hc : c = ⟨input.created, input.workspaceId, a.id⟩
    · have hevents : changeEvents { w.db with auditEvents := w.db.auditEvents ++ [row] } c =
          changeEvents w.db c ++ [row] := by simp [changeEvents, (hrow c).mpr hc]
      exact (hb c).record ((hrecording c).mpr hc) Iff.rfl hevents id
    · refine (hb c).same Iff.rfl ?_ (iff_of_false id (mt (hrecording c).mp hc))
      simp [changeEvents, mt (hrow c).mp hc]
  have hone : (changeEvents { w.db with auditEvents := w.db.auditEvents ++ [row] }
      ⟨input.created, input.workspaceId, a.id⟩).length = 1 := by
    have hnone := (hb ⟨input.created, input.workspaceId, a.id⟩).events_of_recording
      ((hrecording _).mpr rfl)
    rw [changeEvents, List.filter_append, ← changeEvents, hnone]
    simp [(hrow _).mpr rfl]
  refine ⟨⟨fun _ _ => id, fun c h => ?_⟩, .answered call a ?_, hbalance⟩
  · by_cases hc : c = ⟨input.created, input.workspaceId, a.id⟩
    · rw [hc]
      exact hone
    · simpa [changeEvents, mt (hrow c).mp hc] using h
  · rw [← hcreated, ← hworkspace]
    exact hone

/-- Every statement of a call leads on. -/
theorem At.run {p : CommandProg PolicyAssignment} (hA : At w.db call p) (hb : ∀ c, Balance w c)
    (hp : p = .stmt st k) (hi : w.sessions i = .running call p)
    (hg : StatementAdmitted w supplies call st) :
    Leads w i call (perform supplies st w.db).2 (k (perform supplies st w.db).1) := by
  have hquiet : ∀ now : Instant, st = .clock → ∀ c, ¬ Recording c (w.sessions i) := by
    rintro now rfl c
    rw [hi, hp]
    exact id
  cases hA with
  | begun =>
    cases call with
    | create actor command =>
      cases hp
      exact leads_list hb hi hg
    | revoke assignmentId actor command =>
      cases hp
      exact leads_get hb hi hg
  | inserting actor command =>
    cases hp
    exact .read hb (hquiet supplies.now rfl) (.insertingAt actor command supplies.now) fun _ => id
  | insertingAt actor command now =>
    cases hp
    exact leads_insert hb hi
  | revoking assignmentId actor command a hid hrow =>
    cases hp
    exact .read hb (hquiet supplies.now rfl)
      (.revokingAt assignmentId actor command a supplies.now hid hrow) fun _ => id
  | revokingAt assignmentId actor command a now hid hrow =>
    cases hp
    exact leads_update hb hid hrow hi hg
  | recording call input a hcreated hworkspace hid =>
    cases hp
    exact leads_record hb hcreated hworkspace hid hi hg
  | answered => cases hp
  | failed => cases hp

end Stages

/-! ## Runs -/

section Runs

variable {ι : Type} [DecidableEq ι]

/-- No assignment yet, and no event of one. -/
def initial (s : Catalog) : Prop := s.policyAssignments = [] ∧ ∀ c, changeEvents s c = []

/-- The answer of a call has the one event of its change. -/
def Answered (s : Catalog) (call : Call) (a : PolicyAssignment) : Prop :=
  (changeEvents s ⟨call.created, call.workspaceId, a.id⟩).length = 1

/-- What admitted runs keep. -/
structure Kept (w : CommandWorld ι) : Prop where
  balance : ∀ c, Balance w c
  served : Served At Answered w

theorem not_recording_program (c : Change) (call : Call) :
    ¬ Recording c (.running call call.program) := by
  cases call with
  | create actor command => exact id
  | revoke assignmentId actor command => exact id

theorem At.answer {s : Catalog} {call : Call} {a : PolicyAssignment} (h : At s call (.pure a)) :
    Answered s call a := by
  cases call with
  | create actor command =>
    cases h with
    | answered _ _ he => exact he
  | revoke assignmentId actor command =>
    cases h with
    | answered _ _ he => exact he

theorem Kept.step {w w' : CommandWorld ι} {l : Label ι Call Supplies} (h : Kept w)
    (hg : Admits w l) (hstep : commands.Step w l w') : Kept w' := by
  have hleads : ∀ i supplies call st k, l = .run i supplies →
      w.sessions i = .running call (.stmt st k) →
      Leads w i call (perform supplies st w.db).2 (k (perform supplies st w.db).1) := by
    rintro i supplies call st k rfl hi
    exact (h.served.running i call _ hi).run h.balance rfl hi (hg call st ⟨k, hi⟩)
  refine ⟨fun c => ?_, h.served.step hstep (fun s call => .begun call) (fun s call a => At.answer) ?_⟩
  · cases hstep with
    | begin i call hi =>
      exact (h.balance c).read (by rw [hi]; exact id) (not_recording_program c call)
    | run i supplies call st k hi => exact (hleads i supplies call st k rfl hi).balance c
    | finish i call a hi => exact (h.balance c).read (by rw [hi]; exact id) id
    | stop i call p hi => exact (h.balance c).read (hg c) id
  · intro i supplies call st k hl hi
    have hnext := hleads i supplies call st k hl hi
    exact ⟨fun call p hA => hA.mono hnext.later, fun call a he => hnext.later.events _ he,
      hnext.stage⟩

theorem kept_of_reaches {w : CommandWorld ι} (h : (commands.machine initial).Reaches Admits w) :
    Kept w := by
  refine h.invariant ?_ fun w l w' hw hg hstep => hw.step hg hstep
  rintro w ⟨⟨hrows, hevents⟩, hidle⟩
  refine ⟨fun c => .unwritten ?_ (hevents c) fun i => ?_, .init hidle⟩
  · rintro ⟨row, hrow, -⟩
    rw [hrows] at hrow
    cases hrow
  · rw [hidle i]
    exact id

/-- In every run of the commands in which each step is admitted, a call that has returned has one
audit event of its change. -/
theorem answered_once (w : CommandWorld ι) (h : (commands.machine initial).Reaches Admits w) (i : ι)
    (call : Call) (a : PolicyAssignment) (hi : w.sessions i = .returned call a) :
    (changeEvents w.db ⟨call.created, call.workspaceId, a.id⟩).length = 1 :=
  (kept_of_reaches h).served.returned i call a hi

end Runs

/-! ## A call that is cut off -/

def sampleActor : Actor := ⟨js "a", some .user⟩

def sampleCommand : CreatePolicyAssignmentCommand :=
  { workspaceId := sampleWorkspaceId, principalType := .user, principalId := js "p"
    role := js "editor", scopeKind := .dataset, scopeId := js "d", idempotencyKey := js "k" }

def sampleSupplies : Supplies := ⟨⟨0, epoch_bound⟩, js "00000000-0000-4000-8000-000000000001"⟩

def sampleCreated : PolicyAssignment :=
  (assignmentRow (newAssignment sampleActor sampleCommand sampleSupplies.now)).getD
    (newAssignment sampleActor sampleCommand sampleSupplies.now)

def emptyWorld : CommandWorld Bool := ⟨⟨[], []⟩, fun _ => .idle⟩

theorem sample_insert :
    insertPolicyAssignment ⟨[], []⟩ (newAssignment sampleActor sampleCommand sampleSupplies.now) =
      (.ok sampleCreated, ⟨[sampleCreated], []⟩) := by
  have hrow : assignmentRow (newAssignment sampleActor sampleCommand sampleSupplies.now) =
      some sampleCreated := by decide +kernel
  simp [insertPolicyAssignment, hrow]

abbrev sampleCall : Call := .create sampleActor sampleCommand

/-- A call has inserted the assignment and is to record it. -/
theorem sample_inserted {guard : CommandWorld Bool → Label Bool Call Supplies → Prop}
    (hguard : ∀ w l, Admits w l → guard w l) : ReachesWith commands initial guard emptyWorld false
      (.running sampleCall (recorded (createdChange sampleActor sampleCommand sampleCreated)
        sampleCreated)) ⟨[sampleCreated], []⟩ := by
  have hbegin : ReachesWith commands initial guard emptyWorld false
      (.running sampleCall (createPolicyAssignment sampleActor sampleCommand)) ⟨[], []⟩ :=
    .begin (.init ⟨⟨rfl, fun _ => rfl⟩, fun _ => rfl⟩) rfl (hguard _ _ trivial)
  have hlist : ReachesWith commands initial guard emptyWorld false
      (.running sampleCall (insertNew sampleActor sampleCommand)) ⟨[], []⟩ :=
    hbegin.run sampleSupplies rfl fun w hdb hi _ => by
      refine hguard _ _ (World.forall_next hi ?_)
      intro actor command _ row hrow
      rw [hdb] at hrow
      cases hrow
  have hclock : ReachesWith commands initial guard emptyWorld false
      (.running sampleCall (insertAt sampleActor sampleCommand sampleSupplies.now)) ⟨[], []⟩ :=
    hlist.run sampleSupplies rfl fun w _ hi _ => hguard _ _ (World.forall_next hi trivial)
  exact hclock.run sampleSupplies sample_insert fun w _ hi _ =>
    hguard _ _ (World.forall_next hi trivial)

/-- The call goes on, and its answer has an event. -/
theorem answered_once_sample : ∃ w : CommandWorld Bool,
    (commands.machine initial).Reaches Admits w ∧ w.sessions false = .returned sampleCall sampleCreated ∧
      (changeEvents w.db ⟨true, sampleWorkspace, sampleCreated.id⟩).length = 1 := by
  obtain ⟨auditEvents, haccepted⟩ : ∃ auditEvents, recordPolicyAssignmentChange []
      sampleSupplies.randomUUID (createdChange sampleActor sampleCommand sampleCreated) =
        some auditEvents := Option.isSome_iff_exists.mp (by decide +kernel)
  have hperform : commands.perform sampleSupplies (.recordPolicyAssignmentChange
      (createdChange sampleActor sampleCommand sampleCreated)) ⟨[sampleCreated], []⟩ =
        (.ok (), ⟨[sampleCreated], auditEvents⟩) := by
    simp [commands, perform, recordChange, haccepted]
  have hrecord : ReachesWith commands initial Admits emptyWorld false
      (.running sampleCall (.pure sampleCreated)) ⟨[sampleCreated], auditEvents⟩ :=
    (sample_inserted fun _ _ => id).run sampleSupplies hperform fun w hdb hi _ => by
      refine World.forall_next hi ⟨auditEvents, ?_⟩
      rw [hdb]
      exact haccepted
  obtain ⟨w, hw, -, hi, -⟩ := hrecord.finish fun _ => trivial
  exact ⟨w, hw, hi, answered_once w hw false sampleCall sampleCreated hi⟩

/-- The call is cut off before it records; the client retries, and has an answer without an event. -/
theorem retry_unrecorded : ∃ w : CommandWorld Bool, (commands.machine initial).Reachable w ∧
    w.sessions true = .returned sampleCall sampleCreated ∧
      changeEvents w.db ⟨true, sampleWorkspace, sampleCreated.id⟩ = [] := by
  have hinserted : ReachesWith commands initial (fun _ _ => True) emptyWorld false
      (.running sampleCall (recorded (createdChange sampleActor sampleCommand sampleCreated)
        sampleCreated)) ⟨[sampleCreated], []⟩ := sample_inserted fun _ _ _ => trivial
  obtain ⟨w, hw, hdb, -, hidle⟩ := hinserted.stop fun _ => trivial
  have hbegin : ReachesWith commands initial (fun _ _ => True) w true
      (.running sampleCall (createPolicyAssignment sampleActor sampleCommand)) ⟨[sampleCreated], []⟩ :=
    hdb ▸ .begin hw (hidle true (by decide)) trivial
  have hfound : (listPolicyAssignments ⟨[sampleCreated], []⟩ sampleWorkspace).find?
      (fun assignment => assignment.id == sampleCommand.assignmentId sampleActor) =
        some sampleCreated := by
    decide +kernel
  have hsame : samePolicyAssignment sampleCreated sampleCommand = true := by decide +kernel
  have hlist : ReachesWith commands initial (fun _ _ => True) w true
      (.running sampleCall (.pure sampleCreated)) ⟨[sampleCreated], []⟩ := by
    have hanswer : (match (listPolicyAssignments ⟨[sampleCreated], []⟩ sampleWorkspace).find?
          (fun assignment => assignment.id == sampleCommand.assignmentId sampleActor) with
        | some existing =>
          if samePolicyAssignment existing sampleCommand then Prog.pure existing
          else .throw (.coded (js "IDEMPOTENCY_CONFLICT")
            (js "Policy assignment idempotency key was reused with different input."))
        | none => insertNew sampleActor sampleCommand : CommandProg PolicyAssignment) =
          .pure sampleCreated := by
      rw [hfound]
      exact if_pos hsame
    rw [← hanswer]
    exact hbegin.run sampleSupplies rfl fun _ _ _ _ => trivial
  obtain ⟨w', hw', hdb', hi, -⟩ := hlist.finish fun _ => trivial
  refine ⟨w', hw', hi, ?_⟩
  rw [hdb']
  rfl

end TrustCore.PolicyAssignments
