import TrustCore.Dynamic

/-!
# Access policy

`evaluatePolicy` decides one request from four sources: the registered application
behind the principal, stored assignments, the roles that the identity claims, and
break-glass grants. Every record that is not in force for the request can be taken out
of the lists without a change of the decision.
-/

namespace TrustCore.Policy

open TrustCore.Utf

inductive PolicyAction where
  | workspaceRead
  | workspaceManage
  | controlRead
  | datasetRead
  | datasetWrite
  | datasetManage
  | resourceRead
  | revisionCreate
  | resourceDelete
  | resourceRestore
  | blobRead
  | objectIngest
  | relationRead
  | relationWrite
  | historyRead
  | auditRead
  | verificationRun
  | retentionManage
  | purgeExecute
  | accessManage
  | breakGlassGrant
  | breakGlassRevoke
  | breakGlassUse
  | healthRead
  | storageProbeIngest
  | storageManage
  | operationProcess
  | portabilityRead
  | portabilityExport
  | portabilityPlan
  | portabilityExecute
  deriving DecidableEq

def PolicyAction.text : PolicyAction → JsString
  | .workspaceRead => js "workspace:read"
  | .workspaceManage => js "workspace:manage"
  | .controlRead => js "control:read"
  | .datasetRead => js "dataset:read"
  | .datasetWrite => js "dataset:write"
  | .datasetManage => js "dataset:manage"
  | .resourceRead => js "resource:read"
  | .revisionCreate => js "revision:create"
  | .resourceDelete => js "resource:delete"
  | .resourceRestore => js "resource:restore"
  | .blobRead => js "blob:read"
  | .objectIngest => js "object:ingest"
  | .relationRead => js "relation:read"
  | .relationWrite => js "relation:write"
  | .historyRead => js "history:read"
  | .auditRead => js "audit:read"
  | .verificationRun => js "verification:run"
  | .retentionManage => js "retention:manage"
  | .purgeExecute => js "purge:execute"
  | .accessManage => js "access:manage"
  | .breakGlassGrant => js "break_glass:grant"
  | .breakGlassRevoke => js "break_glass:revoke"
  | .breakGlassUse => js "break_glass:use"
  | .healthRead => js "health:read"
  | .storageProbeIngest => js "storage:probe_ingest"
  | .storageManage => js "storage:manage"
  | .operationProcess => js "operation:process"
  | .portabilityRead => js "portability:read"
  | .portabilityExport => js "portability:export"
  | .portabilityPlan => js "portability:plan"
  | .portabilityExecute => js "portability:execute"

def policyActions : List PolicyAction :=
  [.workspaceRead, .workspaceManage, .controlRead, .datasetRead, .datasetWrite, .datasetManage,
    .resourceRead, .revisionCreate, .resourceDelete, .resourceRestore, .blobRead, .objectIngest,
    .relationRead, .relationWrite, .historyRead, .auditRead, .verificationRun, .retentionManage,
    .purgeExecute, .accessManage, .breakGlassGrant, .breakGlassRevoke, .breakGlassUse, .healthRead,
    .storageProbeIngest, .storageManage, .operationProcess, .portabilityRead, .portabilityExport,
    .portabilityPlan, .portabilityExecute]

inductive PolicyRole where
  | owner
  | admin
  | editor
  | recoveryOperator
  | auditor
  | worker
  | infrastructureOperator
  deriving DecidableEq

inductive PrincipalType where
  | user
  | service
  | application
  deriving DecidableEq

inductive ScopeKind where
  | workspace
  | dataset
  | application
  deriving DecidableEq

structure PolicyPrincipal where
  id : JsString
  type : PrincipalType
  roles : Option (List JsString)
  workspaceIds : Option (List JsString)

structure PolicyScope where
  workspaceId : JsString
  datasetId : Option JsString
  applicationId : Option JsString

structure ScopedPolicyAssignment where
  id : JsString
  workspaceId : JsString
  principalType : PrincipalType
  principalId : JsString
  role : JsString
  scopeKind : ScopeKind
  scopeId : JsString
  revokedAt : Option JsString
  deriving DecidableEq

inductive ApplicationStatus where
  | active
  | suspended
  | revoked
  deriving DecidableEq

structure RegisteredApplication where
  id : JsString
  workspaceId : JsString
  «namespace» : JsString
  capabilities : List JsString
  status : ApplicationStatus
  deriving DecidableEq

structure ActiveBreakGlassGrant where
  id : JsString
  workspaceId : JsString
  principalId : JsString
  reason : JsString
  actions : List JsString
  grantedAt : JsString
  expiresAt : JsString
  revokedAt : Option JsString
  deriving DecidableEq

structure PolicyEvaluationInput where
  principal : PolicyPrincipal
  action : PolicyAction
  scope : PolicyScope
  assignments : Option (List ScopedPolicyAssignment)
  applications : Option (List RegisteredApplication)
  breakGlassGrants : Option (List ActiveBreakGlassGrant)
  «at» : Option JsString

inductive DenialReason where
  | unregisteredApplication
  | applicationCapabilityDenied
  | noMatchingAssignment
  deriving DecidableEq

inductive PolicyDecision where
  | role (assignmentId : JsString)
  | breakGlass (grantId reason : JsString)
  | denied (reason : DenialReason)
  deriving DecidableEq

def PolicyDecision.allowed : PolicyDecision → Bool
  | .denied _ => false
  | _ => true

def breakGlassEligibleActions : List PolicyAction :=
  [.datasetRead, .resourceRead, .resourceRestore, .blobRead, .historyRead]

def roleCapabilities : PolicyRole → List PolicyAction
  | .owner => policyActions.filter fun action => action != .operationProcess
  | .admin =>
    [.workspaceRead, .workspaceManage, .controlRead, .datasetRead, .datasetWrite, .datasetManage,
      .resourceRead, .revisionCreate, .resourceDelete, .resourceRestore, .blobRead, .objectIngest,
      .relationRead, .relationWrite, .historyRead, .auditRead, .verificationRun, .retentionManage,
      .purgeExecute, .accessManage, .breakGlassGrant, .breakGlassRevoke, .healthRead,
      .storageProbeIngest, .storageManage, .portabilityRead, .portabilityExport, .portabilityPlan,
      .portabilityExecute]
  | .editor =>
    [.datasetRead, .datasetWrite, .resourceRead, .revisionCreate, .blobRead, .objectIngest,
      .relationRead, .relationWrite]
  | .recoveryOperator =>
    [.datasetRead, .resourceRead, .resourceRestore, .historyRead, .portabilityRead,
      .portabilityPlan, .portabilityExecute]
  | .auditor =>
    [.workspaceRead, .controlRead, .datasetRead, .resourceRead, .blobRead, .relationRead,
      .historyRead, .auditRead, .verificationRun, .healthRead, .portabilityRead]
  | .worker => [.healthRead, .operationProcess]
  | .infrastructureOperator =>
    [.workspaceRead, .controlRead, .auditRead, .verificationRun, .healthRead, .portabilityRead]

/-- `isBreakGlassEligibleAction` of a value that is a policy action by its type. -/
def isBreakGlassEligibleAction (action : PolicyAction) : Bool :=
  breakGlassEligibleActions.contains action

/-- `isPolicyRole`, with the role it finds. -/
def policyRole (value : JsString) : Option PolicyRole :=
  if value = js "owner" then some .owner
  else if value = js "admin" then some .admin
  else if value = js "editor" then some .editor
  else if value = js "recovery_operator" then some .recoveryOperator
  else if value = js "auditor" then some .auditor
  else if value = js "worker" then some .worker
  else if value = js "infrastructure_operator" then some .infrastructureOperator
  else none

def capabilitiesForRole (role : JsString) : List PolicyAction :=
  match policyRole role with
  | some role => roleCapabilities role
  | none => []

/-- A `revokedAt` that is present and not the empty string. -/
def isRevoked (revokedAt : Option JsString) : Bool := !(revokedAt.getD []).isEmpty

def assignmentMatches (assignment : ScopedPolicyAssignment) (input : PolicyEvaluationInput) :
    Bool :=
  if isRevoked assignment.revokedAt || assignment.workspaceId != input.scope.workspaceId ||
      assignment.principalType != input.principal.type ||
      assignment.principalId != input.principal.id then
    false
  else
    match assignment.scopeKind with
    | .workspace => assignment.scopeId == input.scope.workspaceId
    | .dataset => input.scope.datasetId == some assignment.scopeId
    | .application => input.scope.applicationId == some assignment.scopeId

def claimedRoleAssignments (input : PolicyEvaluationInput) : List ScopedPolicyAssignment :=
  if (input.principal.workspaceIds.getD []).contains input.scope.workspaceId then
    (input.principal.roles.getD []).mapIdx fun index role =>
      { id := js "identity-claim:" ++ js (toString index) ++ js ":" ++ role
        workspaceId := input.scope.workspaceId
        principalType := input.principal.type
        principalId := input.principal.id
        role
        scopeKind := .workspace
        scopeId := input.scope.workspaceId
        revokedAt := none }
  else []

/-- The test of `registeredApplication`. -/
def isRegistration (input : PolicyEvaluationInput) (application : RegisteredApplication) : Bool :=
  application.workspaceId == input.scope.workspaceId && application.status == .active &&
    (application.id == input.principal.id || application.«namespace» == input.principal.id)

def registeredApplication (input : PolicyEvaluationInput) : Option RegisteredApplication :=
  (input.applications.getD []).find? (isRegistration input)

/-- `<=` on numbers that may be `NaN` (`none`). -/
def numberLe : Option Int → Option Int → Bool
  | some a, some b => decide (a ≤ b)
  | _, _ => false

/-- `<` on numbers that may be `NaN`. -/
def numberLt : Option Int → Option Int → Bool
  | some a, some b => decide (a < b)
  | _, _ => false

section Evaluation

-- `Date.parse` may be any function; `now` is the text of the clock's reading.
variable (dateParse : JsString → Option Int) (now : JsString)

/-- The test of `activeBreakGlassGrant` for one grant. -/
def grantMatches (input : PolicyEvaluationInput) (grant : ActiveBreakGlassGrant) : Bool :=
  grant.workspaceId == input.scope.workspaceId && grant.principalId == input.principal.id &&
    !isRevoked grant.revokedAt && decide (0 < (Dynamic.trim grant.reason).length) &&
    grant.actions.any (· == input.action.text) &&
    numberLe (dateParse grant.grantedAt) (dateParse (input.«at».getD now)) &&
    numberLt (dateParse (input.«at».getD now)) (dateParse grant.expiresAt)

def activeBreakGlassGrant (input : PolicyEvaluationInput) : Option ActiveBreakGlassGrant :=
  if !isBreakGlassEligibleAction input.action then none
  else (input.breakGlassGrants.getD []).find? (grantMatches dateParse now input)

/-- The loop over the assignments: the first that matches and has the capability. -/
def grantingAssignment (input : PolicyEvaluationInput) : Option ScopedPolicyAssignment :=
  (input.assignments.getD [] ++ claimedRoleAssignments input).find? fun assignment =>
    assignmentMatches assignment input && (capabilitiesForRole assignment.role).contains input.action

/-- What `evaluatePolicy` does once the application of the principal has passed. -/
def evaluateGrants (input : PolicyEvaluationInput) : PolicyDecision :=
  match grantingAssignment input with
  | some assignment => .role assignment.id
  | none =>
    match activeBreakGlassGrant dateParse now input with
    | some grant => .breakGlass grant.id grant.reason
    | none => .denied .noMatchingAssignment

def evaluatePolicy (input : PolicyEvaluationInput) : PolicyDecision :=
  if input.principal.type = .application then
    match registeredApplication input with
    | none => .denied .unregisteredApplication
    | some application =>
      if application.capabilities.any (· == input.action.text) then
        evaluateGrants dateParse now input
      else .denied .applicationCapabilityDenied
  else evaluateGrants dateParse now input

end Evaluation

end TrustCore.Policy
