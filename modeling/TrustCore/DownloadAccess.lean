import TrustCore.PolicyIsolation
import TrustCore.StorageRouter

/-!
# Two authorizations of a download

The route of a download grant asks the access service, which loads the assignments,
applications and grants of the workspace. The command then evaluates the policy again on
an input of its own, which has the claims of the actor and nothing else. The second
evaluation agrees with the first only where the claims alone decide.
-/

namespace TrustCore.Policy

open TrustCore.Utf

structure AuthenticatedActor where
  id : JsString
  principalType : Option PrincipalType
  roles : List JsString
  workspaceIds : List JsString

def actorPrincipalType (actor : AuthenticatedActor) : PrincipalType :=
  actor.principalType.getD .user

structure AuthorizationScope extends PolicyScope where
  requestId : Option JsString
  applicationScopeAllowed : Option Bool

structure BreakGlassUse where
  workspaceId : JsString
  principalId : JsString
  grantId : JsString
  action : PolicyAction
  reason : JsString
  requestId : Option JsString
  occurredAt : JsString

/-- What the access service reads of a workspace. -/
structure PolicyDataSource where
  listApplications : (workspaceId : JsString) → List RegisteredApplication
  listPolicyAssignments : (workspaceId principalId : JsString) → List ScopedPolicyAssignment
  listActiveBreakGlassGrants : (workspaceId «at» principalId : JsString) →
    List ActiveBreakGlassGrant
  recordsBreakGlassUse : Bool

section Access

variable (dateParse : JsString → Option Int) (policies : Option PolicyDataSource)
  («at» : JsString) (actor : AuthenticatedActor) (action : PolicyAction)
  (scope : AuthorizationScope)

def loadedApplications : List RegisteredApplication :=
  policies.elim [] fun p => p.listApplications scope.workspaceId

/-- The application that `allows` takes an application principal for. -/
def actingApplication : Option RegisteredApplication :=
  if actorPrincipalType actor = .application then
    (loadedApplications policies scope).find? fun candidate =>
      candidate.workspaceId == scope.workspaceId && candidate.status == .active &&
        (candidate.id == actor.id || candidate.«namespace» == actor.id)
  else none

/-- The input of the evaluation in `allows`. -/
def accessPolicyInput : PolicyEvaluationInput where
  principal := ⟨actor.id, actorPrincipalType actor, some actor.roles, some actor.workspaceIds⟩
  action := action
  scope :=
    { workspaceId := scope.workspaceId
      datasetId := truthy scope.datasetId
      applicationId :=
        if scope.applicationScopeAllowed = some true then
          (actingApplication policies actor scope).map (·.id)
        else none }
  assignments := some
    (policies.elim [] fun p => p.listPolicyAssignments scope.workspaceId actor.id)
  applications := some (loadedApplications policies scope)
  breakGlassGrants := some
    (policies.elim [] fun p => p.listActiveBreakGlassGrants scope.workspaceId «at» actor.id)
  «at» := some «at»

/-- The answer of the access service, and the use of a grant that it records. -/
def allows : Bool × Option BreakGlassUse :=
  if actorPrincipalType actor = .application ∧ ((actingApplication policies actor scope).isNone ∨
      scope.applicationScopeAllowed ≠ some true ∨
      scope.applicationId.any fun id => (actingApplication policies actor scope).map (·.id) != some id)
  then (false, none)
  else
    let decision := evaluatePolicy dateParse «at» (accessPolicyInput policies «at» actor action scope)
    (decision.allowed,
      match decision with
      | .breakGlass grantId reason =>
        if policies.any (·.recordsBreakGlassUse) then
          some
            { workspaceId := scope.workspaceId
              principalId := actor.id
              grantId := grantId
              action := action
              reason := reason
              requestId := truthy scope.requestId
              occurredAt := «at» }
        else none
      | _ => none)

end Access

/-! ## The grant command -/

structure TransferTarget where
  workspaceId : JsString
  objectId : JsString
  storageKey : JsString
  downloadable : Bool
  quarantineState : Option JsString

structure SignedTransfer where
  url : JsString
  headers : List (JsString × JsString)

/-- `signDownload` of a signer: it may throw a message, or something that is no error. -/
abbrev TransferSigner :=
  (storageKey expiresAt : JsString) → (fileName : Option JsString) →
    Except (Option JsString) SignedTransfer

structure IssueTransferGrantInput where
  workspaceId : JsString
  target : TransferTarget
  requestedTtlSeconds : Int
  fileName : Option JsString
  signer : Option TransferSigner
  policyInput : PolicyEvaluationInput

structure ClientTransferGrant where
  grantId : JsString
  objectId : JsString
  workspaceId : JsString
  expiresAt : JsString
  transfer : SignedTransfer

structure GrantDenied where
  code : String
  message : JsString

def DenialReason.text : DenialReason → JsString
  | .unregisteredApplication => js "unregistered_application"
  | .applicationCapabilityDenied => js "application_capability_denied"
  | .noMatchingAssignment => js "no_matching_assignment"

def blockedDownloadStates : List JsString :=
  [js "pending_upload", js "uploaded", js "scan_queued", js "scanning", js "rejected",
    js "manual_review", js "quarantined", js "failed"]

/-- `looksLikeClientKeyInjection`; an id that has the prefix of a key also has a slash. -/
def looksLikeClientKeyInjection (objectId : JsString) : Bool :=
  objectId.contains 47 || decide (js ".." <:+: objectId)

def isFileNameUnit (u : UInt16) : Bool :=
  decide (48 ≤ u.toNat ∧ u.toNat ≤ 57) || decide (65 ≤ u.toNat ∧ u.toNat ≤ 90) ||
    decide (97 ≤ u.toNat ∧ u.toNat ≤ 122) || [95, 46, 45, 32, 40, 41, 91, 93].contains u.toNat

/-- Every run of units that a file name may not have becomes one underscore. -/
def replaceRuns : (inRun : Bool) → JsString → JsString
  | _, [] => []
  | inRun, u :: rest =>
    if isFileNameUnit u then u :: replaceRuns false rest
    else if inRun then replaceRuns true rest
    else 95 :: replaceRuns true rest

def sanitizeFileName (fileName : JsString) : JsString := (replaceRuns false fileName).take 180

/-- What `issue` has from its service and its process. -/
structure GrantService where
  maxTtlSeconds : Int
  signer : TransferSigner
  grantId : JsString
  now : JsString
  /-- The text of the clock's reading and some seconds. -/
  expiresAfter : (seconds : Int) → JsString
  redactSensitive : JsString → JsString

section Grant

variable (dateParse : JsString → Option Int)

/-- The evaluation that `issue` repeats. -/
def grantDecision (service : GrantService) (input : IssueTransferGrantInput) : PolicyDecision :=
  evaluatePolicy dateParse service.now { input.policyInput with
    action := .blobRead
    scope := { input.policyInput.scope with workspaceId := input.workspaceId } }

/-- `TransferGrantService.issue` of a download; it writes nothing but audit records. -/
def issue (service : GrantService) (input : IssueTransferGrantInput) :
    Except GrantDenied ClientTransferGrant :=
  if (Dynamic.trim input.workspaceId).isEmpty then
    .error ⟨"missing_workspace", js "Workspace context is required"⟩
  else if input.target.workspaceId ≠ input.workspaceId then
    .error ⟨"workspace_mismatch", js "Transfer target workspace does not match request workspace"⟩
  else if looksLikeClientKeyInjection input.target.objectId then
    .error ⟨"invalid_object", js "Object identifier must be provider-neutral"⟩
  else
    match grantDecision dateParse service input with
    | .denied reason => .error ⟨"policy_denied", reason.text⟩
    | _ =>
      if !input.target.downloadable || input.target.quarantineState.any blockedDownloadStates.contains
      then .error ⟨"not_downloadable", js "Object is not available for canonical download"⟩
      else if input.requestedTtlSeconds ≤ 0 then
        .error ⟨"invalid_ttl", js "Requested TTL must be positive"⟩
      else
        let ttlSeconds := min input.requestedTtlSeconds service.maxTtlSeconds
        let expiresAt := service.expiresAfter ttlSeconds
        match (input.signer.getD service.signer) input.target.storageKey expiresAt
          ((truthy input.fileName).map sanitizeFileName) with
        | .error thrown =>
          .error ⟨"signer_failed", service.redactSensitive
            (thrown.getD (js "Transfer signer failed"))⟩
        | .ok transfer =>
          .ok ⟨service.grantId, input.target.objectId, input.workspaceId, expiresAt, transfer⟩

end Grant

/-! ## The command -/

section Command

open TrustCore.AppStorage
open TrustCore.ObjectIngest (BlobObject)

structure CreateDownloadGrantCommand where
  workspaceId : JsString
  objectId : JsString
  requestedTtlSeconds : Int
  fileName : Option JsString

/-- What the command provider has for downloads; `forDownload` is that of its router. -/
structure DownloadCommands where
  grantService : Option GrantService
  findById : (workspaceId id : JsString) → Option BlobObject
  forDownload : Option (JsString → BlobObject →
    Except StorageError (DownloadStorageRoute TransferSigner))

variable (dateParse : JsString → Option Int)

/-- The input that `createDownloadGrant` hands to `issue`. -/
def downloadIssueInput (actor : AuthenticatedActor) (command : CreateDownloadGrantCommand)
    (blob : BlobObject) (signerOverride : Option TransferSigner) : IssueTransferGrantInput :=
  let downloadable := blob.verificationState == .verified
  { workspaceId := command.workspaceId
    target :=
      { workspaceId := command.workspaceId
        objectId := blob.id
        storageKey := blob.storageKey
        downloadable := downloadable
        quarantineState := if downloadable then none else some (js "quarantined") }
    requestedTtlSeconds := command.requestedTtlSeconds
    fileName := truthy command.fileName
    signer := signerOverride
    policyInput :=
      { principal := ⟨actor.id, actorPrincipalType actor, some actor.roles, some actor.workspaceIds⟩
        action := .blobRead
        scope := ⟨command.workspaceId, none, none⟩
        assignments := none
        applications := none
        breakGlassGrants := none
        «at» := none } }

/-- The signer that the router of the bindings has for a blob. -/
def DownloadCommands.signerOverride (commands : DownloadCommands)
    (command : CreateDownloadGrantCommand) (blob : BlobObject) :
    Except StorageError (Option TransferSigner) :=
  match commands.forDownload with
  | none => .ok none
  | some forDownload => (forDownload command.workspaceId blob).map (·.signer)

def createDownloadGrant (commands : DownloadCommands) (actor : AuthenticatedActor)
    (command : CreateDownloadGrantCommand) : Except StorageError ClientTransferGrant :=
  match commands.grantService with
  | none => .error ⟨some "COMMAND_BOUNDARY_UNAVAILABLE",
      js "Download grants require a configured transfer signer."⟩
  | some grantService =>
    match commands.findById command.workspaceId command.objectId with
    | none => .error ⟨some "OPERATION_NOT_FOUND", js "Blob object was not found."⟩
    | some blob =>
      match commands.signerOverride command blob with
      | .error thrown => .error thrown
      | .ok signerOverride =>
        match issue dateParse grantService
          (downloadIssueInput actor command blob signerOverride) with
        | .error denied => .error ⟨some "PERMISSION_DENIED", denied.message⟩
        | .ok grant => .ok grant

/-- The scope in which the route of the command asks the access service. -/
def downloadScope (workspaceId : JsString) (requestId : Option JsString) : AuthorizationScope where
  workspaceId := workspaceId
  datasetId := none
  applicationId := none
  requestId := truthy requestId
  applicationScopeAllowed := some true

/-! ## Where the two agree -/

section Authorities

variable (now : JsString)

/-- The roles that the actor claims give the action in the workspace. -/
def ClaimsAction (actor : AuthenticatedActor) (action : PolicyAction) (workspaceId : JsString) :
    Prop :=
  workspaceId ∈ actor.workspaceIds ∧ ∃ role ∈ actor.roles, action ∈ capabilitiesForRole role

/-- A stored assignment gives the action, or a grant in force does. -/
def StoredAuthority (input : PolicyEvaluationInput) : Prop :=
  (∃ a ∈ input.assignments.getD [], grantsAction input a = true) ∨
    isBreakGlassEligibleAction input.action = true ∧
      ∃ g ∈ input.breakGlassGrants.getD [], grantMatches dateParse now input g = true

variable {dateParse now}

theorem mem_claimedRoleAssignments {input : PolicyEvaluationInput}
    {a : ScopedPolicyAssignment} (h : a ∈ claimedRoleAssignments input) :
    input.scope.workspaceId ∈ input.principal.workspaceIds.getD [] ∧
      a.role ∈ input.principal.roles.getD [] := by
  rw [claimedRoleAssignments] at h
  split at h
  · next hworkspace =>
    obtain ⟨i, hi, ha⟩ := List.mem_mapIdx.mp h
    rw [← ha]
    exact ⟨List.contains_iff_mem.mp hworkspace, List.getElem_mem hi⟩
  · cases h

theorem exists_claimedRoleAssignment {input : PolicyEvaluationInput} {role : JsString}
    (hworkspace : input.scope.workspaceId ∈ input.principal.workspaceIds.getD [])
    (hrole : role ∈ input.principal.roles.getD []) :
    ∃ a ∈ claimedRoleAssignments input, a.role = role ∧ assignmentMatches a input = true := by
  obtain ⟨i, hi, hget⟩ := List.getElem_of_mem hrole
  rw [claimedRoleAssignments, if_pos (List.contains_iff_mem.mpr hworkspace)]
  refine ⟨_, List.mem_mapIdx.mpr ⟨i, hi, rfl⟩, hget, ?_⟩
  simp [assignmentMatches, isRevoked]

/-- The claimed assignments give what the claimed roles give, in any scope of the workspace. -/
theorem claimed_grants_iff {actor : AuthenticatedActor} {input : PolicyEvaluationInput}
    (hroles : input.principal.roles = some actor.roles)
    (hids : input.principal.workspaceIds = some actor.workspaceIds) :
    (∃ a ∈ claimedRoleAssignments input, grantsAction input a = true) ↔
      ClaimsAction actor input.action input.scope.workspaceId := by
  constructor
  · rintro ⟨a, ha, hgrants⟩
    rw [grantsAction, Bool.and_eq_true] at hgrants
    obtain ⟨hworkspace, hrole⟩ := mem_claimedRoleAssignments ha
    rw [hids] at hworkspace
    rw [hroles] at hrole
    exact ⟨hworkspace, a.role, hrole, List.contains_iff_mem.mp hgrants.2⟩
  · rintro ⟨hworkspace, role, hrole, haction⟩
    have hclaims : input.scope.workspaceId ∈ input.principal.workspaceIds.getD [] := by
      rw [hids]
      exact hworkspace
    have hclaimed : role ∈ input.principal.roles.getD [] := by
      rw [hroles]
      exact hrole
    obtain ⟨a, ha, hname, hmatches⟩ := exists_claimedRoleAssignment hclaims hclaimed
    refine ⟨a, ha, ?_⟩
    rw [grantsAction, hmatches, hname, Bool.true_and]
    exact List.contains_iff_mem.mpr haction

theorem granted_iff_claims_or_stored {actor : AuthenticatedActor} {input : PolicyEvaluationInput}
    (hroles : input.principal.roles = some actor.roles)
    (hids : input.principal.workspaceIds = some actor.workspaceIds) :
    Granted dateParse now input ↔
      ClaimsAction actor input.action input.scope.workspaceId ∨
        StoredAuthority dateParse now input := by
  rw [← claimed_grants_iff hroles hids, Granted, StoredAuthority]
  simp only [List.mem_append, or_and_right, exists_or]
  exact or_assoc.trans or_left_comm

end Authorities

section Agreement

variable (policies : Option PolicyDataSource) («at» : JsString) (actor : AuthenticatedActor)
  (command : CreateDownloadGrantCommand) (requestId : Option JsString)

/-- What `allows` loads for the route of the command. -/
def downloadAccessInput : PolicyEvaluationInput :=
  accessPolicyInput policies «at» actor .blobRead (downloadScope command.workspaceId requestId)

/-- The application that is behind the actor in the workspace of the command. -/
def downloadApplication : Option RegisteredApplication :=
  actingApplication policies actor (downloadScope command.workspaceId requestId)

/-- Where the route lets the download through the evaluation of the command allows it, and
where the route refuses it the command issues nothing. -/
def AuthorizationsAgree : Prop :=
  ((allows dateParse policies «at» actor .blobRead
      (downloadScope command.workspaceId requestId)).1 = true →
    ∀ service blob signerOverride, (grantDecision dateParse service
      (downloadIssueInput actor command blob signerOverride)).allowed = true) ∧
  ((allows dateParse policies «at» actor .blobRead
      (downloadScope command.workspaceId requestId)).1 = false →
    ∀ commands grant, createDownloadGrant dateParse commands actor command ≠ .ok grant)

/-- The claims of the actor decide: the stored records give nothing that they do not give,
and no application that may read blobs has an authority for it. -/
def ClaimsDecide : Prop :=
  if actorPrincipalType actor = .application then
    (∀ a, downloadApplication policies actor command requestId = some a →
      PolicyAction.blobRead.text ∉ a.capabilities) ∨
      ¬ ClaimsAction actor .blobRead command.workspaceId ∧
        ¬ StoredAuthority dateParse «at» (downloadAccessInput policies «at» actor command requestId)
  else
    StoredAuthority dateParse «at» (downloadAccessInput policies «at» actor command requestId) →
      ClaimsAction actor .blobRead command.workspaceId

variable {dateParse policies «at» actor command requestId}

theorem allows_iff :
    (allows dateParse policies «at» actor .blobRead
        (downloadScope command.workspaceId requestId)).1 = true ↔
      (actorPrincipalType actor = .application →
        ∃ a, downloadApplication policies actor command requestId = some a ∧
          PolicyAction.blobRead.text ∈ a.capabilities) ∧
      (ClaimsAction actor .blobRead command.workspaceId ∨
        StoredAuthority dateParse «at»
          (downloadAccessInput policies «at» actor command requestId)) := by
  have hgranted : Granted dateParse «at» (downloadAccessInput policies «at» actor command requestId) ↔
      ClaimsAction actor .blobRead command.workspaceId ∨ StoredAuthority dateParse «at»
        (downloadAccessInput policies «at» actor command requestId) :=
    granted_iff_claims_or_stored rfl rfl
  have hdecision : (evaluatePolicy dateParse «at»
      (downloadAccessInput policies «at» actor command requestId)).allowed = true ↔ _ :=
    evaluatePolicy_allowed
  rw [hgranted] at hdecision
  by_cases htype : actorPrincipalType actor = .application
  · have hregistered : registeredApplication (downloadAccessInput policies «at» actor command
        requestId) = downloadApplication policies actor command requestId := by
      rw [downloadApplication, actingApplication, if_pos htype]
      rfl
    rw [hregistered] at hdecision
    cases happlication : downloadApplication policies actor command requestId with
    | none =>
      have hrefused : (allows dateParse policies «at» actor .blobRead
          (downloadScope command.workspaceId requestId)).1 = false := by
        rw [downloadApplication] at happlication
        rw [allows, if_pos ⟨htype, .inl (by rw [happlication]; rfl)⟩]
      rw [hrefused]
      simp [htype]
    | some a =>
      have hasked : (allows dateParse policies «at» actor .blobRead
          (downloadScope command.workspaceId requestId)).1 =
          (evaluatePolicy dateParse «at»
            (downloadAccessInput policies «at» actor command requestId)).allowed := by
        rw [downloadApplication] at happlication
        have hallowed : (downloadScope command.workspaceId requestId).applicationScopeAllowed =
          some true := rfl
        have hid : (downloadScope command.workspaceId requestId).applicationId = none := rfl
        rw [allows, if_neg (by simp [happlication, hallowed, hid])]
        rfl
      rw [hasked, hdecision, happlication]
      rfl
  · have hasked : (allows dateParse policies «at» actor .blobRead
        (downloadScope command.workspaceId requestId)).1 =
        (evaluatePolicy dateParse «at»
          (downloadAccessInput policies «at» actor command requestId)).allowed := by
      rw [allows, if_neg fun h => htype h.1]
      rfl
    rw [hasked, hdecision]
    simp [htype, downloadAccessInput, accessPolicyInput, downloadScope]

theorem grantDecision_allowed_iff {service : GrantService} {blob : BlobObject}
    {signerOverride : Option TransferSigner} :
    (grantDecision dateParse service
        (downloadIssueInput actor command blob signerOverride)).allowed = true ↔
      actorPrincipalType actor ≠ .application ∧
        ClaimsAction actor .blobRead command.workspaceId := by
  have hgranted : Granted dateParse service.now
      (downloadIssueInput actor command blob signerOverride).policyInput ↔
      ClaimsAction actor .blobRead command.workspaceId ∨ StoredAuthority dateParse service.now
        (downloadIssueInput actor command blob signerOverride).policyInput :=
    granted_iff_claims_or_stored rfl rfl
  have hstored : ¬ StoredAuthority dateParse service.now
      (downloadIssueInput actor command blob signerOverride).policyInput := by
    simp [StoredAuthority, downloadIssueInput]
  have hunregistered : registeredApplication
      (downloadIssueInput actor command blob signerOverride).policyInput = none := rfl
  have hsame : grantDecision dateParse service
      (downloadIssueInput actor command blob signerOverride) = evaluatePolicy dateParse service.now
        (downloadIssueInput actor command blob signerOverride).policyInput := rfl
  rw [hsame, evaluatePolicy_allowed, hgranted, or_iff_left hstored, hunregistered]
  refine and_congr_left fun _ => ?_
  simp [downloadIssueInput]

theorem allowed_of_issue {service : GrantService} {input : IssueTransferGrantInput}
    {grant : ClientTransferGrant} (h : issue dateParse service input = .ok grant) :
    (grantDecision dateParse service input).allowed = true := by
  rw [issue] at h
  split at h
  · cases h
  · split at h
    · cases h
    · split at h
      · cases h
      · cases hdecision : grantDecision dateParse service input with
        | role assignmentId => rfl
        | breakGlass grantId reason => rfl
        | denied reason =>
          rw [hdecision] at h
          cases h

/-- The command issues only what its own evaluation allows. -/
theorem allowed_of_createDownloadGrant {commands : DownloadCommands} {grant : ClientTransferGrant}
    (h : createDownloadGrant dateParse commands actor command = .ok grant) :
    ∃ service blob signerOverride, (grantDecision dateParse service
      (downloadIssueInput actor command blob signerOverride)).allowed = true := by
  rw [createDownloadGrant] at h
  split at h
  · cases h
  · next service _ =>
    split at h
    · cases h
    · next blob _ =>
      split at h
      · cases h
      · next signerOverride _ =>
        split at h
        · cases h
        · next hissue => exact ⟨service, blob, signerOverride, allowed_of_issue hissue⟩

/-- Whoever the command serves was let through by the route. -/
theorem allowed_of_grantDecision {service : GrantService} {blob : BlobObject}
    {signerOverride : Option TransferSigner}
    (h : (grantDecision dateParse service
      (downloadIssueInput actor command blob signerOverride)).allowed = true) :
    (allows dateParse policies «at» actor .blobRead
      (downloadScope command.workspaceId requestId)).1 = true := by
  obtain ⟨htype, hclaims⟩ := grantDecision_allowed_iff.mp h
  exact allows_iff.mpr ⟨fun happlication => absurd happlication htype, .inl hclaims⟩

end Agreement

/-- A signer that signs everything, and a service and a blob to ask with. -/
def openService : GrantService where
  maxTtlSeconds := 900
  signer := fun _ _ _ => .ok ⟨js "https://transfer.example", []⟩
  grantId := js "grant"
  now := js "2026-01-01T00:00:00.000Z"
  expiresAfter := fun _ => js "2026-01-01T00:05:00.000Z"
  redactSensitive := id

def verifiedBlob : BlobObject where
  id := js "blob"
  workspaceId := js "w"
  sha256 := js "aa"
  byteLength := 1
  mediaType := js "text/plain"
  storageProvider := js "s3"
  storageKey := js "workspaces/w/objects/aa/aa"
  encryptionState := .providerManaged
  encryptionKeyRef := none
  verificationState := .verified
  createdAt := js "2026-01-01T00:00:00.000Z"
  storageBindingId := none
  storageBindingGeneration := none

/-- The route and the command authorize the same downloads exactly if the claims of the actor
decide. -/
theorem authorizations_agree_iff (dateParse : JsString → Option Int)
    (policies : Option PolicyDataSource) («at» : JsString) (actor : AuthenticatedActor)
    (command : CreateDownloadGrantCommand) (requestId : Option JsString) :
    AuthorizationsAgree dateParse policies «at» actor command requestId ↔
      ClaimsDecide dateParse policies «at» actor command requestId := by
  constructor
  · rintro ⟨hagree, -⟩
    have hdecide : (actorPrincipalType actor = .application →
        ∃ a, downloadApplication policies actor command requestId = some a ∧
          PolicyAction.blobRead.text ∈ a.capabilities) →
        (ClaimsAction actor .blobRead command.workspaceId ∨ StoredAuthority dateParse «at»
          (downloadAccessInput policies «at» actor command requestId)) →
        actorPrincipalType actor ≠ .application ∧
          ClaimsAction actor .blobRead command.workspaceId := fun happlication hauthority =>
      grantDecision_allowed_iff.mp
        (hagree (allows_iff.mpr ⟨happlication, hauthority⟩) openService verifiedBlob none)
    rw [ClaimsDecide]
    split
    · next htype =>
      by_contra hnot
      push Not at hnot
      obtain ⟨⟨a, ha, hcapable⟩, hauthority⟩ := hnot
      refine (hdecide (fun _ => ⟨a, ha, hcapable⟩) ?_).1 htype
      by_cases hclaims : ClaimsAction actor .blobRead command.workspaceId
      · exact .inl hclaims
      · exact .inr (hauthority hclaims)
    · next htype =>
      intro hstored
      exact (hdecide (fun h => absurd h htype) (.inr hstored)).2
  · intro hclaims
    constructor
    · intro hallowed service blob signerOverride
      obtain ⟨happlication, hauthority⟩ := allows_iff.mp hallowed
      rw [grantDecision_allowed_iff]
      rw [ClaimsDecide] at hclaims
      split at hclaims
      · next htype =>
        obtain ⟨a, ha, hcapable⟩ := happlication htype
        obtain hincapable | ⟨hno, hnone⟩ := hclaims
        · exact absurd hcapable (hincapable a ha)
        · exact absurd hauthority (by rw [not_or]; exact ⟨hno, hnone⟩)
      · next htype => exact ⟨htype, hauthority.elim id hclaims⟩
    · intro hdenied commands grant hgrant
      obtain ⟨service, blob, signerOverride, hdecision⟩ := allowed_of_createDownloadGrant hgrant
      rw [allowed_of_grantDecision hdecision] at hdenied
      cases hdenied

/-- A user of the workspace who is editor by a stored assignment and claims no role. -/
def assignedEditor : AuthenticatedActor := ⟨js "u", some .user, [], [js "w"]⟩

def editorAssignments : PolicyDataSource where
  listApplications := fun _ => []
  listPolicyAssignments := fun _ _ =>
    [⟨js "p", js "w", .user, js "u", js "editor", .workspace, js "w", none⟩]
  listActiveBreakGlassGrants := fun _ _ _ => []
  recordsBreakGlassUse := true

def editorDownload : CreateDownloadGrantCommand := ⟨js "w", js "blob", 300, none⟩

def openCommands : DownloadCommands := ⟨some openService, fun _ _ => some verifiedBlob, none⟩

/-- The route lets the editor through, and the command refuses the same request. -/
theorem assigned_editor_refused :
    (allows (fun _ => none) (some editorAssignments) [] assignedEditor .blobRead
      (downloadScope (js "w") none)).1 = true ∧
    (createDownloadGrant (fun _ => none) openCommands assignedEditor editorDownload).map
      (·.grantId) = .error ⟨some "PERMISSION_DENIED", js "no_matching_assignment"⟩ ∧
    ¬ AuthorizationsAgree (fun _ => none) (some editorAssignments) [] assignedEditor editorDownload
      none := by
  have hallowed : (allows (fun _ => none) (some editorAssignments) [] assignedEditor .blobRead
      (downloadScope (js "w") none)).1 = true := by decide
  refine ⟨hallowed, by decide, ?_⟩
  rintro ⟨hagree, -⟩
  have hdecision := hagree hallowed openService verifiedBlob none
  revert hdecision
  decide

end Command

end TrustCore.Policy
