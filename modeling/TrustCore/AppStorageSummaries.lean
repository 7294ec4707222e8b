import TrustCore.AppStorage
import TrustCore.Json
import TrustCore.Patterns

/-!
# Summaries of application storage

The effective storage of a tenant and the rollup of a workspace, and the check of
`assertNoSecrets`, which every payload passes as JSON text before it is returned. The
text is cut at its punctuation, so a payload fails exactly when a part of it does.
-/

namespace TrustCore.AppStorage

open TrustCore.Utf TrustCore.KeyedMaps TrustCore.Json TrustCore.Numbers TrustCore.Patterns

structure EffectiveStorageSummary where
  scope : StorageScope
  status : ResolvedStatus
  inheritedFrom : StorageInheritedFrom
  binding : Option StorageBindingSummary
  provider : Option StorageProviderName
  tier : Option StorageBindingTier
  region : Option JsString
  bucket : Option JsString
  bucketPrefix : Option JsString
  credentialMode : Option StorageBindingCredentialMode
  cataloguedObjects : Nat
  failedVerificationObjects : Nat
  costPosture : StorageCostPosture
  planSyncState : StoragePlanSyncState
  declaredCapacityBytes : Option Int
  observedUsageBytes : Option Int
  observedQuotaBytes : Option Int
  deriving DecidableEq

inductive PlatformStatus where
  | healthy
  | degraded
  | notConfigured
  deriving DecidableEq

structure ApplicationName where
  id : JsString
  name : JsString

structure TopIssue where
  applicationTenantId : Option JsString
  externalTenantKey : Option JsString
  issueClass : Option JsString
  summary : JsString

structure ApplicationRollup where
  applicationId : JsString
  applicationName : JsString
  connected : Nat
  attention : Nat
  configured : Nat
  notSetUp : Nat
  topIssues : List TopIssue

structure StorageBindingRollup where
  platformStatus : PlatformStatus
  platformSummary : JsString
  applications : List ApplicationRollup
  attentionTotal : Nat

def StorageBindingStatus.text : StorageBindingStatus → String
  | .draft => "draft"
  | .awaitingCustomerRole => "awaiting_customer_role"
  | .configured => "configured"
  | .connected => "connected"
  | .needsAttention => "needs_attention"
  | .disabled => "disabled"
  | .migrating => "migrating"

/-- The summary of a route and its binding. -/
def ResolveResult.effective (resolved : ResolveResult) (binding : Option StorageBindingSummary) :
    EffectiveStorageSummary where
  scope := resolved.scope
  status := resolved.status
  inheritedFrom := resolved.inheritedFrom
  binding := binding
  provider := binding.map (·.profile.provider)
  tier := binding.map (·.profile.tier)
  region := binding.map (·.profile.region)
  bucket := binding.map (·.profile.bucket)
  bucketPrefix := binding.map (·.profile.bucketPrefix)
  credentialMode := binding.map (·.profile.credentialMode)
  cataloguedObjects := 0
  failedVerificationObjects := 0
  costPosture := (binding.map (·.costPosture)).getD .unknown
  planSyncState := (binding.map (·.planSyncState)).getD .unknown
  declaredCapacityBytes := binding.bind (·.profile.declaredCapacityBytes)
  observedUsageBytes := binding.bind (·.observedUsageBytes)
  observedQuotaBytes := binding.bind (·.observedQuotaBytes)

/-- What the engine throws on a binding that is `undefined`. -/
def undefinedBinding : StorageError :=
  ⟨none, js "Cannot read properties of undefined (reading 'profileId')"⟩

namespace Registry

/-- The binding of a route. -/
def boundSummary (r : Registry) (resolved : ResolveResult) :
    Except StorageError (Option StorageBindingSummary) :=
  match truthy resolved.bindingId with
  | none => .ok none
  | some bindingId =>
    match r.bindings.get bindingId with
    | none => .error undefinedBinding
    | some binding => (r.toSummary binding).map some

def effectiveSummary (r : Registry) (workspaceId applicationId : JsString)
    (applicationTenantId : Option JsString) : Except StorageError EffectiveStorageSummary :=
  let resolved := r.resolve
    { workspaceId := workspaceId
      applicationId := some applicationId
      applicationTenantId := truthy applicationTenantId
      externalTenantKey := none
      purpose := .probe
      blobStorageBindingId := none
      bindingGeneration := none }
  (r.boundSummary resolved).map resolved.effective

/-- The bindings of an application. -/
def related (r : Registry) (workspaceId applicationId : JsString) : List StoredStorageBinding :=
  r.bindings.values.filter fun b =>
    b.workspaceId == workspaceId && b.applicationId == applicationId

end Registry

def StoredStorageBinding.isConnected (b : StoredStorageBinding) : Bool := b.status == .connected

def StoredStorageBinding.isConfigured (b : StoredStorageBinding) : Bool :=
  b.status == .configured || b.status == .awaitingCustomerRole

def StoredStorageBinding.needsAttention (b : StoredStorageBinding) : Bool :=
  !b.isConnected && !b.isConfigured

namespace Registry

def issue (r : Registry) (b : StoredStorageBinding) : TopIssue where
  applicationTenantId := b.applicationTenantId
  externalTenantKey := ((truthy b.applicationTenantId).bind r.tenants.get).map (·.externalTenantKey)
  issueClass := b.lastIssueClass
  summary := b.lastProbeSummary.getD (js b.status.text)

def rollupApplication (r : Registry) (workspaceId : JsString) (app : ApplicationName) :
    ApplicationRollup :=
  let related := r.related workspaceId app.id
  { applicationId := app.id
    applicationName := app.name
    connected := related.countP (·.isConnected)
    attention := related.countP (·.needsAttention)
    configured := related.countP (·.isConfigured)
    notSetUp := if related.isEmpty then 1 else 0
    topIssues := ((related.filter (·.needsAttention)).map r.issue).take 5 }

def rollup (r : Registry) (workspaceId : JsString) (platformStatus : PlatformStatus)
    (platformSummary : JsString) (applications : List ApplicationName) : StorageBindingRollup :=
  let applications := applications.map (r.rollupApplication workspaceId)
  { platformStatus := platformStatus
    platformSummary := platformSummary
    applications := applications
    attentionTotal := (applications.map (·.attention)).sum }

end Registry

/-! ## The text of a payload -/

def objectText (members : List (String × JsString)) : JsString :=
  123 :: (joinComma (members.map fun m => memberText (js m.1, m.2)) ++ [125])

def arrayText (items : List JsString) : JsString := 91 :: (joinComma items ++ [93])

def nullable {α : Type} (text : α → JsString) (value : Option α) : JsString :=
  (value.map text).getD (js "null")

def boolText (b : Bool) : JsString := js (if b then "true" else "false")

def intText (n : Int) : JsString := numberText (ofDecimal ⟨decide (n < 0), n.natAbs, 0⟩)

def StorageProviderName.text : StorageProviderName → String
  | .minio => "minio"
  | .s3 => "s3"

def StorageBindingTier.text : StorageBindingTier → String
  | .managed => "managed"
  | .byob => "byob"
  | .premium => "premium"

def StorageBindingCredentialMode.text : StorageBindingCredentialMode → String
  | .platformIam => "platform_iam"
  | .crossAccountRole => "cross_account_role"
  | .staticKeysRef => "static_keys_ref"
  | .missing => "missing"

def StoragePlanSyncState.text : StoragePlanSyncState → String
  | .synced => "synced"
  | .driftDetected => "drift_detected"
  | .upgradeRecognised => "upgrade_recognised"
  | .unknown => "unknown"
  | .overCapacity => "over_capacity"

def StorageCostPosture.text : StorageCostPosture → String
  | .customerBilledByob => "customer_billed_byob"
  | .platformManaged => "platform_managed"
  | .unknown => "unknown"

def StorageInheritedFrom.text : StorageInheritedFrom → String
  | .platform => "platform"
  | .app => "app"
  | .none => "none"

def StorageScope.text : StorageScope → String
  | .platform => "platform"
  | .app => "app"
  | .tenant => "tenant"

def ResolvedStatus.text : ResolvedStatus → String
  | .notConfigured => "not_configured"
  | .of status => status.text

def PlatformStatus.text : PlatformStatus → String
  | .healthy => "healthy"
  | .degraded => "degraded"
  | .notConfigured => "not_configured"

/-- The text of a member of an enumeration. -/
def enumText (s : String) : JsString := quote (js s)

def StorageProfileSummary.text (p : StorageProfileSummary) : JsString :=
  objectText [("id", quote p.id), ("provider", enumText p.provider.text),
    ("region", quote p.region), ("bucket", quote p.bucket), ("prefix", quote p.bucketPrefix),
    ("tier", enumText p.tier.text), ("credentialMode", enumText p.credentialMode.text),
    ("expectedBucketOwner", nullable quote p.expectedBucketOwner),
    ("endpointHost", nullable quote p.endpointHost), ("roleArn", nullable quote p.roleArn),
    ("declaredPlanCode", nullable quote p.declaredPlanCode),
    ("declaredCapacityBytes", nullable intText p.declaredCapacityBytes)]

def StorageBindingSummary.text (b : StorageBindingSummary) : JsString :=
  objectText [("id", quote b.id), ("workspaceId", quote b.workspaceId),
    ("applicationId", quote b.applicationId),
    ("applicationTenantId", nullable quote b.applicationTenantId), ("profile", b.profile.text),
    ("status", enumText b.status.text), ("generation", intText b.generation),
    ("lastProbeOk", nullable boolText b.lastProbeOk),
    ("lastProbeAt", nullable quote b.lastProbeAt),
    ("lastProbeSummary", nullable quote b.lastProbeSummary),
    ("lastIssueClass", nullable quote b.lastIssueClass),
    ("planSyncState", enumText b.planSyncState.text),
    ("observedUsageBytes", nullable intText b.observedUsageBytes),
    ("observedQuotaBytes", nullable intText b.observedQuotaBytes),
    ("observedAt", nullable quote b.observedAt), ("disabled", boolText b.disabled),
    ("costPosture", enumText b.costPosture.text), ("createdAt", quote b.createdAt),
    ("updatedAt", quote b.updatedAt)]

def EffectiveStorageSummary.text (e : EffectiveStorageSummary) : JsString :=
  objectText [("scope", enumText e.scope.text), ("status", enumText e.status.text),
    ("inheritedFrom", enumText e.inheritedFrom.text),
    ("binding", nullable StorageBindingSummary.text e.binding),
    ("provider", nullable (fun p => enumText p.text) e.provider),
    ("tier", nullable (fun t => enumText t.text) e.tier), ("region", nullable quote e.region),
    ("bucket", nullable quote e.bucket), ("prefix", nullable quote e.bucketPrefix),
    ("credentialMode", nullable (fun m => enumText m.text) e.credentialMode),
    ("usage", objectText [("cataloguedObjects", intText e.cataloguedObjects),
      ("failedVerificationObjects", intText e.failedVerificationObjects)]),
    ("costPosture", enumText e.costPosture.text), ("planSyncState", enumText e.planSyncState.text),
    ("declaredCapacityBytes", nullable intText e.declaredCapacityBytes),
    ("observedUsageBytes", nullable intText e.observedUsageBytes),
    ("observedQuotaBytes", nullable intText e.observedQuotaBytes)]

def TopIssue.text (i : TopIssue) : JsString :=
  objectText [("applicationTenantId", nullable quote i.applicationTenantId),
    ("externalTenantKey", nullable quote i.externalTenantKey),
    ("issueClass", nullable quote i.issueClass), ("summary", quote i.summary)]

def ApplicationRollup.text (a : ApplicationRollup) : JsString :=
  objectText [("applicationId", quote a.applicationId),
    ("applicationName", quote a.applicationName), ("connected", intText a.connected),
    ("attention", intText a.attention), ("configured", intText a.configured),
    ("notSetUp", intText a.notSetUp), ("topIssues", arrayText (a.topIssues.map (·.text)))]

def StorageBindingRollup.text (u : StorageBindingRollup) : JsString :=
  objectText [("platformStatus", enumText u.platformStatus.text),
    ("platformSummary", quote u.platformSummary),
    ("applications", arrayText (u.applications.map (·.text))),
    ("attentionTotal", intText u.attentionTotal)]

/-! ## Secrets -/

/-- The characters of a word, in either case. -/
def word (s : JsString) : Pattern UInt16 := s.map fun c u => lowerUnit u == lowerUnit c

/-- `[0-9a-f-]` and `[0-9A-Z]`, in either case. -/
def isUuidUnit (u : UInt16) : Bool :=
  isDigit u || decide (97 ≤ (lowerUnit u).toNat ∧ (lowerUnit u).toNat ≤ 102) || u == 45

def isAlphanumeric (u : UInt16) : Bool :=
  isDigit u || decide (97 ≤ (lowerUnit u).toNat ∧ (lowerUnit u).toNat ≤ 122)

/-- The alternatives of the expression that `assertNoSecrets` tests for. -/
def secretPatterns : List (Pattern UInt16) :=
  [word (js "externalId" ++ [34, 58, 34]) ++ List.replicate 36 isUuidUnit,
    word (js "sessionToken"), word (js "secretAccessKey"),
    word (js "AKIA") ++ List.replicate 16 isAlphanumeric]

def leaks (text : JsString) : Bool := anyOccurs secretPatterns text

def assertNoSecrets (text : JsString) : Except StorageError Unit :=
  if leaks text then .error ⟨none, js "Secret material leaked into public payload"⟩ else .ok ()

def punctuation : List UInt16 := [44, 91, 93, 123, 125]

theorem secretPatterns_exclude : ∀ sep ∈ punctuation, ∀ p ∈ secretPatterns, p.Excludes sep := by
  decide

theorem leaks_cut {s : UInt16} (h : s ∈ punctuation) (t rest : JsString) :
    leaks (t ++ s :: rest) = (leaks t || leaks rest) :=
  anyOccurs_cut (secretPatterns_exclude s h) t rest

theorem leaks_nil : leaks [] = false := by decide

/-- Punctuation before and after a text makes no difference. -/
theorem leaks_enclosed {left right : UInt16} (hleft : left ∈ punctuation)
    (hright : right ∈ punctuation) (t : JsString) : leaks (left :: (t ++ [right])) = leaks t := by
  have hopen := leaks_cut hleft [] (t ++ [right])
  rw [List.nil_append] at hopen
  rw [hopen, leaks_cut hright, leaks_nil, Bool.false_or, Bool.or_false]

theorem leaks_joinComma (ts : List JsString) : leaks (joinComma ts) = ts.any leaks := by
  induction ts with
  | nil => exact leaks_nil
  | cons t ts ih =>
    cases ts with
    | nil => simp [joinComma]
    | cons t' ts =>
      have hcomma : (44 : UInt16) ∈ punctuation := by decide
      rw [joinComma, leaks_cut hcomma, ih, List.any_cons (a := t)]
      exact List.cons_ne_nil _ _

theorem leaks_arrayText (items : List JsString) : leaks (arrayText items) = items.any leaks := by
  rw [arrayText, leaks_enclosed (by decide) (by decide), leaks_joinComma]

theorem leaks_objectText (members : List (String × JsString)) :
    leaks (objectText members) = members.any fun m => leaks (memberText (js m.1, m.2)) := by
  rw [objectText, leaks_enclosed (by decide) (by decide), leaks_joinComma, List.any_map]
  rfl

theorem leaks_member_array (key : JsString) (items : List JsString) :
    leaks (memberText (key, arrayText items)) = (leaks (quote key ++ [58]) || items.any leaks) := by
  have hcut := leaks_cut (s := 91) (by decide) (quote key ++ [58]) (joinComma items ++ [93])
  have htext : memberText (key, arrayText items) =
      quote key ++ [58] ++ 91 :: (joinComma items ++ [93]) := by
    simp [memberText, arrayText]
  have hclose := leaks_cut (s := 93) (by decide) (joinComma items) []
  rw [htext, hcut, hclose, leaks_nil, Bool.or_false, leaks_joinComma]

def ApplicationRollup.counts (a : ApplicationRollup) : ApplicationRollup :=
  { a with topIssues := [] }

/-- The counts of a rollup. -/
def StorageBindingRollup.counts (u : StorageBindingRollup) : StorageBindingRollup :=
  { u with applications := u.applications.map (·.counts) }

/-- A rollup whose issues are free of secrets fails the check by the rest of it. -/
theorem leaks_counts {u : StorageBindingRollup}
    (h : ∀ a ∈ u.applications, ∀ i ∈ a.topIssues, leaks i.text = false) :
    leaks u.text = leaks u.counts.text := by
  have happlication : ∀ a ∈ u.applications, leaks a.text = leaks a.counts.text := by
    intro a ha
    have hissues : (a.topIssues.map (·.text)).any leaks = false := by
      rw [List.any_map, List.any_eq_false]
      intro i hi
      simp [h a ha i hi]
    simp only [ApplicationRollup.text, ApplicationRollup.counts, leaks_objectText, List.any_cons,
      List.any_nil, leaks_member_array, hissues, List.map_nil]
  have happlications : (u.applications.map (·.text)).any leaks =
      (u.counts.applications.map (·.text)).any leaks := by
    simp only [StorageBindingRollup.counts, List.map_map, List.any_map, Function.comp_def]
    rw [Bool.eq_iff_iff, List.any_eq_true, List.any_eq_true]
    constructor
    · rintro ⟨a, ha, hleaks⟩
      rw [happlication a ha] at hleaks
      exact ⟨a, ha, hleaks⟩
    · rintro ⟨a, ha, hleaks⟩
      rw [← happlication a ha] at hleaks
      exact ⟨a, ha, hleaks⟩
  simp only [StorageBindingRollup.text, leaks_objectText, List.any_cons, List.any_nil,
    leaks_member_array, happlications]
  simp only [StorageBindingRollup.counts]

end TrustCore.AppStorage
