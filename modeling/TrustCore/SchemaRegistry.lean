import TrustCore.JsonRoundTrip
import TrustCore.Methods
import TrustCore.Runs
import TrustCore.SchemaVersions
import TrustCore.StableSort

/-!
# The schema registry

`publishGoverned` publishes a manifest under the approval of a request, and returns the same
package when the request comes again. The packages are kept in the order of their publication;
the latest one of a name is looked up by its version.
-/

namespace TrustCore.SchemaRegistry

open TrustCore.Utf TrustCore.Json TrustCore.Dynamic TrustCore.SchemaPackages
open TrustCore.SchemaVersions TrustCore.Methods TrustCore.Runs

/-! ## Requests -/

structure ApplicationSchema where
  key : JsString
  version : JsString
  resourceTypes : List JsString
  relationTypes : List JsString
  additionalFields : UnknownFields

structure Application where
  namespaceName : JsString
  applicationVersion : JsString
  schemaPackage : ApplicationSchema

structure Approval where
  approvedBy : JsString
  approvalId : JsString

structure GovernedPublicationRequest where
  manifest : SchemaPackageManifest
  application : Application
  approval : Approval
  idempotencyKey : JsString
  expectedCompatibility : CompatibilityClassification

def protocolVersion : JsString := js "TCAP/1.0"

def ApplicationSchema.value (package : ApplicationSchema) : JsValue :=
  .object [(js "key", .string package.key), (js "version", .string package.version),
    (js "resourceTypes", strings package.resourceTypes),
    (js "relationTypes", strings package.relationTypes),
    (js "additionalFields", .string package.additionalFields.text)]

def GovernedPublicationRequest.value (request : GovernedPublicationRequest) : JsValue :=
  .object [(js "manifest", request.manifest.value),
    (js "application", .object [(js "protocolVersion", .string protocolVersion),
      (js "namespace", .string request.application.namespaceName),
      (js "applicationVersion", .string request.application.applicationVersion),
      (js "schemaPackage", request.application.schemaPackage.value)]),
    (js "approval", .object [(js "approvedBy", .string request.approval.approvedBy),
      (js "approvalId", .string request.approval.approvalId)]),
    (js "idempotencyKey", .string request.idempotencyKey),
    (js "expectedCompatibility", .string request.expectedCompatibility.text)]

/-- The members of a set, sorted and joined by NUL. -/
def normalized (values : List JsString) : JsString := List.intercalate [0] (sortUnits values.eraseDups)

def assertSameMembers (declared actual : List JsString) (label : String) : Except JsString Unit :=
  if normalized declared ≠ normalized actual then
    .error (js "TCAP " ++ js label ++ js " do not match the schema manifest.")
  else .ok ()

def assertGovernedRequest (request : GovernedPublicationRequest) : Except JsString Unit := do
  if (trim request.approval.approvedBy).isEmpty ∨ (trim request.approval.approvalId).isEmpty ∨
      (trim request.idempotencyKey).isEmpty then
    throw (js "Governed publication requires an approver, approval ID and idempotency key.")
  let manifest := request.manifest
  let application := request.application
  if application.namespaceName ≠ manifest.namespaceName ++ js "/" ++ manifest.name then
    throw (js "TCAP namespace does not own the schema package.")
  if application.schemaPackage.key ≠ schemaKey manifest ∨
      application.schemaPackage.version ≠ manifest.version then
    throw (js "TCAP schema identity does not match the publication.")
  assertSameMembers application.schemaPackage.resourceTypes (manifest.resourceTypes.map (·.name))
    "resource types"
  assertSameMembers application.schemaPackage.relationTypes (manifest.relationships.map (·.type))
    "relation types"
  if manifest.resourceTypes.any fun definition =>
      decide (definition.additionalFields ≠ application.schemaPackage.additionalFields) then
    throw (js "TCAP unknown-field policy does not match every resource type.")

/-- The first type that a relationship names and the manifest does not declare. -/
def unknownReference (names : List JsString) (relationships : List RelationshipDefinition) :
    Option (JsString × JsString) :=
  relationships.findSome? fun relation =>
    ((relation.sourceTypes ++ relation.targetTypes).find? (· ∉ names)).map fun type =>
      (relation.type, type)

def assertManifestReferences (manifest : SchemaPackageManifest) : Except JsString Unit :=
  let names := manifest.resourceTypes.map (·.name)
  if names.eraseDups.length ≠ names.length then .error (js "Resource type names must be unique")
  else
    match unknownReference names manifest.relationships with
    | some (relation, type) =>
      .error (js "Relationship " ++ relation ++ js " references unknown resource type " ++ type)
    | none => .ok ()

/-! ## The registry -/

structure PublicationGovernance where
  applicationNamespace : JsString
  applicationVersion : JsString
  approvedBy : JsString
  approvalId : JsString
  idempotencyKey : JsString

inductive PackageStatus where
  | active
  | deprecated
  | revoked

structure PublishedSchemaPackage where
  id : JsString
  key : JsString
  digest : JsString
  status : PackageStatus
  publishedAt : JsString
  manifest : SchemaPackageManifest
  governance : PublicationGovernance
  compatibility : CompatibilityReport

structure PublicationEntry where
  fingerprint : JsString
  packageKey : JsString

/-- Two maps, their entries in the order in which the keys were set first. -/
structure Registry where
  packages : List (JsString × PublishedSchemaPackage)
  publicationRequests : List (JsString × PublicationEntry)

def Registry.empty : Registry := ⟨[], []⟩

def Registry.get (registry : Registry) (key : JsString) : Option PublishedSchemaPackage :=
  registry.packages.lookup key

/-- The packages of one namespace and name, in the order of their publication. -/
def Registry.history (registry : Registry) (manifest : SchemaPackageManifest) :
    List PublishedSchemaPackage :=
  (registry.packages.map Prod.snd).filter fun candidate =>
    candidate.manifest.namespaceName == manifest.namespaceName &&
      candidate.manifest.name == manifest.name

section Methods

-- `left.localeCompare(right, undefined, { numeric: true })`.
variable (localeCompare : JsString → JsString → Int)

def Registry.latest (registry : Registry) (manifest : SchemaPackageManifest) :
    Option PublishedSchemaPackage :=
  ((registry.history manifest).insertionSort fun left right =>
    localeCompare right.manifest.version left.manifest.version ≤ 0).head?

abbrev RegistryMethod := Method Registry JsString

/-- The package that a manifest is published as. -/
def publishedPackage (manifest : SchemaPackageManifest) (publishedAt : JsString)
    (governance : PublicationGovernance) (compatibility : CompatibilityReport) :
    PublishedSchemaPackage where
  id := js "schema:" ++ schemaDigest manifest.value
  key := schemaKey manifest
  digest := schemaDigest manifest.value
  status := .active
  publishedAt := publishedAt
  manifest := manifest
  governance := governance
  compatibility := compatibility

def publish (manifest : SchemaPackageManifest) (publishedAt : JsString)
    (governance : PublicationGovernance) (compatibility : CompatibilityReport) :
    RegistryMethod PublishedSchemaPackage := do
  if !isSemver manifest.version then
    throw (js "Invalid semantic version: " ++ manifest.version)
  let key := schemaKey manifest
  if ((← get).get key).isSome then
    throw (js "Schema version already published: " ++ key)
  liftExcept (assertManifestReferences manifest)
  let published := publishedPackage manifest publishedAt governance compatibility
  modify fun registry => { registry with packages := setMember key published registry.packages }
  return published

def requestKey (request : GovernedPublicationRequest) : JsString :=
  request.application.namespaceName ++ js ":" ++ request.idempotencyKey

def GovernedPublicationRequest.governance (request : GovernedPublicationRequest) :
    PublicationGovernance where
  applicationNamespace := request.application.namespaceName
  applicationVersion := request.application.applicationVersion
  approvedBy := request.approval.approvedBy
  approvalId := request.approval.approvalId
  idempotencyKey := request.idempotencyKey

/-- A request that the log has is answered with what the map has under the key of its package. -/
def publishGoverned (request : GovernedPublicationRequest) (publishedAt : JsString) :
    RegistryMethod (Option PublishedSchemaPackage) := do
  liftExcept (assertGovernedRequest request)
  let fingerprint := schemaDigest request.value
  match (← get).publicationRequests.lookup (requestKey request) with
  | some replay =>
    if replay.fingerprint ≠ fingerprint then
      throw (js "Idempotency key was already used for a different schema publication.")
    return (← get).get replay.packageKey
  | none =>
    let previous := ((← get).latest localeCompare request.manifest).map (·.manifest)
    let compatibility ← liftExcept (classifyCompatibility previous request.manifest)
    if compatibility.classification ≠ request.expectedCompatibility then
      throw (js "Expected " ++ request.expectedCompatibility.text ++
        js " compatibility but classified " ++ compatibility.classification.text ++ js ".")
    liftExcept (assertVersionMatchesCompatibility previous request.manifest compatibility)
    let published ← publish request.manifest publishedAt request.governance compatibility
    modify fun registry =>
      { registry with
        publicationRequests := setMember (requestKey request) ⟨fingerprint, published.key⟩
          registry.publicationRequests }
    return some published

end Methods

/-! ## One call -/

section Call

variable {localeCompare : JsString → JsString → Int} {request : GovernedPublicationRequest}
  {publishedAt : JsString} {q r : Registry}

/-- The conditions under which a call publishes its manifest. -/
structure Publishes (localeCompare : JsString → JsString → Int) (r : Registry)
    (request : GovernedPublicationRequest) (compatibility : CompatibilityReport) : Prop where
  asserted : assertGovernedRequest request = .ok ()
  newRequest : r.publicationRequests.lookup (requestKey request) = none
  classified : classifyCompatibility ((r.latest localeCompare request.manifest).map (·.manifest))
    request.manifest = .ok compatibility
  expected : compatibility.classification = request.expectedCompatibility
  increases : assertVersionMatchesCompatibility
    ((r.latest localeCompare request.manifest).map (·.manifest)) request.manifest compatibility =
      .ok ()
  semver : isSemver request.manifest.version = true
  newPackage : r.packages.lookup (schemaKey request.manifest) = none
  references : assertManifestReferences request.manifest = .ok ()

def GovernedPublicationRequest.package (request : GovernedPublicationRequest)
    (publishedAt : JsString) (compatibility : CompatibilityReport) : PublishedSchemaPackage :=
  publishedPackage request.manifest publishedAt request.governance compatibility

def Registry.add (r : Registry) (request : GovernedPublicationRequest) (publishedAt : JsString)
    (compatibility : CompatibilityReport) : Registry where
  packages := r.packages ++
    [(schemaKey request.manifest, request.package publishedAt compatibility)]
  publicationRequests := r.publicationRequests ++
    [(requestKey request, ⟨schemaDigest request.value, schemaKey request.manifest⟩)]

theorem setMember_of_lookup {α : Type} {key : JsString} {value : α} {members : List (JsString × α)}
    (h : members.lookup key = none) : setMember key value members = members ++ [(key, value)] := by
  apply setMember_fresh
  intro hkey
  obtain ⟨member, hmember, rfl⟩ := List.mem_map.mp hkey
  simpa using List.lookup_eq_none_iff.mp h member hmember

/-- Two registries that give a call the same answers. -/
structure Alike (localeCompare : JsString → JsString → Int) (q r : Registry)
    (request : GovernedPublicationRequest) : Prop where
  package : q.packages.lookup (schemaKey request.manifest) =
    r.packages.lookup (schemaKey request.manifest)
  logged : q.publicationRequests.lookup (requestKey request) =
    r.publicationRequests.lookup (requestKey request)
  replay : ∀ entry, r.publicationRequests.lookup (requestKey request) = some entry →
    q.get entry.packageKey = r.get entry.packageKey
  latest : q.latest localeCompare request.manifest = r.latest localeCompare request.manifest

theorem Alike.refl : Alike localeCompare r r request := ⟨rfl, rfl, fun _ _ => rfl, rfl⟩

theorem publish_alike {manifest : SchemaPackageManifest} {governance : PublicationGovernance}
    {compatibility : CompatibilityReport}
    (h : q.packages.lookup (schemaKey manifest) = r.packages.lookup (schemaKey manifest)) :
    (∃ e, (publish manifest publishedAt governance compatibility).exec q = (.error e, q) ∧
      (publish manifest publishedAt governance compatibility).exec r = (.error e, r)) ∨
    (isSemver manifest.version = true ∧ r.packages.lookup (schemaKey manifest) = none ∧
      assertManifestReferences manifest = .ok () ∧
      (publish manifest publishedAt governance compatibility).exec q =
        (.ok (publishedPackage manifest publishedAt governance compatibility),
          { q with packages := q.packages ++ [(schemaKey manifest,
              publishedPackage manifest publishedAt governance compatibility)] }) ∧
      (publish manifest publishedAt governance compatibility).exec r =
        (.ok (publishedPackage manifest publishedAt governance compatibility),
          { r with packages := r.packages ++ [(schemaKey manifest,
              publishedPackage manifest publishedAt governance compatibility)] })) := by
  cases hsemver : isSemver manifest.version with
  | false =>
    refine .inl ⟨js "Invalid semantic version: " ++ manifest.version, ?_, ?_⟩
    · simp [publish, hsemver]
    · simp [publish, hsemver]
  | true =>
    cases hkey : r.packages.lookup (schemaKey manifest) with
    | some package =>
      refine .inl ⟨js "Schema version already published: " ++ schemaKey manifest, ?_, ?_⟩
      · simp [publish, hsemver, Method.exec_bind, Registry.get, h, hkey]
      · simp [publish, hsemver, Method.exec_bind, Registry.get, hkey]
    | none =>
      cases hreferences : assertManifestReferences manifest with
      | error e =>
        refine .inl ⟨e, ?_, ?_⟩
        · simp [publish, hsemver, Method.exec_bind, Registry.get, h, hkey, hreferences]
        · simp [publish, hsemver, Method.exec_bind, Registry.get, hkey, hreferences]
      | ok _ =>
        refine .inr ⟨rfl, rfl, rfl, ?_, ?_⟩
        · simp [publish, hsemver, Method.exec_bind, Method.exec_map, Registry.get, h, hkey,
            hreferences, setMember_of_lookup (h.trans hkey)]
        · simp [publish, hsemver, Method.exec_bind, Method.exec_map, Registry.get, hkey,
            hreferences, setMember_of_lookup hkey]

/-- A call throws, finds its request in the log or publishes, and does the same on both. -/
theorem publishGoverned_alike (publishedAt : JsString) (h : Alike localeCompare q r request) :
    (∃ e, (publishGoverned localeCompare request publishedAt).exec q = (.error e, q) ∧
      (publishGoverned localeCompare request publishedAt).exec r = (.error e, r)) ∨
    (assertGovernedRequest request = .ok () ∧
      ∃ replay, r.publicationRequests.lookup (requestKey request) = some replay ∧
        replay.fingerprint = schemaDigest request.value ∧
        (publishGoverned localeCompare request publishedAt).exec q =
          (.ok (r.get replay.packageKey), q) ∧
        (publishGoverned localeCompare request publishedAt).exec r =
          (.ok (r.get replay.packageKey), r)) ∨
    (∃ compatibility, Publishes localeCompare r request compatibility ∧
      (publishGoverned localeCompare request publishedAt).exec q =
        (.ok (some (request.package publishedAt compatibility)),
          q.add request publishedAt compatibility) ∧
      (publishGoverned localeCompare request publishedAt).exec r =
        (.ok (some (request.package publishedAt compatibility)),
          r.add request publishedAt compatibility)) := by
  cases hasserted : assertGovernedRequest request with
  | error e =>
    refine .inl ⟨e, ?_, ?_⟩
    · simp [publishGoverned, Method.exec_bind, hasserted]
    · simp [publishGoverned, Method.exec_bind, hasserted]
  | ok _ =>
    cases hreplay : r.publicationRequests.lookup (requestKey request) with
    | some replay =>
      have hget := h.replay replay hreplay
      by_cases hfingerprint : replay.fingerprint = schemaDigest request.value
      · refine .inr (.inl ⟨rfl, replay, rfl, hfingerprint, ?_, ?_⟩)
        · simp [publishGoverned, Method.exec_bind, Method.exec_map, hasserted, h.logged, hreplay,
            hfingerprint, hget]
        · simp [publishGoverned, Method.exec_bind, Method.exec_map, hasserted, hreplay,
            hfingerprint]
      · refine .inl
          ⟨js "Idempotency key was already used for a different schema publication.", ?_, ?_⟩
        · simp [publishGoverned, Method.exec_bind, hasserted, h.logged, hreplay, hfingerprint]
        · simp [publishGoverned, Method.exec_bind, hasserted, hreplay, hfingerprint]
    | none =>
      have hreplay' := h.logged.trans hreplay
      cases hclassified : classifyCompatibility
          ((r.latest localeCompare request.manifest).map (·.manifest)) request.manifest with
      | error e =>
        refine .inl ⟨e, ?_, ?_⟩
        · simp [publishGoverned, Method.exec_bind, hasserted, hreplay', h.latest, hclassified]
        · simp [publishGoverned, Method.exec_bind, hasserted, hreplay, hclassified]
      | ok compatibility =>
        by_cases hexpected : compatibility.classification = request.expectedCompatibility
        case neg =>
          refine .inl ⟨js "Expected " ++ request.expectedCompatibility.text ++
            js " compatibility but classified " ++ compatibility.classification.text ++ js ".",
            ?_, ?_⟩
          · simp [publishGoverned, Method.exec_bind, hasserted, hreplay', h.latest, hclassified,
              hexpected]
          · simp [publishGoverned, Method.exec_bind, hasserted, hreplay, hclassified, hexpected]
        cases hincreases : assertVersionMatchesCompatibility
            ((r.latest localeCompare request.manifest).map (·.manifest)) request.manifest
            compatibility with
        | error e =>
          refine .inl ⟨e, ?_, ?_⟩
          · simp [publishGoverned, Method.exec_bind, hasserted, hreplay', h.latest, hclassified,
              hexpected, hincreases]
          · simp [publishGoverned, Method.exec_bind, hasserted, hreplay, hclassified, hexpected,
              hincreases]
        | ok _ =>
          rcases @publish_alike publishedAt q r request.manifest request.governance compatibility
              h.package with ⟨e, hq, hr⟩ | ⟨hsemver, hkey, hreferences, hq, hr⟩
          · refine .inl ⟨e, ?_, ?_⟩
            · simp [publishGoverned, Method.exec_bind, hasserted, hreplay', h.latest, hclassified,
                hexpected, hincreases, hq]
            · simp [publishGoverned, Method.exec_bind, hasserted, hreplay, hclassified, hexpected,
                hincreases, hr]
          · refine .inr (.inr ⟨compatibility, ⟨hasserted, hreplay, hclassified, hexpected,
              hincreases, hsemver, hkey, hreferences⟩, ?_, ?_⟩)
            · simp [publishGoverned, Method.exec_bind, Method.exec_map, hasserted, hreplay',
                h.latest, hclassified, hexpected, hincreases, hq, setMember_of_lookup hreplay']
              exact ⟨rfl, rfl⟩
            · simp [publishGoverned, Method.exec_bind, Method.exec_map, hasserted, hreplay,
                hclassified, hexpected, hincreases, hr, setMember_of_lookup hreplay]
              exact ⟨rfl, rfl⟩

/-- A call throws, finds its request in the log or publishes. -/
theorem publishGoverned_cases (localeCompare : JsString → JsString → Int)
    (request : GovernedPublicationRequest) (publishedAt : JsString) (r : Registry) :
    (∃ e, (publishGoverned localeCompare request publishedAt).exec r = (.error e, r)) ∨
    (assertGovernedRequest request = .ok () ∧
      ∃ replay, r.publicationRequests.lookup (requestKey request) = some replay ∧
        replay.fingerprint = schemaDigest request.value ∧
        (publishGoverned localeCompare request publishedAt).exec r =
          (.ok (r.get replay.packageKey), r)) ∨
    (∃ compatibility, Publishes localeCompare r request compatibility ∧
      (publishGoverned localeCompare request publishedAt).exec r =
        (.ok (some (request.package publishedAt compatibility)),
          r.add request publishedAt compatibility)) := by
  rcases publishGoverned_alike publishedAt (@Alike.refl localeCompare request r) with
    ⟨e, -, hexec⟩ | ⟨hasserted, replay, hreplay, hfingerprint, -, hexec⟩ |
      ⟨compatibility, hpublishes, -, hexec⟩
  · exact .inl ⟨e, hexec⟩
  · exact .inr (.inl ⟨hasserted, replay, hreplay, hfingerprint, hexec⟩)
  · exact .inr (.inr ⟨compatibility, hpublishes, hexec⟩)

theorem Publishes.exec {compatibility : CompatibilityReport}
    (h : Publishes localeCompare r request compatibility) (publishedAt : JsString) :
    (publishGoverned localeCompare request publishedAt).exec r =
      (.ok (some (request.package publishedAt compatibility)),
        r.add request publishedAt compatibility) := by
  rcases publishGoverned_cases localeCompare request publishedAt r with
    ⟨e, hexec⟩ | ⟨-, replay, hreplay, -, -⟩ | ⟨compatibility', hpublishes, hexec⟩
  · simp [publishGoverned, publish, Method.exec_bind, Method.exec_map, h.asserted, h.newRequest,
      h.classified, h.expected, h.increases, h.semver, Registry.get, h.newPackage,
      h.references] at hexec
  · rw [h.newRequest] at hreplay
    cases hreplay
  · have hsame := hpublishes.classified
    rw [h.classified] at hsame
    rw [hexec, Except.ok.inj hsame]

/-- What the checks of a publication say of the two versions. -/
theorem assertVersion_eq_ok {previous next : SchemaPackageManifest} {report : CompatibilityReport}
    {v w : Version} (hv : versionOf previous.version = some v) (hw : versionOf next.version = some w)
    (hvExact : v.Exact) (hwExact : w.Exact)
    (h : assertVersionMatchesCompatibility (some previous) next report = .ok ()) :
    v.Before w ∧ (report.classification = .breaking → v.major < w.major) ∧
      (report.classification = .backwardCompatible → w.major = v.major) := by
  simp only [assertVersionMatchesCompatibility, parseVersion_eq hv hvExact,
    parseVersion_eq hw hwExact] at h
  have hbefore : v.Before w := by
    rw [← compareVersion_parsed, ← Bool.not_eq_true]
    intro hle
    simp [bind, Except.bind, hle] at h
  have hincreases := (compareVersion_parsed w v).mpr hbefore
  refine ⟨hbefore, ?_, ?_⟩
  · intro hbreaking
    by_contra hle
    simp [bind, Except.bind, hincreases, hbreaking, doubleLe, Nat.le_of_not_lt hle] at h
  · intro hbackward
    by_contra hne
    simp [bind, Except.bind, hincreases, hbackward, hne] at h

theorem versionOf_of_semver {value : JsString} (h : isSemver value = true) :
    ∃ v, versionOf value = some v := by
  rw [isSemver, Option.any_eq_true] at h
  obtain ⟨runs, hruns, -⟩ := h
  exact ⟨_, by rw [versionOf, hruns, Option.map_some]⟩

end Call

/-! ## All calls -/

/-- The registry of one process, and the calls made to it. -/
def registryMachine (localeCompare : JsString → JsString → Int) :
    Machine Registry (GovernedPublicationRequest × JsString) where
  init r := r = .empty
  step r call r' := r' = ((publishGoverned localeCompare call.1 call.2).exec r).2

def ExactVersion (_ : Registry) (call : GovernedPublicationRequest × JsString) : Prop :=
  ∀ v, versionOf call.1.manifest.version = some v → v.Exact

def PublishedSchemaPackage.version (package : PublishedSchemaPackage) : Option Version :=
  versionOf package.manifest.version

def Earlier (a b : PublishedSchemaPackage) : Prop :=
  ∃ v w, a.version = some v ∧ b.version = some w ∧ v.Before w

/-- The versions of a package and of the next one fit the classification of the next one. -/
def FitsClassification (a b : PublishedSchemaPackage) : Prop :=
  ∃ v w, a.version = some v ∧ b.version = some w ∧
    (b.compatibility.classification = .breaking → v.major < w.major) ∧
    (b.compatibility.classification = .backwardCompatible → w.major = v.major)

structure Sound (r : Registry) : Prop where
  versions : ∀ key package, (key, package) ∈ r.packages →
    isSemver package.manifest.version = true ∧ ∃ v, package.version = some v ∧ v.Exact
  logged : ∀ key entry, r.publicationRequests.lookup key = some entry →
    (r.packages.lookup entry.packageKey).isSome = true
  increasing : ∀ manifest, (r.history manifest).Pairwise Earlier
  fits : ∀ manifest, (r.history manifest).IsChain FitsClassification

theorem sound_empty : Sound .empty where
  versions _ _ h := by cases h
  logged _ _ h := by cases h
  increasing _ := .nil
  fits _ := .nil

section Step

variable {localeCompare : JsString → JsString → Int} {r r' : Registry}
  {request : GovernedPublicationRequest} {publishedAt : JsString}
  {compatibility : CompatibilityReport}

theorem mem_history {manifest : SchemaPackageManifest} {package : PublishedSchemaPackage}
    (h : package ∈ r.history manifest) :
    (∃ key, (key, package) ∈ r.packages) ∧
      package.manifest.namespaceName = manifest.namespaceName ∧
      package.manifest.name = manifest.name := by
  rw [Registry.history, List.mem_filter] at h
  obtain ⟨⟨key, package⟩, hmem, rfl⟩ := List.mem_map.mp h.1
  exact ⟨⟨key, hmem⟩, by simpa using h.2⟩

/-- The latest version is that of the package that was published last. -/
theorem Sound.latest_eq (h : Sound r) (hlocale : NumericCollation localeCompare)
    (manifest : SchemaPackageManifest) :
    r.latest localeCompare manifest = (r.history manifest).getLast? := by
  have hsort : (r.history manifest).Pairwise fun left right =>
      ¬ localeCompare right.manifest.version left.manifest.version ≤ 0 := by
    apply List.Pairwise.imp_of_mem _ (h.increasing manifest)
    intro left right hleft hright hearlier
    obtain ⟨v, w, hv, hw, hbefore⟩ := hearlier
    obtain ⟨⟨key, hleft⟩, -⟩ := mem_history hleft
    obtain ⟨⟨key', hright⟩, -⟩ := mem_history hright
    obtain ⟨hsemver, -⟩ := h.versions key left hleft
    obtain ⟨hsemver', w', hw', hexact⟩ := h.versions key' right hright
    rw [hw] at hw'
    cases hw'
    have hcompare := compare_of_before hlocale hsemver hsemver' hv hw hexact hbefore
    omega
  rw [Registry.latest, StableSort.insertionSort_eq_reverse hsort, List.head?_reverse]

theorem history_add (manifest : SchemaPackageManifest) :
    (r.add request publishedAt compatibility).history manifest = r.history manifest ++
      if request.manifest.namespaceName = manifest.namespaceName ∧
          request.manifest.name = manifest.name then
        [request.package publishedAt compatibility] else [] := by
  simp only [Registry.history, Registry.add, List.map_append, List.filter_append, List.map_cons,
    List.map_nil, GovernedPublicationRequest.package, publishedPackage]
  congr 1
  by_cases h : request.manifest.namespaceName = manifest.namespaceName ∧
      request.manifest.name = manifest.name
  · simp [h]
  · rw [if_neg h]
    simpa using h

theorem history_congr {manifest manifest' : SchemaPackageManifest}
    (h : manifest.namespaceName = manifest'.namespaceName ∧ manifest.name = manifest'.name) :
    r.history manifest = r.history manifest' := by
  rw [Registry.history, Registry.history, h.1, h.2]

/-- What a publication adds comes after every package of its name. -/
theorem Publishes.follows (h : Publishes localeCompare r request compatibility) (hr : Sound r)
    (hlocale : NumericCollation localeCompare) (hexact : ExactVersion r (request, publishedAt)) :
    (∀ package ∈ r.history request.manifest,
      Earlier package (request.package publishedAt compatibility)) ∧
    ∀ last ∈ (r.history request.manifest).getLast?,
      FitsClassification last (request.package publishedAt compatibility) := by
  obtain ⟨w, hw⟩ := versionOf_of_semver h.semver
  have hwExact : w.Exact := hexact w hw
  have hincreases := h.increases
  rw [hr.latest_eq hlocale] at hincreases
  have hlast : ∀ last ∈ (r.history request.manifest).getLast?,
      ∃ v, last.version = some v ∧ v.Before w ∧
        (compatibility.classification = .breaking → v.major < w.major) ∧
        (compatibility.classification = .backwardCompatible → w.major = v.major) := by
    intro last hlast
    obtain ⟨⟨key, hmem⟩, -⟩ := mem_history (List.mem_of_getLast? hlast)
    obtain ⟨-, v, hv, hvExact⟩ := hr.versions key last hmem
    rw [hlast, Option.map_some] at hincreases
    exact ⟨v, hv, assertVersion_eq_ok hv hw hvExact hwExact hincreases⟩
  constructor
  · intro package hpackage
    obtain ⟨first, last, hsplit⟩ := List.eq_nil_or_concat _ |>.resolve_left
      (List.ne_nil_of_mem hpackage)
    rw [List.concat_eq_append] at hsplit
    obtain ⟨v, hv, hbefore, -⟩ := hlast last (by rw [hsplit, List.getLast?_concat, Option.mem_some])
    have hpairs := hr.increasing request.manifest
    rw [hsplit] at hpackage hpairs
    rcases List.mem_append.mp hpackage with hfirst | hsame
    · obtain ⟨u, v', hu, hv', hbefore'⟩ :=
        (List.pairwise_append.mp hpairs).2.2 package hfirst last List.mem_cons_self
      rw [hv] at hv'
      cases hv'
      exact ⟨u, w, hu, hw, hbefore'.trans hbefore⟩
    · rw [List.mem_singleton] at hsame
      subst hsame
      exact ⟨v, w, hv, hw, hbefore⟩
  · intro last hmem
    obtain ⟨v, hv, -, hfits⟩ := hlast last hmem
    exact ⟨v, w, hv, hw, hfits⟩

theorem lookup_concat {α : Type} {key key' : JsString} {value value' : α}
    {members : List (JsString × α)} (h : members.lookup key = some value) :
    (members ++ [(key', value')]).lookup key = some value := by
  rw [List.lookup_append, h, Option.some_or]

theorem lookup_concat_self {α : Type} {key : JsString} {value : α} {members : List (JsString × α)}
    (h : members.lookup key = none) : (members ++ [(key, value)]).lookup key = some value := by
  rw [List.lookup_append, h, Option.none_or, List.lookup_cons_self]

theorem Publishes.sound (h : Publishes localeCompare r request compatibility) (hr : Sound r)
    (hlocale : NumericCollation localeCompare) (hexact : ExactVersion r (request, publishedAt)) :
    Sound (r.add request publishedAt compatibility) where
  versions := by
    intro key package hmem
    rcases List.mem_append.mp hmem with hold | hnew
    · exact hr.versions key package hold
    · rw [List.mem_singleton, Prod.mk.injEq] at hnew
      obtain ⟨rfl, rfl⟩ := hnew
      obtain ⟨w, hw⟩ := versionOf_of_semver h.semver
      exact ⟨h.semver, w, hw, hexact w hw⟩
  logged := by
    intro key entry hentry
    rw [Registry.add, List.lookup_append, Option.or_eq_some_iff] at hentry
    rcases hentry with hold | ⟨-, hnew⟩
    · obtain ⟨package, hpackage⟩ := Option.isSome_iff_exists.mp (hr.logged key entry hold)
      rw [Registry.add, lookup_concat hpackage]
      rfl
    · obtain rfl : (⟨schemaDigest request.value, schemaKey request.manifest⟩ : PublicationEntry) =
          entry := by
        rw [List.lookup_cons] at hnew
        split at hnew
        · exact Option.some.inj hnew
        · cases hnew
      rw [Registry.add, lookup_concat_self h.newPackage]
      rfl
  increasing := by
    intro manifest
    rw [history_add]
    split
    · next hname =>
      rw [← history_congr hname]
      exact List.pairwise_append.mpr ⟨hr.increasing _, List.pairwise_singleton _ _, fun a ha b hb =>
        List.mem_singleton.mp hb ▸ (h.follows hr hlocale hexact).1 a ha⟩
    · rw [List.append_nil]
      exact hr.increasing manifest
  fits := by
    intro manifest
    rw [history_add]
    split
    · next hname =>
      rw [← history_congr hname, List.isChain_append]
      refine ⟨hr.fits _, List.isChain_singleton _, ?_⟩
      intro last hlast package hpackage
      rw [List.head?_cons, Option.mem_some] at hpackage
      subst hpackage
      exact (h.follows hr hlocale hexact).2 last hlast
    · rw [List.append_nil]
      exact hr.fits manifest

theorem sound_step (hr : Sound r) (hlocale : NumericCollation localeCompare)
    (hexact : ExactVersion r (request, publishedAt)) :
    Sound ((publishGoverned localeCompare request publishedAt).exec r).2 := by
  rcases publishGoverned_cases localeCompare request publishedAt r with
    ⟨e, hexec⟩ | ⟨-, replay, -, -, hexec⟩ | ⟨compatibility, hpublishes, hexec⟩
  · rw [hexec]
    exact hr
  · rw [hexec]
    exact hr
  · rw [hexec]
    exact hpublishes.sound hr hlocale hexact

theorem sound_of_reaches (hlocale : NumericCollation localeCompare)
    (h : (registryMachine localeCompare).Reaches ExactVersion r) : Sound r := by
  apply h.invariant
  · rintro _ rfl
    exact sound_empty
  · rintro r call _ hr hexact rfl
    exact sound_step hr hlocale hexact

/-- The log has the request, and the map the package it was answered with. -/
def Answers (r : Registry) (request : GovernedPublicationRequest)
    (package : PublishedSchemaPackage) : Prop :=
  ∃ packageKey, r.publicationRequests.lookup (requestKey request) =
      some ⟨schemaDigest request.value, packageKey⟩ ∧
    r.packages.lookup packageKey = some package

theorem Answers.step {package : PublishedSchemaPackage} (h : Answers r request package)
    (call : GovernedPublicationRequest × JsString)
    (hstep : (registryMachine localeCompare).step r call r') : Answers r' request package := by
  obtain ⟨packageKey, hentry, hpackage⟩ := h
  change r' = ((publishGoverned localeCompare call.1 call.2).exec r).2 at hstep
  subst hstep
  rcases publishGoverned_cases localeCompare call.1 call.2 r with
    ⟨e, hexec⟩ | ⟨-, replay, -, -, hexec⟩ | ⟨compatibility, hpublishes, hexec⟩
  · rw [hexec]
    exact ⟨packageKey, hentry, hpackage⟩
  · rw [hexec]
    exact ⟨packageKey, hentry, hpackage⟩
  · rw [hexec]
    exact ⟨packageKey, lookup_concat hentry, lookup_concat hpackage⟩

theorem Answers.leads {package : PublishedSchemaPackage} (h : Answers r request package)
    (hleads : (registryMachine localeCompare).Leads ExactVersion r r') :
    Answers r' request package := by
  induction hleads with
  | refl => exact h
  | tail _ hstep ih =>
    obtain ⟨call, -, hstep⟩ := hstep
    exact ih.step call hstep

/-- A request that succeeded is answered from the log. -/
theorem answers_of_ok (hr : Sound r) {answer : Option PublishedSchemaPackage}
    (h : (publishGoverned localeCompare request publishedAt).exec r = (.ok answer, r')) :
    assertGovernedRequest request = .ok () ∧
      ∃ package, answer = some package ∧ Answers r' request package := by
  rcases publishGoverned_cases localeCompare request publishedAt r with
    ⟨e, hexec⟩ | ⟨hasserted, replay, hreplay, hfingerprint, hexec⟩ |
      ⟨compatibility, hpublishes, hexec⟩
  · rw [hexec] at h
    cases h
  · rw [hexec] at h
    cases h
    obtain ⟨package, hpackage⟩ := Option.isSome_iff_exists.mp (hr.logged _ _ hreplay)
    refine ⟨hasserted, package, hpackage, replay.packageKey, ?_, hpackage⟩
    rw [hreplay, ← hfingerprint]
  · rw [hexec] at h
    cases h
    exact ⟨hpublishes.asserted, _, rfl, schemaKey request.manifest,
      lookup_concat_self hpublishes.newRequest, lookup_concat_self hpublishes.newPackage⟩

theorem Answers.replay {package : PublishedSchemaPackage} (h : Answers r request package)
    (hasserted : assertGovernedRequest request = .ok ()) (publishedAt : JsString) :
    (publishGoverned localeCompare request publishedAt).exec r = (.ok (some package), r) := by
  obtain ⟨packageKey, hentry, hpackage⟩ := h
  simp [publishGoverned, Method.exec_bind, Method.exec_map, hasserted, hentry, Registry.get,
    hpackage]

end Step

/-- The packages of a name are published in the order of their versions, the latest is the last
one, and the versions of two that follow each other fit the classification. A call that throws
changes nothing, and one that returned returns the same package whenever it is repeated. -/
theorem registry_sound (localeCompare : JsString → JsString → Int)
    (hlocale : NumericCollation localeCompare) (r : Registry)
    (hr : (registryMachine localeCompare).Reaches ExactVersion r) :
    (∀ manifest, (r.history manifest).Pairwise Earlier ∧
      r.latest localeCompare manifest = (r.history manifest).getLast? ∧
      (r.history manifest).IsChain FitsClassification) ∧
    ∀ request publishedAt,
      (∀ e r', (publishGoverned localeCompare request publishedAt).exec r = (.error e, r') →
        r' = r) ∧
      ∀ answer r', (publishGoverned localeCompare request publishedAt).exec r = (.ok answer, r') →
        answer.isSome = true ∧
        ∀ r'' publishedAt', (registryMachine localeCompare).Leads ExactVersion r' r'' →
          (publishGoverned localeCompare request publishedAt').exec r'' = (.ok answer, r'') := by
  have hsound := sound_of_reaches hlocale hr
  refine ⟨fun manifest => ⟨hsound.increasing manifest, hsound.latest_eq hlocale manifest,
    hsound.fits manifest⟩, fun request publishedAt => ⟨?_, ?_⟩⟩
  · intro e r' h
    rcases publishGoverned_cases localeCompare request publishedAt r with
      ⟨e', hexec⟩ | ⟨-, replay, -, -, hexec⟩ | ⟨compatibility, -, hexec⟩
    · rw [hexec] at h
      cases h
      rfl
    · rw [hexec] at h
      cases h
    · rw [hexec] at h
      cases h
  · intro answer r' h
    obtain ⟨hasserted, package, rfl, hanswers⟩ := answers_of_ok hsound h
    exact ⟨rfl, fun r'' publishedAt' hleads => (hanswers.leads hleads).replay hasserted publishedAt'⟩

section Example

/-- The first version of a package. -/
def notesManifest : SchemaPackageManifest where
  namespaceName := js "app"
  name := js "notes"
  version := js "1.0.0"
  title := js "Notes"
  description := js "Test notes"
  classification := .application
  resourceTypes := []
  relationships := []
  compatibleArchiveFormat := js "trust-core-archive/1.0.0"

def notesRequest : GovernedPublicationRequest where
  manifest := notesManifest
  application :=
    { namespaceName := js "app/notes"
      applicationVersion := js "1.0.0"
      schemaPackage := ⟨js "app/notes/1.0.0", js "1.0.0", [], [], .preserve⟩ }
  approval := ⟨js "admin:release", js "approval-1"⟩
  idempotencyKey := js "publish-1"
  expectedCompatibility := .initial

def notesReport : CompatibilityReport := ⟨.initial, none, []⟩

def notesRegistry : Registry := Registry.empty.add notesRequest (js "2026-08-04") notesReport

theorem notesRequest_publishes :
    (publishGoverned compareNumeric notesRequest (js "2026-08-04")).exec .empty =
      (.ok (some (notesRequest.package (js "2026-08-04") notesReport)), notesRegistry) := rfl

theorem notesRegistry_reaches :
    (registryMachine compareNumeric).Reaches ExactVersion notesRegistry := by
  refine .step (e := (notesRequest, js "2026-08-04")) (.init rfl) ?_ ?_
  · intro v hv
    obtain rfl : (⟨1, 0, 0⟩ : Version) = v := Option.some.inj hv
    decide
  · change notesRegistry = ((publishGoverned compareNumeric notesRequest _).exec .empty).2
    rw [notesRequest_publishes]

/-- A later version, with a type of resource. -/
def pagesManifest : SchemaPackageManifest :=
  { notesManifest with
    version := js "1.1.0"
    resourceTypes := [⟨js "page", js "One page", ⟨[], List.nodup_nil⟩, .preserve⟩] }

def pagesRequest : GovernedPublicationRequest where
  manifest := pagesManifest
  application :=
    { namespaceName := js "app/notes"
      applicationVersion := js "1.1.0"
      schemaPackage := ⟨js "app/notes/1.1.0", js "1.1.0", [js "page"], [], .preserve⟩ }
  approval := ⟨js "admin:release", js "approval-2"⟩
  idempotencyKey := js "publish-2"
  expectedCompatibility := .backwardCompatible

def pagesReport : CompatibilityReport :=
  ⟨.backwardCompatible, some (schemaKey notesManifest),
    [added (js "resourceTypes.page") "Resource type was added." false]⟩

def pagesRegistry : Registry := notesRegistry.add pagesRequest (js "2026-08-05") pagesReport

theorem pagesManifest_increases :
    assertVersionMatchesCompatibility (some notesManifest) pagesManifest pagesReport = .ok () := by
  have hfirst := parseVersion_eq (v := ⟨1, 0, 0⟩) (show versionOf notesManifest.version = _ from rfl)
    (by decide)
  have hsecond := parseVersion_eq (v := ⟨1, 1, 0⟩) (show versionOf pagesManifest.version = _ from rfl)
    (by decide)
  have hincreases := (compareVersion_parsed ⟨1, 1, 0⟩ ⟨1, 0, 0⟩).mpr (by decide)
  simp only [assertVersionMatchesCompatibility, hfirst, hsecond]
  simp [bind, Except.bind, hincreases, pagesReport]
  rfl

theorem pagesRequest_publishes :
    (publishGoverned compareNumeric pagesRequest (js "2026-08-05")).exec notesRegistry =
      (.ok (some (pagesRequest.package (js "2026-08-05") pagesReport)), pagesRegistry) := by
  have hpublishes : Publishes compareNumeric notesRegistry pagesRequest pagesReport :=
    ⟨rfl, rfl, rfl, rfl, pagesManifest_increases, rfl, rfl, rfl⟩
  exact hpublishes.exec _

theorem pagesRequest_exact : ExactVersion notesRegistry (pagesRequest, js "2026-08-05") := by
  intro v hv
  obtain rfl : (⟨1, 1, 0⟩ : Version) = v := Option.some.inj hv
  decide

theorem pagesRequest_step : (registryMachine compareNumeric).step notesRegistry
    (pagesRequest, js "2026-08-05") pagesRegistry := by
  change pagesRegistry = ((publishGoverned compareNumeric pagesRequest _).exec notesRegistry).2
  rw [pagesRequest_publishes]

def refusedRequest : GovernedPublicationRequest :=
  { pagesRequest with idempotencyKey := js "publish-3", expectedCompatibility := .breaking }

/-- The second version is the latest, the first request still has its answer, and a request that
expects another classification is refused. -/
theorem registry_sound_notes :
    (pagesRegistry.history notesManifest).Pairwise Earlier ∧
    pagesRegistry.latest compareNumeric notesManifest =
      some (pagesRequest.package (js "2026-08-05") pagesReport) ∧
    (pagesRegistry.history notesManifest).IsChain FitsClassification ∧
    (publishGoverned compareNumeric notesRequest (js "2026-08-06")).exec pagesRegistry =
      (.ok (some (notesRequest.package (js "2026-08-04") notesReport)), pagesRegistry) ∧
    ∃ e, (publishGoverned compareNumeric refusedRequest (js "2026-08-06")).exec pagesRegistry =
      (.error e, pagesRegistry) := by
  have hempty := registry_sound compareNumeric numericCollation_compareNumeric .empty (.init rfl)
  have hpages := registry_sound compareNumeric numericCollation_compareNumeric pagesRegistry
    (.step notesRegistry_reaches pagesRequest_exact pagesRequest_step)
  obtain ⟨hearlier, hlatest, hfits⟩ := hpages.1 notesManifest
  have hleads : (registryMachine compareNumeric).Leads ExactVersion notesRegistry pagesRegistry :=
    .single ⟨_, pagesRequest_exact, pagesRequest_step⟩
  obtain ⟨e, r, hrefused⟩ : ∃ e r, (publishGoverned compareNumeric refusedRequest
      (js "2026-08-06")).exec pagesRegistry = (.error e, r) := ⟨_, _, rfl⟩
  refine ⟨hearlier, hlatest, hfits, ?_, e, ?_⟩
  · exact ((hempty.2 notesRequest (js "2026-08-04")).2 _ _ notesRequest_publishes).2 _ _ hleads
  · rw [hrefused, (hpages.2 _ _).1 e r hrefused]

end Example

end TrustCore.SchemaRegistry
