import TrustCore.CanonicalForms
import TrustCore.Verification

/-!
# Payloads behind a passed verification

The structural run holds the payload of a revision against its schema package and reads nothing
else of it; no check reads the hash that was stored with it. Two snapshots that differ in payloads
and their hashes alone are told apart by the validity of the payloads alone.
-/

namespace TrustCore.PayloadHashes

open TrustCore.Utf TrustCore.Json TrustCore.Columns TrustCore.SchemaPackages
open TrustCore.SchemaValidation TrustCore.Verification
open TrustCore.History (Resource Revision Tombstone hashCanonical)
open TrustCore.AuditLog (JsonObject)
open TrustCore.ObjectIngest (BlobObject)

/-! ## Revisions without payloads -/

/-- A revision without its payload and the hash of it. -/
def blank (revision : Revision) : Revision :=
  { revision with canonicalPayload := ⟨[], AuditLog.isJson_empty⟩, canonicalPayloadHash := [] }

/-- What is left of a snapshot without the payloads of its revisions and their hashes. -/
def withoutPayloads (snapshot : Snapshot) : Snapshot :=
  { snapshot with revisions := snapshot.revisions.map blank }

theorem filter_map_blank (revisions : List Revision) (id : JsString) :
    (revisions.map blank).filter (·.resourceId == id) =
      (revisions.filter (·.resourceId == id)).map blank :=
  List.filter_map

theorem lastById_map_blank (revisions : List Revision) (id : JsString) :
    lastById (revisions.map blank) id = (lastById revisions id).map blank := by
  simp only [lastById, ← List.map_reverse, List.find?_map]
  rfl

theorem revisionGraphIssues_blank (resource : Resource) (own : List Revision) (numbers : List Nat)
    (revision : Revision) :
    revisionGraphIssues resource (own.map blank) numbers (blank revision) =
      revisionGraphIssues resource own numbers revision := by
  have hparent : (truthy revision.parentRevisionId).bind (lastById (own.map blank)) =
      ((truthy revision.parentRevisionId).bind (lastById own)).map blank := by
    cases truthy revision.parentRevisionId with
    | none => rfl
    | some id => exact lastById_map_blank own id
  simp only [revisionGraphIssues, blank, hparent]
  cases (truthy revision.parentRevisionId).bind (lastById own) with
  | none => rfl
  | some parent => rfl

theorem revisionsGraphIssues_map_blank (resource : Resource) (own : List Revision)
    (revisions : List Revision) (numbers : List Nat) :
    revisionsGraphIssues resource (own.map blank) numbers (revisions.map blank) =
      revisionsGraphIssues resource own numbers revisions := by
  induction revisions generalizing numbers with
  | nil => rfl
  | cons revision revisions ih =>
    simp only [List.map_cons, revisionsGraphIssues, revisionGraphIssues_blank]
    exact congrArg _ (ih _)

theorem verifyResourceGraph_map_blank (resource : Resource) (revisions : List Revision) :
    verifyResourceGraph resource (revisions.map blank) =
      verifyResourceGraph resource revisions := by
  simp only [verifyResourceGraph, filter_map_blank, revisionsGraphIssues_map_blank,
    lastById_map_blank, Option.isNone_map]

/-! ## The checks that no payload takes part in -/

def orphanIssues (snapshot : Snapshot) (resource : Resource) : List VerificationIssue :=
  if (snapshot.revisions.filter (·.resourceId == resource.id)).isEmpty ∧
      resource.status ≠ .deletedLogically then
    [issue "ORPHAN_RESOURCE_WITHOUT_REVISION" .critical .resource resource.id
      "Resource has no revision history."]
  else []

/-- The issues of a run over a workspace but for those of `verifySchema`. -/
def catalogIssues (storage : BlobStorage) (workspaceId : JsString) (snapshot : Snapshot) :
    List VerificationIssue :=
  snapshot.datasets.flatMap (datasetIssues snapshot.schemaPackages) ++
  (snapshot.resources.flatMap fun resource =>
    verifyResourceGraph resource snapshot.revisions ++ orphanIssues snapshot resource) ++
  (selectedReferences snapshot (wholeSelection snapshot)).flatMap (referenceIssues snapshot) ++
  (snapshot.blobs.flatMap fun blob => (verifyBlob storage blob .metadata).issues) ++
  (snapshot.relations.flatMap fun relation => verifyRelation relation snapshot) ++
  (snapshot.tombstones.flatMap fun tombstone => verifyTombstone tombstone snapshot) ++
  workspaceIssues snapshot workspaceId

theorem orphanIssues_withoutPayloads (snapshot : Snapshot) (resource : Resource) :
    orphanIssues (withoutPayloads snapshot) resource = orphanIssues snapshot resource := by
  simp only [orphanIssues, withoutPayloads, filter_map_blank, List.isEmpty_map]

theorem verifyRelation_withoutPayloads (snapshot : Snapshot) (relation : Relation) :
    verifyRelation relation (withoutPayloads snapshot) = verifyRelation relation snapshot := by
  have hexists : ∀ kind id, endpointExists (withoutPayloads snapshot) relation.datasetId kind id =
      endpointExists snapshot relation.datasetId kind id := by
    intro kind id
    cases kind with
    | revision => exact List.any_map
    | resource => rfl
    | blob => rfl
    | external => rfl
  simp only [verifyRelation, endpointIssues, hexists]

theorem verifyTombstone_withoutPayloads (snapshot : Snapshot) (tombstone : Tombstone) :
    verifyTombstone tombstone (withoutPayloads snapshot) = verifyTombstone tombstone snapshot := by
  have hprior : ∀ prior, ((withoutPayloads snapshot).revisions.any fun revision =>
        revision.id == prior && revision.resourceId == tombstone.subjectId) =
      snapshot.revisions.any fun revision =>
        revision.id == prior && revision.resourceId == tombstone.subjectId :=
    fun prior => List.any_map
  simp only [verifyTombstone, hprior]
  rfl

theorem selectedReferences_withoutPayloads (snapshot : Snapshot) :
    selectedReferences (withoutPayloads snapshot) (wholeSelection (withoutPayloads snapshot)) =
      selectedReferences snapshot (wholeSelection snapshot) :=
  List.filter_congr fun _ _ => List.any_map

theorem catalogIssues_withoutPayloads (storage : BlobStorage) (workspaceId : JsString)
    (snapshot : Snapshot) :
    catalogIssues storage workspaceId (withoutPayloads snapshot) =
      catalogIssues storage workspaceId snapshot := by
  simp only [catalogIssues, selectedReferences_withoutPayloads, orphanIssues_withoutPayloads,
    verifyRelation_withoutPayloads, verifyTombstone_withoutPayloads]
  simp only [withoutPayloads, verifyResourceGraph_map_blank]
  rfl

/-! ## The checks that read payloads -/

section Schema

variable (isDate isUrl : JsString → Bool)

/-- No revision of a resource has an issue of `verifySchema`. -/
def SchemaClear (snapshot : Snapshot) : Prop :=
  ∀ resource ∈ snapshot.resources, ∀ revision ∈ snapshot.revisions,
    revision.resourceId = resource.id →
      verifySchema isDate isUrl resource revision
        (snapshot.datasets.find? (·.id == resource.datasetId)) snapshot.schemaPackages = []

/-- Every revision of a resource has a package that suits it and its dataset. -/
def PackagesClear (snapshot : Snapshot) : Prop :=
  ∀ resource ∈ snapshot.resources, ∀ revision ∈ snapshot.revisions,
    revision.resourceId = resource.id →
      ∃ package, snapshot.schemaPackages.find? (·.id == revision.schemaPackageId) = some package ∧
        packageIssues revision (snapshot.datasets.find? (·.id == resource.datasetId)) package = []

/-- Every revision of a resource has a payload that is valid against its package. -/
def PayloadsValid (snapshot : Snapshot) : Prop :=
  ∀ resource ∈ snapshot.resources, ∀ revision ∈ snapshot.revisions,
    revision.resourceId = resource.id →
      ∀ package, snapshot.schemaPackages.find? (·.id == revision.schemaPackageId) = some package →
        (validateResourcePayload isDate isUrl package.manifest resource.resourceType
          revision.canonicalPayload.members).valid = true

variable {isDate isUrl} {snapshot : Snapshot}

theorem verifySchema_eq_nil_iff {resource : Resource} {revision : Revision}
    {dataset : Option Dataset} {packages : List SchemaPackageRow} :
    verifySchema isDate isUrl resource revision dataset packages = [] ↔
      ∃ package, packages.find? (·.id == revision.schemaPackageId) = some package ∧
        packageIssues revision dataset package = [] ∧
        (validateResourcePayload isDate isUrl package.manifest resource.resourceType
          revision.canonicalPayload.members).valid = true := by
  unfold verifySchema
  cases packages.find? (·.id == revision.schemaPackageId) with
  | none => simp
  | some package =>
    simp [List.append_eq_nil_iff, ValidationResult.valid, List.isEmpty_iff]

theorem schemaClear_iff :
    SchemaClear isDate isUrl snapshot ↔
      PackagesClear snapshot ∧ PayloadsValid isDate isUrl snapshot := by
  constructor
  · intro hclear
    refine ⟨?_, ?_⟩
    · intro resource hresource revision hrevision hown
      obtain ⟨package, hfound, hpackage, -⟩ :=
        verifySchema_eq_nil_iff.mp (hclear resource hresource revision hrevision hown)
      exact ⟨package, hfound, hpackage⟩
    · intro resource hresource revision hrevision hown package hfound
      obtain ⟨package', hfound', -, hvalid⟩ :=
        verifySchema_eq_nil_iff.mp (hclear resource hresource revision hrevision hown)
      rw [hfound, Option.some.injEq] at hfound'
      subst hfound'
      exact hvalid
  · intro ⟨hpackages, hpayloads⟩ resource hresource revision hrevision hown
    obtain ⟨package, hfound, hpackage⟩ := hpackages resource hresource revision hrevision hown
    exact verifySchema_eq_nil_iff.mpr ⟨package, hfound, hpackage,
      hpayloads resource hresource revision hrevision hown package hfound⟩

theorem packagesClear_withoutPayloads :
    PackagesClear (withoutPayloads snapshot) ↔ PackagesClear snapshot := by
  constructor
  · intro hclear resource hresource revision hrevision
    exact hclear resource hresource (blank revision) (List.mem_map_of_mem hrevision)
  · intro hclear resource hresource revision hrevision
    obtain ⟨original, horiginal, rfl⟩ := List.mem_map.mp hrevision
    exact hclear resource hresource original horiginal

end Schema

/-! ## Runs over a workspace -/

theorem resolveScope_workspace {workspaceId : JsString} {scope : Option VerificationScope}
    {resolved : VerificationScope}
    (h : resolveScope workspaceId .workspace scope = .ok resolved) : resolved.kind = .workspace := by
  simp only [resolveScope, StructuralLevel.kind] at h
  split at h
  · cases h
  · rename_i found hfound
    split at h
    · cases h
    · cases h
      exact of_decide_eq_true (Option.filter_eq_some_iff.mp hfound).2

section Runs

variable (isDate isUrl : JsString → Bool) (storage blobStorage : BlobStorage)
  (workspaceId : JsString) (scope : Option VerificationScope)

/-- A structural run over the workspace and a full run over its blobs both end with no issue. -/
def Passed (draw blobDraw : RunDraw) (snapshot : Snapshot) : Prop :=
  (∃ outcome, runStructural isDate isUrl storage draw workspaceId .workspace scope snapshot =
      .ok outcome ∧ outcome.run.issues = []) ∧
  ∃ outcome, runBlobs blobStorage blobDraw workspaceId .fullBlob snapshot.workspaceExists
      snapshot.blobs = .ok outcome ∧ outcome.run.issues = []

variable {isDate isUrl storage blobStorage workspaceId scope} {draw blobDraw : RunDraw}
  {snapshot : Snapshot}

theorem structuralIssues_eq_nil_iff :
    structuralIssues isDate isUrl storage snapshot (wholeSelection snapshot) .workspace
        workspaceId = [] ↔
      catalogIssues storage workspaceId snapshot = [] ∧ SchemaClear isDate isUrl snapshot := by
  simp only [structuralIssues, catalogIssues, wholeSelection, resourceIssues, selectedBlobs,
    orphanIssues, SchemaClear, List.append_eq_nil_iff, List.flatMap_eq_nil_iff, List.mem_filter,
    beq_iff_eq, if_true]
  -- The issues of a resource stand between those of the catalog.
  grind

theorem structural_passed_iff :
    (∃ outcome, runStructural isDate isUrl storage draw workspaceId .workspace scope snapshot =
        .ok outcome ∧ outcome.run.issues = []) ↔
      (∃ resolved, resolveScope workspaceId .workspace scope = .ok resolved) ∧
      snapshot.workspaceExists = true ∧ catalogIssues storage workspaceId snapshot = [] ∧
      SchemaClear isDate isUrl snapshot := by
  unfold runStructural
  cases hscope : resolveScope workspaceId .workspace scope with
  | error message => simp
  | ok resolved =>
    have hselected := selectScope_workspace snapshot (resolveScope_workspace hscope)
    cases hexists : snapshot.workspaceExists with
    | true =>
      rw [hexists, if_pos rfl] at hselected
      simp [hselected, structuralIssues_eq_nil_iff]
    | false =>
      rw [hexists, if_neg Bool.false_ne_true] at hselected
      simp [hselected, structuralIssues, emptySelection]

/-- Two snapshots that differ in the payloads of revisions and in the hashes of these alone: after
a verification that the one has passed the other passes exactly when its payloads are valid. -/
theorem altered_passed_iff {draw' blobDraw' : RunDraw} {altered : Snapshot}
    (hsame : withoutPayloads altered = withoutPayloads snapshot)
    (hpassed : Passed isDate isUrl storage blobStorage workspaceId scope draw blobDraw snapshot) :
    Passed isDate isUrl storage blobStorage workspaceId scope draw' blobDraw' altered ↔
      PayloadsValid isDate isUrl altered := by
  obtain ⟨hstructural, outcome, hrun, hissues⟩ := hpassed
  obtain ⟨hscope, hexists, hcatalog, hschema⟩ := structural_passed_iff.mp hstructural
  have hexists' : altered.workspaceExists = true := by
    rw [← hexists]
    simpa only [withoutPayloads] using congrArg Snapshot.workspaceExists hsame
  have hblobs : altered.blobs = snapshot.blobs := by
    simpa only [withoutPayloads] using congrArg Snapshot.blobs hsame
  have hcatalog' : catalogIssues storage workspaceId altered = [] := by
    rw [← catalogIssues_withoutPayloads, hsame, catalogIssues_withoutPayloads, hcatalog]
  have hpackages' : PackagesClear altered := by
    rw [← packagesClear_withoutPayloads, hsame, packagesClear_withoutPayloads]
    exact (schemaClear_iff.mp hschema).1
  have hblobRun : ∃ outcome, runBlobs blobStorage blobDraw' workspaceId .fullBlob
      altered.workspaceExists altered.blobs = .ok outcome ∧ outcome.run.issues = [] := by
    rw [runBlobs, hexists] at hrun
    cases hrun
    rw [runBlobs, hexists', hblobs]
    exact ⟨_, rfl, hissues⟩
  constructor
  · intro hpassed
    exact (schemaClear_iff.mp (structural_passed_iff.mp hpassed.1).2.2.2).2
  · intro hvalid
    exact ⟨structural_passed_iff.mpr ⟨hscope, hexists', hcatalog',
      schemaClear_iff.mpr ⟨hpackages', hvalid⟩⟩, hblobRun⟩

end Runs

section Example

def noteBytes : Bytes := textEncode (js "note")

def noteBlob : BlobObject where
  id := js "blob"
  workspaceId := js "workspace"
  sha256 := Sha256.sha256 noteBytes
  byteLength := noteBytes.length
  mediaType := js "text/plain"
  storageProvider := js "local"
  storageKey := js "key"
  encryptionState := .providerManaged
  encryptionKeyRef := none
  verificationState := .verified
  createdAt := js "2026-01-01T00:00:00.000Z"
  storageBindingId := none
  storageBindingGeneration := none

def noteStorage : BlobStorage where
  head _ := .ok ⟨js "key", noteBytes.length, none⟩
  openReadStream _ := (noteBytes, none)

def noteResource : Resource :=
  ⟨js "resource", js "workspace", js "dataset", js "Note", none, .active, some (js "revision"),
    js "actor", ⟨0, epoch_bound⟩, ⟨0, epoch_bound⟩⟩

def titled (title : JsValue) (h : isJson (.object [(js "title", title)]) = true) : JsonObject :=
  ⟨[(js "title", title)], h⟩

def original : JsonObject := titled (.string (js "Original")) (by decide)

def retitled : JsonObject := titled (.string (js "Altered")) (by decide)

def untitled : JsonObject := titled (.bool true) (by decide)

/-- A revision that was written with the payload `original`, and has another one since. -/
def noteRevision (payload : JsonObject) : Revision where
  id := js "revision"
  workspaceId := js "workspace"
  datasetId := js "dataset"
  resourceId := js "resource"
  revisionNumber := 1
  parentRevisionId := none
  mergeParentRevisionIds := []
  schemaPackageId := js "schema"
  schemaVersion := js "1.0.0"
  canonicalPayload := payload
  canonicalPayloadHash := hashCanonical unitsLe original
  createdBy := js "actor"
  createdOnDeviceId := none
  source := .user
  changeNote := none
  restoredFromRevisionId := none
  createdAt := ⟨0, epoch_bound⟩

def noteSnapshot (payload : JsonObject) : Snapshot where
  workspaceExists := true
  datasets := [⟨js "dataset", js "schema"⟩]
  resources := [noteResource]
  revisions := [noteRevision payload]
  blobs := [noteBlob]
  revisionBlobs := [⟨js "attachment", js "revision", js "blob"⟩]
  relations := []
  tombstones := []
  auditEvents := []
  schemaPackages := [⟨js "schema", js "1.0.0",
    noteManifest "1.0.0" (oneField "title" (textField (some true))), .active⟩]

def noteDraw : RunDraw := ⟨js "run", js "2026-01-02T00:00:00.000Z", js "2026-01-02T00:00:00.000Z"⟩

def NotePassed (payload : JsonObject) : Prop :=
  Passed (fun _ => true) (fun _ => true) noteStorage noteStorage (js "workspace") none noteDraw
    noteDraw (noteSnapshot payload)

theorem notePassed_titled (title : JsString)
    (h : isJson (.object [(js "title", .string title)]) = true) :
    NotePassed (titled (.string title) h) := by
  have hschema : SchemaClear (fun _ => true) (fun _ => true)
      (noteSnapshot (titled (.string title) h)) := by
    intro resource hresource revision hrevision _
    obtain rfl := List.mem_singleton.mp hresource
    obtain rfl := List.mem_singleton.mp hrevision
    rfl
  have hscope : resolveScope (js "workspace") .workspace none = .ok ⟨.workspace, js "workspace"⟩ :=
    rfl
  refine ⟨structural_passed_iff.mpr ⟨⟨_, hscope⟩, rfl, rfl, hschema⟩, ⟨_, rfl, ?_⟩⟩
  simp [noteSnapshot, noteStorage, noteBlob, verifyBlob, headIssues, streamIssues]

theorem hashCanonical_retitled (keyLe : JsString → JsString → Bool) :
    hashCanonical keyLe retitled = hashCanonical unitsLe retitled := rfl

/-- Another title passes, although it does not have the stored hash. -/
theorem altered_title_passed :
    NotePassed retitled ∧
    ∀ revision ∈ (noteSnapshot retitled).revisions,
      ∀ keyLe, revision.canonicalPayloadHash ≠ hashCanonical keyLe revision.canonicalPayload := by
  refine ⟨notePassed_titled _ _, ?_⟩
  intro revision hrevision keyLe
  obtain rfl := List.mem_singleton.mp hrevision
  change hashCanonical unitsLe original ≠ hashCanonical keyLe retitled
  rw [hashCanonical_retitled]
  decide +kernel

/-- A boolean in place of the title does not. -/
theorem altered_passed_iff_untitled : ¬ NotePassed untitled := by
  intro hpassed
  have horiginal : NotePassed original := notePassed_titled _ _
  have hsame : withoutPayloads (noteSnapshot untitled) = withoutPayloads (noteSnapshot original) :=
    rfl
  have hvalid := (altered_passed_iff hsame horiginal).mp hpassed
  have hinvalid := hvalid noteResource List.mem_cons_self _ List.mem_cons_self rfl _ rfl
  cases hinvalid

end Example

end TrustCore.PayloadHashes
