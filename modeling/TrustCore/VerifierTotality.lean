import TrustCore.JsonTexts
import TrustCore.LineageChains
import TrustCore.ManifestChecks

/-!
# When the verifier reports

The verifier takes the manifest and the record lines for what their types say. A field of something
that has no fields throws, and what a type would have ruled out is sometimes not looked at: a manifest
that names no workspace, a record that is an array.
-/

namespace TrustCore.VerifierTotality

open TrustCore.Utf TrustCore.Json TrustCore.Dynamic TrustCore.ArchiveFormat TrustCore.ArchiveVerify
open TrustCore.ImportReferences TrustCore.ArchiveAssemble

/-- The manifest that the verifier goes on with. -/
def manifestRead (entries : EntryMap) : Option JsValue :=
  (readManifest (entries.get manifestPath)).2

/-- The records that the verifier goes on with. -/
def recordsRead (entries : EntryMap) (kind : ArchiveRecordKind) : List JsValue :=
  ((entries.get (recordsPath kind)).bind parseRecords).getD []

/-- `in` works on the value. -/
def isContainer : JsValue → Bool
  | .object _ => true
  | .array _ => true
  | _ => false

def hashText (event : JsValue) : JsString :=
  ((property event (js "eventHash")).bind asString).getD []

/-- No event names the hash of this one as the hash before it. -/
def isTail (events : List JsValue) (event : JsValue) : Bool :=
  !(events.filterMap fun later =>
    (property later (js "previousEventHash")).bind nonEmptyString).contains (hashText event)

/-- No field is read of a value that has none, and no text is made of one that has none. -/
structure Readable (entries : EntryMap) : Prop where
  counts : ∀ m, manifestRead entries = some m →
    (∀ kind, (entries.get (recordsPath kind)).isSome = true) ∨
      ∀ v, property m (js "recordCounts") = some v → isNullish v = false
  records : ∀ m, manifestRead entries = some m → ∀ kind, ∀ r ∈ recordsRead entries kind,
    isContainer r = true
  blobs : ∀ r ∈ recordsRead entries .blobs, r ≠ .null
  hashes : ∀ m, manifestRead entries = some m →
    ((recordsRead entries .auditEvents).filter
      (isTail (recordsRead entries .auditEvents))).length = 1 →
      ∀ e ∈ recordsRead entries .auditEvents, ∀ v, property e (js "eventHash") = some v →
        (toText v).isSome = true

/-- The verifier's checks of limits, checksums, manifest, counts, references, lineage and blobs find
nothing. -/
structure Faultless (entries : EntryMap) (limits : ArchiveVerificationLimits) : Prop where
  limits : limitIssues limits entries = []
  checksumFile : (readChecksums (entries.get checksumsPath)).1 = []
  checksums : checksumIssues entries (readChecksums (entries.get checksumsPath)).2 = []
  manifest : (readManifest (entries.get manifestPath)).1 = []
  profile : profileIssues entries false (manifestRead entries) = []
  counts : ∀ kind read, readRecords entries (manifestRead entries) kind = some read → read.1 = []
  records : validateRecords (manifestRead entries) (recordsRead entries) = some []
  blobs : validateBlobs (manifestRead entries) (recordsRead entries .blobs) entries = some []

def NamesWorkspace (entries : EntryMap) : Prop :=
  ∀ m, manifestRead entries = some m → property m (js "workspaceId") ≠ some .undefined

def isRecord : JsValue → Bool
  | .object _ => true
  | _ => false

def HoldsRecords (entries : EntryMap) : Prop :=
  ∀ kind, ∀ r ∈ recordsRead entries kind, isRecord r = true

/-- `value?.[key]?.[key]`. -/
def valueAt : JsValue → List JsString → JsValue
  | v, [] => v
  | v, key :: path => valueAt ((property v key).getD .undefined) path

/-- What the verifier reads of a manifest; a count only of a record file that is there, as it takes
zero for the count of another. -/
def fieldsRead (entries : EntryMap) : List (List JsString) :=
  [js "format", js "formatVersion", js "checksumAlgorithm", js "canonicalJsonProfile",
    js "signatureProfile", js "workspaceId", js "auditLineage", js "recordCounts", js "blobCount",
    js "totalBlobBytes"].map (fun key => [key]) ++
  [js "mode", js "sourceWorkspaceId", js "eventCount", js "firstEventHash", js "lastEventHash"].map
    (fun key => [js "auditLineage", key]) ++
  (archiveRecordKinds.filter fun kind => (entries.get (recordsPath kind)).isSome).map
    fun kind => [js "recordCounts", kind.text]

def ManifestLacks (entries : EntryMap) : Prop :=
  ∃ data text manifest, entries.get manifestPath = some data ∧ textDecode data = some text ∧
    parseJson text = some manifest ∧ ∃ path ∈ fieldsRead entries, valueAt manifest path = .undefined

/-- A line of a record file that is not a JSON object. -/
def BadLine (entries : EntryMap) : Prop :=
  ∃ kind data text, entries.get (recordsPath kind) = some data ∧ textDecode data = some text ∧
    ∃ line ∈ (splitAt 10 (trimEnd text)).filter (fun line => line != []),
      ∀ members, parseJson line ≠ some (.object members)

/-- The verifier returns a report, and one with an issue for a manifest that lacks a field or a line
that is no object. -/
def Reports (entries : EntryMap) (limits : ArchiveVerificationLimits) : Prop :=
  ∃ report, verifyArchiveEntries entries limits = some report ∧
    (ManifestLacks entries ∨ BadLine entries → report.valid = false ∧ report.issues ≠ [])

section Reads

variable {entries : EntryMap} {manifest : Option JsValue} {kind : ArchiveRecordKind}

theorem exists_property {v : JsValue} {key : JsString} :
    (∃ w, property v key = some w) ↔ isNullish v = false := by
  cases v <;> simp [property, isNullish]

theorem exists_hasProperty {v : JsValue} {key : JsString} :
    (∃ b, hasProperty v key = some b) ↔ isContainer v = true := by
  cases v <;> simp [hasProperty, isContainer]

theorem not_nullish_of_container {v : JsValue} (h : isContainer v = true) : isNullish v = false := by
  cases v with
  | object _ => rfl
  | array _ => rfl
  | _ => cases h

theorem exists_mapM_iff {α β : Type} {f : α → Option β} {xs : List α} :
    (∃ ys, xs.mapM f = some ys) ↔ ∀ x ∈ xs, ∃ y, f x = some y := by
  constructor
  · rintro ⟨ys, h⟩ x hx
    obtain ⟨y, -, hy⟩ := (mem_of_forall₂ (mapM_eq_some h)).1 x hx
    exact ⟨y, hy⟩
  · exact exists_mapM

theorem lookup_zip_mapM {α β : Type} [DecidableEq α] {f : α → Option β} {xs : List α} {ys : List β}
    (h : xs.mapM f = some ys) {x : α} (hx : x ∈ xs) : (xs.zip ys).lookup x = f x := by
  have hall := mapM_eq_some h
  clear h
  induction hall with
  | nil => cases hx
  | @cons a b as bs hab _ ih =>
    rw [List.zip_cons_cons, List.lookup_cons]
    by_cases heq : x = a
    · subst heq
      simp [hab]
    · simp only [beq_false_of_ne heq]
      exact ih ((List.mem_cons.mp hx).resolve_left heq)

theorem readAllRecords_kind {read : ArchiveRecordKind → List ArchiveIssue × List JsValue}
    (h : readAllRecords entries manifest = some read) (kind : ArchiveRecordKind) :
    readRecords entries manifest kind = some (read kind) := by
  obtain ⟨all, hall, h⟩ := Option.bind_eq_some_iff.mp h
  cases h
  obtain ⟨p, -, hp⟩ := (mem_of_forall₂ (mapM_eq_some hall)).1 kind (mem_archiveRecordKinds kind)
  simp only [lookup_zip_mapM hall (mem_archiveRecordKinds kind), hp, Option.getD_some]

theorem exists_readAllRecords : (∃ read, readAllRecords entries manifest = some read) ↔
    ∀ kind, ∃ read, readRecords entries manifest kind = some read := by
  constructor
  · rintro ⟨read, h⟩ kind
    exact ⟨read kind, readAllRecords_kind h kind⟩
  · intro h
    obtain ⟨all, hall⟩ := exists_mapM fun kind (_ : kind ∈ archiveRecordKinds) => h kind
    exact ⟨_, by rw [readAllRecords, hall]; rfl⟩

theorem readRecords_records {read : List ArchiveIssue × List JsValue}
    (h : readRecords entries manifest kind = some read) : read.2 = recordsRead entries kind := by
  unfold readRecords at h
  rw [recordsRead]
  split at h
  · rename_i hmissing
    rw [hmissing]
    split at h
    · cases h
      rfl
    · obtain ⟨count, -, h⟩ := Option.bind_eq_some_iff.mp h
      cases h
      rfl
  · rename_i bytes hbytes
    rw [hbytes, Option.bind_some]
    simp only at h
    split at h
    · rename_i hparsed
      cases h
      rw [hparsed]
      rfl
    rename_i records hparsed
    rw [hparsed, Option.getD_some]
    split at h
    · cases h
      rfl
    split at h
    · cases h
      rfl
    · cases h
      rfl

theorem exists_recordCount {m : JsValue} (hm : isNullish m = false) :
    (∃ count, recordCount m kind = some count) ↔
      ∀ v, property m (js "recordCounts") = some v → isNullish v = false := by
  obtain ⟨counts, hcounts⟩ := exists_property.mpr hm
  rw [recordCount, hcounts]
  simp only [Option.bind_eq_bind, Option.bind_some, Option.some.injEq, forall_eq']
  exact exists_property

theorem exists_readRecords (hm : ∀ m, manifest = some m → isNullish m = false) :
    (∃ read, readRecords entries manifest kind = some read) ↔ ∀ m, manifest = some m →
      (entries.get (recordsPath kind)).isSome = true ∨
        ∀ v, property m (js "recordCounts") = some v → isNullish v = false := by
  unfold readRecords
  split
  · rename_i hmissing
    rw [hmissing]
    cases manifest with
    | none => simp
    | some m =>
      simp only [Option.some.injEq, forall_eq', Option.isSome_none, Bool.false_eq_true, false_or,
        ← @exists_recordCount kind m (hm m rfl)]
      cases recordCount m kind <;> simp
  · rename_i bytes hbytes
    rw [hbytes]
    simp only [Option.isSome_some, true_or, implies_true, iff_true]
    split
    · exact ⟨_, rfl⟩
    split
    · exact ⟨_, rfl⟩
    split
    · exact ⟨_, rfl⟩
    · exact ⟨_, rfl⟩

end Reads

section Checks

variable {manifest : JsValue} {records : ArchiveRecordKind → List JsValue} {entries : EntryMap}

theorem exists_column {values : List JsValue} {key : JsString}
    (h : ∀ v ∈ values, isContainer v = true) : ∃ found, column values key = some found :=
  exists_mapM fun v hv => exists_property.mpr (not_nullish_of_container (h v hv))

theorem exists_validateScope {workspaceId : JsValue} {kind : ArchiveRecordKind} {r : JsValue} :
    (∃ issues, validateScope workspaceId kind r = some issues) ↔ isContainer r = true := by
  constructor
  · rintro ⟨issues, h⟩
    obtain ⟨present, hpresent, -⟩ := Option.bind_eq_some_iff.mp h
    exact exists_hasProperty.mp ⟨present, hpresent⟩
  · intro h
    obtain ⟨present, hpresent⟩ := exists_hasProperty.mpr h
    obtain ⟨value, hvalue⟩ := exists_property.mpr (not_nullish_of_container h)
    exact ⟨_, by rw [validateScope, hpresent, hvalue]; rfl⟩

theorem exists_validateScopeAndReferences (hm : isNullish manifest = false) :
    (∃ issues, validateScopeAndReferences manifest records = some issues) ↔
      ∀ kind, ∀ r ∈ records kind, isContainer r = true := by
  constructor
  · rintro ⟨issues, h⟩ kind r hr
    obtain ⟨resources, -, h⟩ := Option.bind_eq_some_iff.mp h
    obtain ⟨revisions, -, h⟩ := Option.bind_eq_some_iff.mp h
    obtain ⟨workspaceId, -, h⟩ := Option.bind_eq_some_iff.mp h
    obtain ⟨scopes, hscopes, -⟩ := Option.bind_eq_some_iff.mp h
    obtain ⟨group, hgroup⟩ := exists_mapM_iff.mp ⟨scopes, hscopes⟩ kind (mem_archiveRecordKinds kind)
    exact exists_validateScope.mp (exists_mapM_iff.mp ⟨group, hgroup⟩ r hr)
  · intro h
    obtain ⟨resources, hresources⟩ := @exists_column _ (js "id") (h .resources)
    obtain ⟨revisions, hrevisions⟩ := @exists_column _ (js "id") (h .revisions)
    obtain ⟨workspaceId, hworkspace⟩ := (@exists_property _ (js "workspaceId")).mpr hm
    obtain ⟨scopes, hscopes⟩ : ∃ scopes, (archiveRecordKinds.mapM fun kind =>
        (records kind).mapM (validateScope workspaceId kind)) = some scopes :=
      exists_mapM fun kind _ => exists_mapM fun r hr => exists_validateScope.mpr (h kind r hr)
    obtain ⟨references, hreferences⟩ : ∃ references, ((records .revisions).mapM
        (validateRevision (resources.filterMap asString) (revisions.filterMap asString))) =
          some references := by
      apply exists_mapM
      intro r hr
      have hcontainer := not_nullish_of_container (h .revisions r hr)
      obtain ⟨resourceId, hresource⟩ := (@exists_property _ (js "resourceId")).mpr hcontainer
      obtain ⟨parentId, hparent⟩ := (@exists_property _ (js "parentRevisionId")).mpr hcontainer
      exact ⟨_, by rw [validateRevision, hresource, hparent]; rfl⟩
    refine ⟨scopes.flatten.flatten ++ references.flatten, ?_⟩
    rw [validateScopeAndReferences, hresources, hrevisions, hworkspace]
    simp only [Option.bind_eq_bind, Option.bind_some, hscopes, hreferences, Option.pure_def]

/-- The columns of events, as functions of each. -/
theorem column_eq_map {values found : List JsValue} {key : JsString}
    (h : column values key = some found) :
    found = values.map fun v => (property v key).getD .undefined := by
  have hall := mapM_eq_some h
  clear h
  induction hall with
  | nil => rfl
  | cons hv _ ih => rw [List.map_cons, hv, Option.getD_some, ih]

theorem length_tails {events eventHashes previousHashes : List JsValue}
    (hhashes : column events (js "eventHash") = some eventHashes)
    (hprevious : column events (js "previousEventHash") = some previousHashes) :
    ((eventHashes.map fun v => (asString v).getD []).filter fun hash =>
      !(previousHashes.filterMap nonEmptyString).contains hash).length =
        (events.filter (isTail events)).length := by
  have hnone : nonEmptyString .undefined = none := rfl
  have hreferences : previousHashes.filterMap nonEmptyString = events.filterMap fun later =>
      (property later (js "previousEventHash")).bind nonEmptyString := by
    rw [column_eq_map hprevious, List.filterMap_map]
    apply List.filterMap_congr
    intro v _
    rw [Function.comp_apply]
    cases property v (js "previousEventHash") <;> rfl
  have htexts : (eventHashes.map fun v => (asString v).getD []) = events.map hashText := by
    rw [column_eq_map hhashes, List.map_map]
    apply List.map_congr_left
    intro v _
    rw [Function.comp_apply, hashText]
    cases property v (js "eventHash") <;> rfl
  rw [hreferences, htexts, List.filter_map, List.length_map]
  rfl

theorem exists_chainIssues {lineage : JsValue} {eventHashes previousHashes : List JsValue}
    (hl : isNullish lineage = false) :
    (∃ issues, chainIssues lineage eventHashes previousHashes = some issues) ↔
      (((eventHashes.map fun v => (asString v).getD []).filter fun hash =>
        !(previousHashes.filterMap nonEmptyString).contains hash).length = 1 →
          ∀ v ∈ eventHashes, (toText v).isSome = true) := by
  obtain ⟨first, hfirst⟩ := (@exists_property _ (js "firstEventHash")).mpr hl
  obtain ⟨last, hlast⟩ := (@exists_property _ (js "lastEventHash")).mpr hl
  have htexts : (∃ byHash, hashIndex eventHashes previousHashes = some byHash) ↔
      ∀ v ∈ eventHashes, (toText v).isSome = true := by
    simp only [hashIndex, Option.isSome_iff_exists, ← exists_mapM_iff]
    cases eventHashes.mapM toText <;> simp
  rw [chainIssues, hfirst, hlast, ← htexts]
  simp only [Option.bind_eq_bind, Option.bind_some]
  generalize ((eventHashes.map fun v => (asString v).getD []).filter fun hash =>
    !(previousHashes.filterMap nonEmptyString).contains hash) = tails
  rcases tails with _ | ⟨tail, _ | ⟨other, rest⟩⟩
  · simp
  · cases hashIndex eventHashes previousHashes <;> simp
  · simp

theorem exists_validateAuditLineage {lineage : JsValue} {events : List JsValue}
    (hlineage : property manifest (js "auditLineage") = some lineage)
    (hl : isNullish lineage = false) (he : ∀ e ∈ events, isContainer e = true) :
    (∃ issues, validateAuditLineage manifest events = some issues) ↔
      ((events.filter (isTail events)).length = 1 →
        ∀ e ∈ events, ∀ v, property e (js "eventHash") = some v → (toText v).isSome = true) := by
  obtain ⟨count, hcount⟩ := (@exists_property _ (js "eventCount")).mpr hl
  obtain ⟨first, hfirst⟩ := (@exists_property _ (js "firstEventHash")).mpr hl
  obtain ⟨last, hlast⟩ := (@exists_property _ (js "lastEventHash")).mpr hl
  obtain ⟨eventHashes, hhashes⟩ := @exists_column _ (js "eventHash") he
  obtain ⟨previousHashes, hprevious⟩ := @exists_column _ (js "previousEventHash") he
  have hvalues : (∀ v ∈ eventHashes, (toText v).isSome = true) ↔ ∀ e ∈ events, ∀ v,
      property e (js "eventHash") = some v → (toText v).isSome = true := by
    have hcolumn := mem_of_forall₂ (mapM_eq_some hhashes)
    constructor
    · intro h e heMem v hv
      obtain ⟨w, hw, hproperty⟩ := hcolumn.1 e heMem
      rw [hv, Option.some.injEq] at hproperty
      exact hproperty ▸ h w hw
    · intro h v hv
      obtain ⟨e, heMem, hproperty⟩ := hcolumn.2 v hv
      exact h e heMem v hproperty
  rw [validateAuditLineage, hlineage]
  simp only [Option.bind_eq_bind, Option.bind_some, hcount, hhashes, hprevious]
  by_cases hnil : events = []
  · subst hnil
    simp [hfirst, hlast]
  · rw [if_neg hnil, ← hvalues, ← length_tails hhashes hprevious, ← exists_chainIssues hl]
    cases chainIssues lineage eventHashes previousHashes <;> simp

theorem exists_validateRecords {members lineage : List (JsString × JsValue)}
    (h : CheckedManifest members lineage) :
    (∃ issues, validateRecords (some (.object members)) records = some issues) ↔
      (∀ kind, ∀ r ∈ records kind, isContainer r = true) ∧
        (((records .auditEvents).filter (isTail (records .auditEvents))).length = 1 →
          ∀ e ∈ records .auditEvents, ∀ v, property e (js "eventHash") = some v →
            (toText v).isSome = true) := by
  have hlineage : property (.object members) (js "auditLineage") = some (.object lineage) :=
    congrArg some h.auditLineage
  constructor
  · rintro ⟨issues, hissues⟩
    obtain ⟨references, hreferences, hissues⟩ := Option.bind_eq_some_iff.mp hissues
    obtain ⟨chain, hchain, -⟩ := Option.bind_eq_some_iff.mp hissues
    have hrecords := (exists_validateScopeAndReferences rfl).mp ⟨references, hreferences⟩
    exact ⟨hrecords, (exists_validateAuditLineage hlineage rfl (hrecords .auditEvents)).mp
      ⟨chain, hchain⟩⟩
  · rintro ⟨hrecords, hhashes⟩
    obtain ⟨references, hreferences⟩ :=
      (@exists_validateScopeAndReferences (.object members) records rfl).mpr hrecords
    obtain ⟨chain, hchain⟩ :=
      (exists_validateAuditLineage hlineage rfl (hrecords .auditEvents)).mpr hhashes
    exact ⟨references ++ chain, by rw [validateRecords, hreferences, hchain]; rfl⟩

theorem exists_validateBlob {r : JsValue} :
    (∃ read, validateBlob entries r = some read) ↔ isNullish r = false := by
  constructor
  · rintro ⟨read, h⟩
    obtain ⟨digest, hdigest, -⟩ := Option.bind_eq_some_iff.mp h
    exact exists_property.mp ⟨digest, hdigest⟩
  · intro h
    obtain ⟨digest, hdigest⟩ := (@exists_property _ (js "sha256")).mpr h
    obtain ⟨byteLength, hlength⟩ := (@exists_property _ (js "byteLength")).mpr h
    rw [validateBlob, hdigest, hlength]
    simp only [Option.bind_eq_bind, Option.bind_some]
    split
    · split
      · exact ⟨_, rfl⟩
      split
      · exact ⟨_, rfl⟩
      · exact ⟨_, rfl⟩
    · exact ⟨_, rfl⟩

theorem exists_validateBlobs {manifest : Option JsValue} {blobs : List JsValue}
    (hm : ∀ m, manifest = some m → isNullish m = false) :
    (∃ issues, validateBlobs manifest blobs entries = some issues) ↔
      ∀ r ∈ blobs, isNullish r = false := by
  constructor
  · rintro ⟨issues, h⟩ r hr
    obtain ⟨checked, hchecked, -⟩ := Option.bind_eq_some_iff.mp h
    exact exists_validateBlob.mp (exists_mapM_iff.mp ⟨checked, hchecked⟩ r hr)
  · intro h
    obtain ⟨checked, hchecked⟩ := exists_mapM fun r hr => (@exists_validateBlob entries r).mpr (h r hr)
    rw [validateBlobs, hchecked]
    cases manifest with
    | none => exact ⟨_, rfl⟩
    | some m =>
      obtain ⟨blobCount, hcount⟩ := (@exists_property _ (js "blobCount")).mpr (hm m rfl)
      obtain ⟨totalBlobBytes, htotal⟩ := (@exists_property _ (js "totalBlobBytes")).mpr (hm m rfl)
      simp only [Option.bind_eq_bind, Option.bind_some, hcount, htotal]
      exact ⟨_, rfl⟩

end Checks

section Reports

variable {entries : EntryMap} {limits : ArchiveVerificationLimits} {report : VerificationReport}

theorem checked_of_manifestRead {m : JsValue} (h : manifestRead entries = some m) :
    ∃ members lineage, m = .object members ∧ CheckedManifest members lineage := by
  obtain ⟨-, -, -, members, lineage, -, -, -, hm, hchecked, -, -⟩ :=
    readManifest_some (Prod.ext rfl h : readManifest (entries.get manifestPath) = (_, some m))
  exact ⟨members, lineage, hm, hchecked⟩

theorem not_nullish_manifest : ∀ m, manifestRead entries = some m → isNullish m = false := by
  intro m hm
  obtain ⟨members, lineage, rfl, -⟩ := checked_of_manifestRead hm
  rfl

theorem not_undefined_of_read {kind : ArchiveRecordKind} {r : JsValue}
    (h : r ∈ recordsRead entries kind) : r ≠ .undefined := by
  rintro rfl
  rw [recordsRead] at h
  cases hread : (entries.get (recordsPath kind)).bind parseRecords with
  | none =>
    rw [hread] at h
    cases h
  | some records =>
    rw [hread, Option.getD_some] at h
    obtain ⟨data, -, hparsed⟩ := Option.bind_eq_some_iff.mp hread
    obtain ⟨text, -, hparsed⟩ := Option.bind_eq_some_iff.mp hparsed
    obtain ⟨line, -, hline⟩ := (mem_of_forall₂ (mapM_eq_some hparsed)).2 _ h
    cases isDefined_parseJson hline

/-- The parts of a report. -/
theorem verify_parts (h : verifyArchiveEntries entries limits = some report) :
    ∃ read checked blobs, readAllRecords entries (manifestRead entries) = some read ∧
      validateRecords (manifestRead entries) (recordsRead entries) = some checked ∧
      validateBlobs (manifestRead entries) (recordsRead entries .blobs) entries = some blobs ∧
      report.valid = report.issues.isEmpty ∧
      report.issues = limitIssues limits entries ++
        (readChecksums (entries.get checksumsPath)).1 ++
        checksumIssues entries (readChecksums (entries.get checksumsPath)).2 ++
        (readManifest (entries.get manifestPath)).1 ++
        profileIssues entries false (manifestRead entries) ++
        archiveRecordKinds.flatMap (fun kind => (read kind).1) ++ checked ++ blobs := by
  rw [verifyArchiveEntries, verifyArchiveEntriesBase] at h
  obtain ⟨read, hread, h⟩ := Option.bind_eq_some_iff.mp h
  obtain ⟨checked, hchecked, h⟩ := Option.bind_eq_some_iff.mp h
  obtain ⟨blobs, hblobs, h⟩ := Option.bind_eq_some_iff.mp h
  cases h
  have hrecords : (fun kind => (read kind).2) = recordsRead entries :=
    funext fun kind => readRecords_records (readAllRecords_kind hread kind)
  rw [hrecords] at hchecked
  have hblobs' : validateBlobs (manifestRead entries) (recordsRead entries .blobs) entries =
      some blobs := by
    rw [← readRecords_records (readAllRecords_kind hread .blobs)]
    exact hblobs
  exact ⟨read, checked, blobs, hread, hchecked, hblobs', rfl, rfl⟩

/-- The verifier does not throw exactly when everything it reads has what it reads. -/
theorem exists_report_iff :
    (∃ report, verifyArchiveEntries entries limits = some report) ↔ Readable entries := by
  constructor
  · rintro ⟨report, h⟩
    obtain ⟨read, checked, blobs, hread, hchecked, hblobs, -, -⟩ := verify_parts h
    have hkinds := exists_readAllRecords.mp ⟨read, hread⟩
    constructor
    · intro m hm
      by_cases hall : ∀ kind, (entries.get (recordsPath kind)).isSome = true
      · exact Or.inl hall
      · obtain ⟨kind, hkind⟩ := not_forall.mp hall
        exact Or.inr (((exists_readRecords not_nullish_manifest).mp (hkinds kind) m hm).resolve_left
          hkind)
    · intro m hm
      obtain ⟨members, lineage, rfl, hmanifest⟩ := checked_of_manifestRead hm
      rw [hm] at hchecked
      exact ((exists_validateRecords hmanifest).mp ⟨checked, hchecked⟩).1
    · intro r hr hnull
      have hread := (exists_validateBlobs not_nullish_manifest).mp ⟨blobs, hblobs⟩ r hr
      rw [hnull] at hread
      cases hread
    · intro m hm
      obtain ⟨members, lineage, rfl, hmanifest⟩ := checked_of_manifestRead hm
      rw [hm] at hchecked
      exact ((exists_validateRecords hmanifest).mp ⟨checked, hchecked⟩).2
  · intro h
    obtain ⟨read, hread⟩ : ∃ read, readAllRecords entries (manifestRead entries) = some read := by
      rw [exists_readAllRecords]
      intro kind
      rw [exists_readRecords not_nullish_manifest]
      intro m hm
      exact (h.counts m hm).imp_left fun hall => hall kind
    have hrecords : (fun kind => (read kind).2) = recordsRead entries :=
      funext fun kind => readRecords_records (readAllRecords_kind hread kind)
    obtain ⟨checked, hchecked⟩ : ∃ checked,
        validateRecords (manifestRead entries) (recordsRead entries) = some checked := by
      cases hm : manifestRead entries with
      | none => exact ⟨[], rfl⟩
      | some m =>
        obtain ⟨members, lineage, rfl, hmanifest⟩ := checked_of_manifestRead hm
        exact (exists_validateRecords hmanifest).mpr ⟨h.records _ hm, h.hashes _ hm⟩
    obtain ⟨blobs, hblobs⟩ : ∃ blobs,
        validateBlobs (manifestRead entries) (recordsRead entries .blobs) entries = some blobs := by
      rw [exists_validateBlobs not_nullish_manifest]
      intro r hr
      cases r with
      | undefined => exact absurd rfl (not_undefined_of_read hr)
      | null => exact absurd rfl (h.blobs _ hr)
      | _ => rfl
    have hread' : readAllRecords entries (readManifest (entries.get manifestPath)).2 = some read :=
      hread
    have hchecked' : validateRecords (readManifest (entries.get manifestPath)).2
        (fun kind => (read kind).2) = some checked := by
      rw [hrecords]
      exact hchecked
    have hblobs' : validateBlobs (readManifest (entries.get manifestPath)).2 (read .blobs).2
        entries = some blobs := by
      rw [show (read .blobs).2 = recordsRead entries .blobs from congrFun hrecords .blobs]
      exact hblobs
    rw [verifyArchiveEntries, verifyArchiveEntriesBase]
    simp only [Option.bind_eq_bind, hread', Option.bind_some, hchecked', hblobs']
    exact ⟨_, rfl⟩

theorem issues_eq_nil_iff (h : verifyArchiveEntries entries limits = some report) :
    report.issues = [] ↔ Faultless entries limits := by
  obtain ⟨read, checked, blobs, hread, hchecked, hblobs, -, hissues⟩ := verify_parts h
  rw [hissues]
  simp only [List.append_eq_nil_iff, List.flatMap_eq_nil_iff]
  constructor
  · rintro ⟨⟨⟨⟨⟨⟨⟨hlimits, hfile⟩, hchecksums⟩, hmanifest⟩, hprofile⟩, hcounts⟩, rfl⟩, rfl⟩
    refine ⟨hlimits, hfile, hchecksums, hmanifest, hprofile, ?_, hchecked, hblobs⟩
    intro kind found hfound
    rw [readAllRecords_kind hread kind, Option.some.injEq] at hfound
    rw [← hfound]
    exact hcounts kind (mem_archiveRecordKinds kind)
  · rintro ⟨hlimits, hfile, hchecksums, hmanifest, hprofile, hcounts, hrecords, hblobs'⟩
    rw [hchecked, Option.some.injEq] at hrecords
    rw [hblobs, Option.some.injEq] at hblobs'
    exact ⟨⟨⟨⟨⟨⟨⟨hlimits, hfile⟩, hchecksums⟩, hmanifest⟩, hprofile⟩,
      fun kind _ => hcounts kind _ (readAllRecords_kind hread kind)⟩, hrecords⟩, hblobs'⟩

/-- The manifest and its lineage, where nothing is found. -/
theorem Faultless.checked (h : Faultless entries limits) : ∃ data text members lineage,
    entries.get manifestPath = some data ∧ textDecode data = some text ∧
      parseJson text = some (.object members) ∧ manifestRead entries = some (.object members) ∧
        CheckedManifest members lineage := by
  obtain ⟨m, hm⟩ := exists_manifest h.manifest
  obtain ⟨data, text, -, members, lineage, hdata, htext, hvalue, rfl, hchecked, -, -⟩ :=
    readManifest_some (Prod.ext rfl hm : readManifest (entries.get manifestPath) = (_, some m))
  exact ⟨data, text, members, lineage, hdata, htext, hvalue, hm, hchecked⟩

theorem not_undefined_of_strictEq {n : Nat} {v : JsValue} (h : strictEq (numberOf n) v = true) :
    v ≠ .undefined := by
  rw [← eq_of_strictEq h, numberOf]
  intro hundefined
  cases hundefined

/-- A record file that is there has its count in the manifest. -/
theorem Faultless.count (h : Faultless entries limits)
    {members : List (JsString × JsValue)} (hm : manifestRead entries = some (.object members))
    {kind : ArchiveRecordKind} (hfile : (entries.get (recordsPath kind)).isSome = true) :
    valueAt (.object members) [js "recordCounts", kind.text] ≠ .undefined := by
  obtain ⟨data, hdata⟩ := Option.isSome_iff_exists.mp hfile
  obtain ⟨read, hread⟩ := (@exists_readRecords entries _ kind not_nullish_manifest).mpr
    fun _ _ => Or.inl hfile
  have hissues := h.counts kind read hread
  rw [hm, readRecords, hdata] at hread
  simp only at hread
  split at hread
  · cases hread
    cases hissues
  split at hread
  · cases hread
    cases hissues
  rename_i count hcount
  cases hread
  simp only [ite_eq_left_iff, reduceCtorEq, imp_false, not_not] at hissues
  have hvalue : valueAt (.object members) [js "recordCounts", kind.text] = count := by
    rw [recordCount] at hcount
    obtain ⟨counts, hcounts, hkind⟩ := Option.bind_eq_some_iff.mp hcount
    simp only [valueAt, hcounts, hkind, Option.getD_some]
  rw [hvalue]
  exact not_undefined_of_strictEq hissues

/-- The boundary hashes are there, null for no event and the hash of one otherwise. -/
theorem boundary_of_lineage {manifest lineage : JsValue} {events : List JsValue}
    (hlineage : property manifest (js "auditLineage") = some lineage)
    (h : validateAuditLineage manifest events = some []) :
    property lineage (js "firstEventHash") ≠ some .undefined ∧
      property lineage (js "lastEventHash") ≠ some .undefined := by
  obtain ⟨found, hfound, h⟩ := Option.bind_eq_some_iff.mp h
  obtain rfl : lineage = found := Option.some.inj (hlineage.symm.trans hfound)
  obtain ⟨count, -, h⟩ := Option.bind_eq_some_iff.mp h
  obtain ⟨eventHashes, hhashes, h⟩ := Option.bind_eq_some_iff.mp h
  obtain ⟨previousHashes, hprevious, h⟩ := Option.bind_eq_some_iff.mp h
  by_cases hnil : events = []
  · rw [if_pos hnil] at h
    obtain ⟨first, hfirst, h⟩ := Option.bind_eq_some_iff.mp h
    obtain ⟨last, hlast, h⟩ := Option.bind_eq_some_iff.mp h
    have hbounds := (List.append_eq_nil_iff.mp (Option.some.inj h)).2
    simp only [ite_eq_left_iff, reduceCtorEq, imp_false, not_not, Bool.and_eq_true] at hbounds
    rw [hfirst, hlast, eq_of_strictEq hbounds.1, eq_of_strictEq hbounds.2]
    exact ⟨nofun, nofun⟩
  · rw [if_neg hnil] at h
    obtain ⟨chain, hchain, h⟩ := Option.bind_eq_some_iff.mp h
    have hempty := (List.append_eq_nil_iff.mp (Option.some.inj h)).2
    subst hempty
    have hlength : eventHashes.length = previousHashes.length := by
      rw [column_eq_map hhashes, column_eq_map hprevious, List.length_map, List.length_map]
    have hfst : (eventHashes.zip previousHashes).map Prod.fst = eventHashes :=
      List.map_fst_zip hlength.le
    have hsnd : (eventHashes.zip previousHashes).map Prod.snd = previousHashes :=
      List.map_snd_zip hlength.ge
    have hpairs : chainIssues lineage ((eventHashes.zip previousHashes).map Prod.fst)
        ((eventHashes.zip previousHashes).map Prod.snd) = some [] := by
      rw [hfst, hsnd]
      exact hchain
    obtain ⟨root, tail, haccepted⟩ := accepted_of_chainIssues hpairs
    obtain ⟨first, hfirst, hroot⟩ := haccepted.first
    obtain ⟨last, hlast, htail⟩ := haccepted.last
    have hmem : root ∈ eventHashes.zip previousHashes := by
      have hroots := haccepted.roots ▸ List.mem_singleton_self root
      exact (List.mem_filter.mp hroots).1
    obtain ⟨hash, hhash, -⟩ := string_of_sha256 (haccepted.valid root hmem)
    rw [hfirst, hlast, eq_of_strictEq hroot, eq_of_strictEq htail, hhash]
    exact ⟨nofun, nofun⟩

theorem Faultless.boundary (h : Faultless entries limits)
    {members lineage : List (JsString × JsValue)}
    (hm : manifestRead entries = some (.object members)) (hchecked : CheckedManifest members lineage) :
    field lineage (js "firstEventHash") ≠ .undefined ∧
      field lineage (js "lastEventHash") ≠ .undefined := by
  have hrecords := h.records
  rw [hm, validateRecords] at hrecords
  obtain ⟨references, -, hrecords⟩ := Option.bind_eq_some_iff.mp hrecords
  obtain ⟨chain, hchain, hrecords⟩ := Option.bind_eq_some_iff.mp hrecords
  obtain ⟨-, rfl⟩ := List.append_eq_nil_iff.mp (Option.some.inj hrecords)
  have hlineage : property (.object members) (js "auditLineage") = some (.object lineage) :=
    congrArg some hchecked.auditLineage
  obtain ⟨hfirst, hlast⟩ := boundary_of_lineage hlineage hchain
  exact ⟨fun hmissing => hfirst (congrArg some hmissing),
    fun hmissing => hlast (congrArg some hmissing)⟩

theorem totals_of_blobs {manifest : JsValue} {blobs : List JsValue}
    (h : validateBlobs (some manifest) blobs entries = some []) :
    property manifest (js "blobCount") ≠ some .undefined ∧
      property manifest (js "totalBlobBytes") ≠ some .undefined := by
  obtain ⟨checked, -, h⟩ := Option.bind_eq_some_iff.mp h
  obtain ⟨blobCount, hcount, h⟩ := Option.bind_eq_some_iff.mp h
  obtain ⟨totalBlobBytes, htotal, h⟩ := Option.bind_eq_some_iff.mp h
  have hnil := (List.append_eq_nil_iff.mp (Option.some.inj h)).2
  simp only [ite_eq_left_iff, reduceCtorEq, imp_false, not_not, Bool.and_eq_true] at hnil
  rw [hcount, htotal, eq_of_strictEq hnil.1, eq_of_strictEq hnil.2]
  exact ⟨nofun, nofun⟩

theorem Faultless.blobTotals (h : Faultless entries limits) {members : List (JsString × JsValue)}
    (hm : manifestRead entries = some (.object members)) :
    field members (js "blobCount") ≠ .undefined ∧
      field members (js "totalBlobBytes") ≠ .undefined := by
  have hblobs := h.blobs
  rw [hm] at hblobs
  obtain ⟨hcount, htotal⟩ := totals_of_blobs hblobs
  exact ⟨fun hmissing => hcount (congrArg some hmissing),
    fun hmissing => htotal (congrArg some hmissing)⟩

theorem Faultless.recordCounts (h : Faultless entries limits) (hreadable : Readable entries)
    {members : List (JsString × JsValue)} (hm : manifestRead entries = some (.object members)) :
    field members (js "recordCounts") ≠ .undefined := by
  intro hmissing
  rcases hreadable.counts _ hm with hall | hcounts
  · have hcount := h.count hm (hall .workspaces)
    apply hcount
    rw [valueAt, property, Option.getD_some, hmissing]
    rfl
  · have hnullish := hcounts .undefined (congrArg some hmissing)
    cases hnullish

theorem CheckedManifest.signatureProfile {members lineage : List (JsString × JsValue)}
    (h : CheckedManifest members lineage) : field members (js "signatureProfile") ≠ .undefined := by
  intro hmissing
  rcases h.profile with hprofile | hprofile
  · rw [hmissing, isUnsignedProfile, Bool.and_eq_true] at hprofile
    cases hprofile.2
  · rw [hmissing] at hprofile
    cases hprofile

/-- Where nothing is found and the workspace is named, nothing is missing that is read. -/
theorem Faultless.present (h : Faultless entries limits) (hreadable : Readable entries)
    {members lineage : List (JsString × JsValue)}
    (hm : manifestRead entries = some (.object members)) (hchecked : CheckedManifest members lineage)
    (hworkspace : field members (js "workspaceId") ≠ .undefined) :
    ∀ path ∈ fieldsRead entries, valueAt (.object members) path ≠ .undefined := by
  intro path hpath
  rw [fieldsRead, List.mem_append, List.mem_append] at hpath
  rcases hpath with (hpath | hpath) | hpath
  · obtain ⟨key, hkey, rfl⟩ := List.mem_map.mp hpath
    change field members key ≠ .undefined
    simp only [List.mem_cons, List.not_mem_nil, or_false] at hkey
    rcases hkey with rfl | rfl | rfl | rfl | rfl | rfl | rfl | rfl | rfl | rfl
    · rw [hchecked.format]
      nofun
    · rcases hchecked.formatVersion with hversion | hversion <;> rw [hversion] <;> nofun
    · rw [hchecked.checksumAlgorithm]
      nofun
    · rw [hchecked.canonicalJsonProfile]
      nofun
    · exact CheckedManifest.signatureProfile hchecked
    · exact hworkspace
    · rw [hchecked.auditLineage]
      nofun
    · exact h.recordCounts hreadable hm
    · exact (h.blobTotals hm).1
    · exact (h.blobTotals hm).2
  · obtain ⟨key, hkey, rfl⟩ := List.mem_map.mp hpath
    have hvalue : valueAt (.object members) [js "auditLineage", key] = field lineage key := by
      rw [valueAt, property, Option.getD_some, hchecked.auditLineage]
      rfl
    rw [hvalue]
    simp only [List.mem_cons, List.not_mem_nil, or_false] at hkey
    rcases hkey with rfl | rfl | rfl | rfl | rfl
    · rw [hchecked.mode]
      nofun
    · rw [eq_of_strictEq hchecked.source]
      exact hworkspace
    · intro hmissing
      have hcount := hchecked.eventCount
      rw [hmissing] at hcount
      cases hcount
    · exact (h.boundary hm hchecked).1
    · exact (h.boundary hm hchecked).2
  · obtain ⟨kind, hkind, rfl⟩ := List.mem_map.mp hpath
    exact h.count hm (List.mem_filter.mp hkind).2

/-- Where nothing is found every line was read as a record. -/
theorem Faultless.line (h : Faultless entries limits) (hholds : HoldsRecords entries) : ¬ BadLine entries := by
  rintro ⟨kind, data, text, hdata, htext, line, hline, hbad⟩
  obtain ⟨read, hread⟩ := (@exists_readRecords entries _ kind not_nullish_manifest).mpr
    fun _ _ => Or.inl (by rw [hdata]; rfl)
  have hissues := h.counts kind read hread
  unfold readRecords at hread
  rw [hdata] at hread
  simp only at hread
  cases hparsed : parseRecords data with
  | none =>
    rw [hparsed] at hread
    cases hread
    cases hissues
  | some records =>
    have hrecords := hparsed
    rw [parseRecords, htext] at hrecords
    obtain ⟨r, hr, hparse⟩ := (mem_of_forall₂ (mapM_eq_some hrecords)).1 line hline
    have hmem : r ∈ recordsRead entries kind := by
      rw [recordsRead, hdata, Option.bind_some, hparsed, Option.getD_some]
      exact hr
    have hrecord := hholds kind r hmem
    cases r with
    | object members => exact hbad members hparse
    | _ => cases hrecord

/-- A record that is no object was a line that is none. -/
theorem holds_of_lines (h : ¬ BadLine entries) : HoldsRecords entries := by
  intro kind r hr
  rw [recordsRead] at hr
  cases hread : (entries.get (recordsPath kind)).bind parseRecords with
  | none =>
    rw [hread] at hr
    cases hr
  | some records =>
    rw [hread, Option.getD_some] at hr
    obtain ⟨data, hdata, hparsed⟩ := Option.bind_eq_some_iff.mp hread
    obtain ⟨text, htext, hparsed⟩ := Option.bind_eq_some_iff.mp hparsed
    obtain ⟨line, hline, hparse⟩ := (mem_of_forall₂ (mapM_eq_some hparsed)).2 r hr
    by_contra hrecord
    apply h
    refine ⟨kind, data, text, hdata, htext, line, hline, ?_⟩
    intro members hobject
    rw [hparse, Option.some.injEq] at hobject
    rw [hobject] at hrecord
    exact hrecord rfl

/-- The verifier reports what the types rule out exactly when no read goes to something without
fields, and when a manifest without a workspace, or a record that is no object, comes with another
fault. -/
theorem reports_iff (entries : EntryMap) (limits : ArchiveVerificationLimits) :
    Reports entries limits ↔ Readable entries ∧
      (Faultless entries limits → NamesWorkspace entries ∧ HoldsRecords entries) := by
  constructor
  · rintro ⟨report, hreport, hreports⟩
    have hreadable := exists_report_iff.mp ⟨report, hreport⟩
    refine ⟨hreadable, fun hfaultless => ?_⟩
    have hnone : ¬ (ManifestLacks entries ∨ BadLine entries) := fun hbad =>
      (hreports hbad).2 ((issues_eq_nil_iff hreport).mpr hfaultless)
    constructor
    · intro m hm hmissing
      obtain ⟨data, text, members, lineage, hdata, htext, hvalue, hmanifest, -⟩ := hfaultless.checked
      obtain rfl : JsValue.object members = m := Option.some.inj (hmanifest.symm.trans hm)
      apply hnone
      refine Or.inl ⟨data, text, .object members, hdata, htext, hvalue, [js "workspaceId"], ?_, ?_⟩
      · rw [fieldsRead, List.append_assoc]
        exact List.mem_append_left _ (by decide)
      · rw [valueAt, hmissing]
        rfl
    · exact holds_of_lines fun hbad => hnone (Or.inr hbad)
  · rintro ⟨hreadable, hsound⟩
    obtain ⟨report, hreport⟩ := (@exists_report_iff entries limits).mpr hreadable
    refine ⟨report, hreport, fun hbad => ?_⟩
    have hissues : report.issues ≠ [] := by
      intro hnil
      have hfaultless := (issues_eq_nil_iff hreport).mp hnil
      obtain ⟨hnames, hholds⟩ := hsound hfaultless
      rcases hbad with hlacks | hline
      · obtain ⟨data, text, members, lineage, hdata, htext, hvalue, hm, hchecked⟩ :=
          hfaultless.checked
        obtain ⟨data', text', manifest, hdata', htext', hvalue', path, hpath, hmissing⟩ := hlacks
        rw [hdata, Option.some.injEq] at hdata'
        subst hdata'
        rw [htext, Option.some.injEq] at htext'
        subst htext'
        rw [hvalue, Option.some.injEq] at hvalue'
        subst hvalue'
        exact hfaultless.present hreadable hm hchecked
          (fun hundefined => hnames _ hm (congrArg some hundefined)) path hpath hmissing
      · exact hfaultless.line hholds hline
    obtain ⟨-, -, -, -, -, -, hvalid, -⟩ := verify_parts hreport
    refine ⟨?_, hissues⟩
    rw [hvalid, List.isEmpty_eq_false_iff]
    exact hissues

/-- An archive of one record file with the line `null`. -/
def nullBlob : EntryMap := ⟨[(recordsPath .blobs, textEncode (js "null"))], by simp⟩

theorem null_blob_throws : verifyArchiveEntries nullBlob defaults = none ∧
    ¬ Reports nullBlob defaults := by
  have hnone : verifyArchiveEntries nullBlob defaults = none := by
    have hthrows : (verifyArchiveEntries nullBlob defaults).isNone = true := by decide +kernel
    exact Option.isNone_iff_eq_none.mp hthrows
  refine ⟨hnone, ?_⟩
  rintro ⟨report, hreport, -⟩
  rw [hnone] at hreport
  cases hreport

end Reports

end TrustCore.VerifierTotality
