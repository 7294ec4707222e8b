import TrustCore.ArchiveRoundTrip
import TrustCore.ManifestChecks
import TrustCore.ManifestSignature

/-!
# Signing a valid archive

Signing writes the manifest, the checksum file and the signature artifact and leaves every other
entry. The records of the signed archive are those of the archive, and it is valid when it is within
the limits and no white space ends the checksum file.
-/

namespace TrustCore.ArchiveSigning

open TrustCore.Utf TrustCore.Json TrustCore.Dynamic TrustCore.Sha256 TrustCore.ArchiveFormat
open TrustCore.ArchiveVerify TrustCore.ArchiveAssemble

/-- The manifest of the signed archive. -/
def signedMembers (members : ArchiveRecord) (keyId : JsString) : ArchiveRecord :=
  setMember (js "signatureProfile") (SignatureProfile.signed keyId).value
    (setMember (js "formatVersion") (.string (js "0.3")) members)

/-- `signArchiveEntries` of a manifest that may have more members than its type. -/
def signManifestEntries (localeLe : JsString → JsString → Bool) (entries : EntryMap)
    (members : ArchiveRecord) (signer : ArchiveManifestSigner) : Option (EntryMap × ArchiveRecord) := do
  if !(strictEq (field members (js "formatVersion")) (.string (js "0.2")) &&
      strictEq (field members (js "signatureProfile")) (.string (js "unsigned")) &&
      validKeyId (.string signer.keyId)) then none
  let manifestText ← canonicalJson (.object (signedMembers members signer.keyId))
  let manifestBytes := textEncode (manifestText ++ [10])
  let entries := entries.set manifestPath manifestBytes
  let checksumBytes := checksumFile localeLe entries
  let entries := entries.set checksumsPath checksumBytes
  let signature := signer.signManifest (signaturePayload manifestBytes checksumBytes)
  if signature = [] then none
  let artifact ← canonicalJson (signatureArtifact signer.keyId signature)
  return (entries.set manifestSignaturePath (textEncode (artifact ++ [10])),
    signedMembers members signer.keyId)

/-- The members of a manifest of the type. -/
def membersOf (manifest : TrustArchiveManifest) : ArchiveRecord :=
  match manifest.value with
  | .object members => members
  | _ => []

theorem signedMembers_membersOf (manifest : TrustArchiveManifest) (keyId : JsString) :
    signedMembers (membersOf manifest) keyId = membersOf (signedManifest manifest keyId) := by
  rfl

theorem value_membersOf (manifest : TrustArchiveManifest) :
    JsValue.object (membersOf manifest) = manifest.value := rfl

/-- On a manifest of the type it is `signArchiveEntries`. -/
theorem signManifestEntries_membersOf (localeLe : JsString → JsString → Bool) (entries : EntryMap)
    (manifest : TrustArchiveManifest) (signer : ArchiveManifestSigner) :
    signManifestEntries localeLe entries (membersOf manifest) signer =
      (signArchiveEntries localeLe entries manifest signer).map fun signed =>
        (signed.1, membersOf signed.2) := by
  have hversion : strictEq (field (membersOf manifest) (js "formatVersion")) (.string (js "0.2")) =
      (manifest.formatVersion == .v02) := by
    have hfield : field (membersOf manifest) (js "formatVersion") =
      .string manifest.formatVersion.text := rfl
    rw [hfield]
    cases manifest.formatVersion <;> decide
  have hprofile : strictEq (field (membersOf manifest) (js "signatureProfile"))
      (.string (js "unsigned")) = (manifest.signatureProfile == .unsigned) := by
    have hfield : field (membersOf manifest) (js "signatureProfile") =
      manifest.signatureProfile.value := rfl
    rw [hfield]
    cases manifest.signatureProfile with
    | unsigned => decide
    | signed keyId => rfl
  rw [signManifestEntries, signArchiveEntries, hversion, hprofile, signedMembers_membersOf,
    value_membersOf]
  split
  · rfl
  cases canonicalJson (signedManifest manifest signer.keyId).value with
  | none => rfl
  | some text =>
    simp only [Option.bind_eq_bind, Option.bind_some]
    split
    · rfl
    · cases canonicalJson (signatureArtifact signer.keyId _) <;> rfl

section Manifest

variable {members lineage : ArchiveRecord} {keyId : JsString}

/-- The members as they are read back. -/
def readMembers (members : ArchiveRecord) : ArchiveRecord :=
  sortByKey canonicalEncoder (sortKeysMembers canonicalEncoder members)

theorem reread_object (members : ArchiveRecord) :
    reread (.object members) = .object (readMembers members) := rfl

theorem field_readMembers (h : isJson (.object members) = true) (key : JsString) :
    field (readMembers members) key = reread (field members key) :=
  Option.some.inj (property_reread h key)

theorem isJsonMembers_setMember {key : JsString} {v : JsValue} (hv : isJson v = true)
    (h : isJsonMembers members = true) : isJsonMembers (setMember key v members) = true := by
  induction members with
  | nil => simpa [setMember, isJsonMembers] using hv
  | cons m ms ih =>
    obtain ⟨k, x⟩ := m
    rw [isJsonMembers, Bool.and_eq_true] at h
    rw [setMember]
    split
    · rw [isJsonMembers, hv, h.2, Bool.and_self]
    · rw [isJsonMembers, h.1, ih h.2, Bool.and_self]

theorem isJson_setMember {key : JsString} {v : JsValue} (hv : isJson v = true)
    (h : isJson (.object members) = true) : isJson (.object (setMember key v members)) = true := by
  rw [isJson, Bool.and_eq_true, decide_eq_true_eq] at h ⊢
  constructor
  · exact isJsonMembers_setMember hv h.1
  · rw [keys_setMember]
    split
    · exact h.2
    · rename_i hfresh
      rw [← List.concat_eq_append]
      exact h.2.concat hfresh

theorem isJson_signedMembers (h : isJson (.object members) = true) :
    isJson (.object (signedMembers members keyId)) = true :=
  isJson_setMember rfl (isJson_setMember rfl h)

theorem field_signedMembers {key : JsString} (hversion : key ≠ js "formatVersion")
    (hprofile : key ≠ js "signatureProfile") :
    field (signedMembers members keyId) key = field members key := by
  rw [signedMembers, field_setMember_ne _ _ hprofile, field_setMember_ne _ _ hversion]

/-- The signed manifest is read as the manifest but for its version and its profile. -/
theorem field_readSigned (h : isJson (.object members) = true) {key : JsString}
    (hversion : key ≠ js "formatVersion") (hprofile : key ≠ js "signatureProfile") :
    field (readMembers (signedMembers members keyId)) key = field (readMembers members) key := by
  rw [field_readMembers (isJson_signedMembers h), field_readMembers h,
    field_signedMembers hversion hprofile]

theorem version_readSigned (h : isJson (.object members) = true) :
    field (readMembers (signedMembers members keyId)) (js "formatVersion") =
      .string (js "0.3") := by
  have hne : js "formatVersion" ≠ js "signatureProfile" := by decide
  rw [field_readMembers (isJson_signedMembers h), signedMembers, field_setMember_ne _ _ hne,
    field_setMember_self, reread_string]

theorem profile_readSigned (h : isJson (.object members) = true) :
    field (readMembers (signedMembers members keyId)) (js "signatureProfile") =
      .object [(js "algorithm", .string (js "Ed25519")), (js "keyId", .string keyId),
        (js "name", .string signatureProfileName)] := by
  rw [field_readMembers (isJson_signedMembers h), signedMembers, field_setMember_self]
  rfl

theorem signedBy_readSigned (h : isJson (.object members) = true) :
    SignedBy (.object (readMembers (signedMembers members keyId))) keyId :=
  ⟨_, congrArg some (profile_readSigned h), rfl, rfl, rfl⟩

theorem isUnsigned_readSigned (h : isJson (.object members) = true) :
    isUnsigned (.object (readMembers (signedMembers members keyId))) = false := by
  rw [isUnsigned, property, profile_readSigned h]
  rfl

theorem checked_readSigned (h : isJson (.object members) = true)
    (hkey : validKeyId (.string keyId) = true) (hc : CheckedManifest (readMembers members) lineage) :
    CheckedManifest (readMembers (signedMembers members keyId)) lineage where
  format := (field_readSigned h (by decide) (by decide)).trans hc.format
  formatVersion := Or.inr (version_readSigned h)
  checksumAlgorithm := (field_readSigned h (by decide) (by decide)).trans hc.checksumAlgorithm
  canonicalJsonProfile := (field_readSigned h (by decide) (by decide)).trans hc.canonicalJsonProfile
  profile := by
    have hne : (keyId != []) = true := by
      rw [validKeyId, Bool.and_eq_true, Bool.and_eq_true] at hkey
      exact hkey.1.1
    right
    rw [version_readSigned h, profile_readSigned h]
    exact hne
  auditLineage := (field_readSigned h (by decide) (by decide)).trans hc.auditLineage
  mode := hc.mode
  source := by
    rw [field_readSigned h (by decide) (by decide)]
    exact hc.source
  eventCount := hc.eventCount

/-- The signed manifest passes the reader. -/
theorem readManifest_signed {text : JsString} (h : isJson (.object members) = true)
    (hkey : validKeyId (.string keyId) = true) (hc : CheckedManifest (readMembers members) lineage)
    (htext : canonicalJson (.object (signedMembers members keyId)) = some text) :
    readManifest (some (textEncode (text ++ [10]))) =
      ([], some (.object (readMembers (signedMembers members keyId)))) := by
  obtain ⟨hdecode, hparse⟩ := read_canonical (isJson_signedMembers h) htext
  have hcanonical : canonicalJson (.object (readMembers (signedMembers members keyId))) = some text := by
    have hsorted : encode canonicalEncoder (reread (.object (signedMembers members keyId))) =
        encode canonicalEncoder (.object (signedMembers members keyId)) :=
      Columns.encode_sortKeys (Columns.keyOrder_units none none) _ _ (isJson_signedMembers h)
    exact hsorted.trans htext
  exact readManifest_checked hdecode hparse (checked_readSigned h hkey hc) hcanonical

end Manifest

section Content

variable {entries signed : EntryMap} {manifest manifest' : JsValue}

/-- Signing writes to other paths than those of the records. -/
theorem signed_paths : (∀ kind ∈ archiveRecordKinds, recordsPath kind ≠ manifestPath ∧
      recordsPath kind ≠ checksumsPath ∧ recordsPath kind ≠ manifestSignaturePath) ∧
    isSafeArchivePath manifestSignaturePath = true := by
  decide +kernel

/-- Archives with the same records and blobs, and manifests that say the same of them. -/
structure SameContent (entries signed : EntryMap) (manifest manifest' : JsValue) : Prop where
  get : ∀ path, path ≠ manifestPath → path ≠ checksumsPath → path ≠ manifestSignaturePath →
    signed.get path = entries.get path
  property : ∀ key, key ≠ js "formatVersion" → key ≠ js "signatureProfile" →
    property manifest' key = property manifest key

theorem SameContent.readRecords (h : SameContent entries signed manifest manifest')
    (kind : ArchiveRecordKind) :
    readRecords signed (some manifest') kind = readRecords entries (some manifest) kind := by
  have hget : signed.get (recordsPath kind) = entries.get (recordsPath kind) := by
    obtain ⟨hmanifest, hchecksums, hsignature⟩ :=
      signed_paths.1 kind (mem_archiveRecordKinds kind)
    exact h.get _ hmanifest hchecksums hsignature
  have hcount : recordCount manifest' kind = recordCount manifest kind := by
    rw [recordCount, recordCount, h.property (js "recordCounts") (by decide) (by decide)]
  rw [ArchiveVerify.readRecords, ArchiveVerify.readRecords, hget, hcount]

theorem SameContent.readAllRecords (h : SameContent entries signed manifest manifest') :
    readAllRecords signed (some manifest') = readAllRecords entries (some manifest) := by
  rw [ArchiveVerify.readAllRecords, ArchiveVerify.readAllRecords, funext h.readRecords]

theorem SameContent.validateRecords (h : SameContent entries signed manifest manifest')
    (records : ArchiveRecordKind → List JsValue) :
    validateRecords (some manifest') records = validateRecords (some manifest) records := by
  have hworkspace := h.property (js "workspaceId") (by decide) (by decide)
  have hlineage := h.property (js "auditLineage") (by decide) (by decide)
  simp only [ArchiveVerify.validateRecords, validateScopeAndReferences, validateAuditLineage,
    hworkspace, hlineage]

theorem SameContent.validateBlob (h : SameContent entries signed manifest manifest')
    (record : JsValue) : validateBlob signed record = validateBlob entries record := by
  have hget : ∀ digest path, blobArchivePath digest = some path →
      signed.get path = entries.get path := by
    intro digest path hpath
    rw [blobArchivePath] at hpath
    split at hpath
    · cases hpath
      have hhead : (js "blobs/" ++ digest.take 2 ++ js "/" ++ digest).head? = some 98 := rfl
      apply h.get
      all_goals
        intro heq
        rw [heq] at hhead
        revert hhead
        decide
    · cases hpath
  rw [ArchiveVerify.validateBlob, ArchiveVerify.validateBlob]
  refine congrArg _ (funext fun digest => congrArg _ (funext fun byteLength => ?_))
  cases digest with
  | string digest =>
    cases byteLength with
    | number n =>
      cases hpath : blobArchivePath digest with
      | none => simp only [hpath]
      | some path => simp only [hpath, hget digest path hpath]
    | _ => rfl
  | _ => rfl

theorem SameContent.validateBlobs (h : SameContent entries signed manifest manifest')
    (records : List JsValue) :
    validateBlobs (some manifest') records signed = validateBlobs (some manifest) records entries := by
  have hcount := h.property (js "blobCount") (by decide) (by decide)
  have hbytes := h.property (js "totalBlobBytes") (by decide) (by decide)
  simp only [ArchiveVerify.validateBlobs, hcount, hbytes, funext h.validateBlob]

variable {limits : ArchiveVerificationLimits} {report : VerificationReport}

/-- The signed archive has the records of the archive, and no further issue in them. -/
theorem SameContent.verify (h : SameContent entries signed manifest manifest')
    (limits' : ArchiveVerificationLimits)
    (hreport : verifyArchiveEntries entries limits = some report)
    (hmanifest : readManifest (entries.get manifestPath) = ([], some manifest))
    (hsigned : readManifest (signed.get manifestPath) = ([], some manifest')) :
    ∃ report', verifyArchiveEntriesBase signed limits' true = some report' ∧
      report'.manifest = some manifest' ∧ report'.records = report.records ∧
      (report.issues = [] → limitIssues limits' signed = [] →
        (readChecksums (signed.get checksumsPath)).1 = [] →
        checksumIssues signed (readChecksums (signed.get checksumsPath)).2 = [] →
        profileIssues signed true (some manifest') = [] → report'.issues = []) := by
  rw [verifyArchiveEntries, verifyArchiveEntriesBase, hmanifest] at hreport
  obtain ⟨read, hread, hreport⟩ := Option.bind_eq_some_iff.mp hreport
  obtain ⟨checked, hchecked, hreport⟩ := Option.bind_eq_some_iff.mp hreport
  obtain ⟨blobs, hblobs, hreport⟩ := Option.bind_eq_some_iff.mp hreport
  cases hreport
  rw [← h.readAllRecords] at hread
  rw [← h.validateRecords] at hchecked
  rw [← h.validateBlobs] at hblobs
  rw [verifyArchiveEntriesBase, hsigned]
  simp only [hread, hchecked, hblobs, Option.bind_eq_bind, Option.bind_some]
  refine ⟨_, rfl, rfl, rfl, ?_⟩
  intro hissues hlimits hlisted hsums hprofile
  simp only [List.append_eq_nil_iff] at hissues
  obtain ⟨⟨⟨-, hrecords⟩, hchecks⟩, hblobIssues⟩ := hissues
  simp only [hlimits, hlisted, hsums, hprofile, hrecords, hchecks, hblobIssues, List.append_nil]

end Content

section Entries

variable {localeLe : JsString → JsString → Bool} {m : EntryMap} {path : JsString}

/-- The entries that the checksum file lists. -/
def checkedEntries (m : EntryMap) : List (JsString × Bytes) :=
  m.entries.filter fun entry => !isUnchecked entry.1

/-- The path of the last line of the checksum file that the signer writes. -/
def lastChecked (localeLe : JsString → JsString → Bool) (m : EntryMap) : Option JsString :=
  (((m.entries.map Prod.fst).filter fun path => !isUnchecked path).insertionSort
    fun a b => localeLe a b = true).getLast?

theorem checkedPaths (m : EntryMap) : (checkedEntries m).map Prod.fst =
    (m.entries.map Prod.fst).filter fun path => !isUnchecked path := by
  rw [checkedEntries, List.filter_map]
  rfl

theorem nodup_checkedPaths (m : EntryMap) : ((checkedEntries m).map Prod.fst).Nodup := by
  rw [checkedPaths]
  exact m.nodup.filter _

theorem lastChecked_eq (m : EntryMap) : lastChecked localeLe m =
    (((checkedEntries m).insertionSort fun a b => localeLe a.1 b.1 = true).getLast?).map Prod.fst := by
  have hsorted := List.map_insertionSort
    (fun a b : JsString × Bytes => localeLe a.1 b.1 = true) (fun a b => localeLe a b = true)
    Prod.fst (checkedEntries m) fun _ _ _ _ => Iff.rfl
  rw [lastChecked, ← checkedPaths, ← hsorted, List.getLast?_map]

theorem checkedEntries_set (h : isUnchecked path = true) (m : EntryMap) (bytes : Bytes) :
    checkedEntries (m.set path bytes) = checkedEntries m := by
  have hset : ∀ es : List (JsString × Bytes),
      (setMember path bytes es).filter (fun entry => !isUnchecked entry.1) =
        es.filter fun entry => !isUnchecked entry.1 := by
    intro es
    induction es with
    | nil => simp [setMember, h]
    | cons e es ih =>
      rw [setMember]
      split
      · rename_i heq
        simp [heq, h]
      · rw [List.filter_cons, ih, List.filter_cons]
  exact hset m.entries

theorem lastChecked_set (h : path ∈ m.entries.map Prod.fst) (bytes : Bytes) :
    lastChecked localeLe (m.set path bytes) = lastChecked localeLe m := by
  have hpaths : (m.set path bytes).entries.map Prod.fst = m.entries.map Prod.fst := by
    rw [EntryMap.set, keys_setMember, if_pos h]
  rw [lastChecked, hpaths, lastChecked]

theorem mem_paths_set {q : JsString} {bytes : Bytes} (h : q ∈ (m.set path bytes).entries.map Prod.fst) :
    q = path ∨ q ∈ m.entries.map Prod.fst := by
  rw [EntryMap.set, keys_setMember] at h
  split at h
  · exact Or.inr h
  · rw [List.mem_append, List.mem_singleton] at h
    exact h.symm

theorem get_set (m : EntryMap) (path : JsString) (bytes : Bytes) :
    (m.set path bytes).get path = some bytes := lookup_setMember_self _ _ _

theorem get_set_ne {q : JsString} (h : q ≠ path) (m : EntryMap) (bytes : Bytes) :
    (m.set path bytes).get q = m.get q := lookup_setMember_ne _ _ h

/-- The entries with a new manifest, its checksum file and a signature artifact. -/
def writeSigned (localeLe : JsString → JsString → Bool) (m : EntryMap)
    (manifestBytes artifactBytes : Bytes) : EntryMap :=
  ((m.set manifestPath manifestBytes).set checksumsPath
    (checksumFile localeLe (m.set manifestPath manifestBytes))).set manifestSignaturePath artifactBytes

variable {manifestBytes artifactBytes : Bytes}

theorem get_artifact : (writeSigned localeLe m manifestBytes artifactBytes).get manifestSignaturePath =
    some artifactBytes := get_set _ _ _

theorem get_manifest : (writeSigned localeLe m manifestBytes artifactBytes).get manifestPath =
    some manifestBytes := by
  rw [writeSigned, get_set_ne (by decide), get_set_ne (by decide), get_set]

theorem get_other (hmanifest : path ≠ manifestPath) (hchecksums : path ≠ checksumsPath)
    (hsignature : path ≠ manifestSignaturePath) :
    (writeSigned localeLe m manifestBytes artifactBytes).get path = m.get path := by
  rw [writeSigned, get_set_ne hsignature, get_set_ne hchecksums, get_set_ne hmanifest]

theorem checkedEntries_writeSigned : checkedEntries (writeSigned localeLe m manifestBytes artifactBytes) =
    checkedEntries (m.set manifestPath manifestBytes) := by
  rw [writeSigned, checkedEntries_set (by decide), checkedEntries_set (by decide)]

theorem get_checksums : (writeSigned localeLe m manifestBytes artifactBytes).get checksumsPath =
    some (checksumFile localeLe (m.set manifestPath manifestBytes)) := by
  rw [writeSigned, get_set_ne (by decide), get_set]

/-- The checksum file of the signed archive lists the signed archive. -/
theorem get_checksumFile : (writeSigned localeLe m manifestBytes artifactBytes).get checksumsPath =
    some (textEncode (checksumText localeLe
      (checkedEntries (writeSigned localeLe m manifestBytes artifactBytes)) ++ [10])) := by
  rw [checkedEntries_writeSigned, get_checksums]
  rfl

theorem lastChecked_writeSigned (h : manifestPath ∈ m.entries.map Prod.fst) :
    lastChecked localeLe (writeSigned localeLe m manifestBytes artifactBytes) =
      lastChecked localeLe m := by
  rw [lastChecked_eq, checkedEntries_writeSigned, ← lastChecked_eq, lastChecked_set h]

theorem safe_writeSigned (h : ∀ e ∈ m.entries, isSafeArchivePath e.1 = true) :
    ∀ e ∈ (writeSigned localeLe m manifestBytes artifactBytes).entries,
      isSafeArchivePath e.1 = true := by
  intro e he
  have hmem : e.1 ∈ (writeSigned localeLe m manifestBytes artifactBytes).entries.map Prod.fst :=
    List.mem_map_of_mem he
  rcases mem_paths_set hmem with hpath | hmem
  · rw [hpath]
    exact signed_paths.2
  rcases mem_paths_set hmem with hpath | hmem
  · rw [hpath]
    exact checksumsPath_safe
  rcases mem_paths_set hmem with hpath | hmem
  · rw [hpath]
    exact fixed_paths.2.2.1.1
  · obtain ⟨e', he', heq⟩ := List.mem_map.mp hmem
    rw [← heq]
    exact h e' he'

end Entries

section Signing

variable {localeLe : JsString → JsString → Bool} {entries : EntryMap} {members : ArchiveRecord}
  {signer : ArchiveManifestSigner} {limits : ArchiveVerificationLimits}
  {report : VerificationReport} {manifestBytes artifactBytes : Bytes}

/-- The paths of a valid archive can stand in a checksum file. -/
theorem nameable_checked {defer : Bool} (h : Passed entries limits defer report) :
    ∀ path ∈ entries.entries.map Prod.fst, isUnchecked path = false → Nameable path := by
  intro path hpath hunchecked
  obtain ⟨e, he, rfl⟩ := List.mem_map.mp hpath
  have hget : entries.get e.1 = some e.2 := lookup_of_mem entries.nodup he
  obtain ⟨digest, hdigest⟩ := (checksumIssues_eq_nil h.checked).2 e.1 e.2 hget hunchecked
  exact nameable_of_readChecksums h.listed _ (mem_of_lookup hdigest)

theorem nameable_manifestPath : Nameable manifestPath := nameable_of_plain fixed_paths.2.2.1

theorem nameable_writeSigned {defer : Bool} (h : Passed entries limits defer report) :
    ∀ e ∈ checkedEntries (writeSigned localeLe entries manifestBytes artifactBytes),
      Nameable e.1 := by
  intro e he
  rw [checkedEntries_writeSigned, checkedEntries, List.mem_filter, Bool.not_eq_true'] at he
  rcases mem_paths_set (List.mem_map_of_mem he.1) with hpath | hmem
  · rw [hpath]
    exact nameable_manifestPath
  · exact nameable_checked h _ hmem he.2

theorem readChecksums_writeSigned {defer : Bool} (h : Passed entries limits defer report)
    (hlast : ∀ path ∈ lastChecked localeLe entries, EndsVisible path) :
    readChecksums ((writeSigned localeLe entries manifestBytes artifactBytes).get checksumsPath) =
      ([], digests localeLe
        (checkedEntries (writeSigned localeLe entries manifestBytes artifactBytes))) := by
  obtain ⟨bytes, hget⟩ := ArchiveVerify.get_manifest h
  have hmanifest : manifestPath ∈ entries.entries.map Prod.fst :=
    List.mem_map_of_mem (mem_of_lookup hget)
  have hsorted := List.perm_insertionSort (fun a b : JsString × Bytes => localeLe a.1 b.1 = true)
    (checkedEntries (writeSigned localeLe entries manifestBytes artifactBytes))
  rw [get_checksumFile]
  apply readChecksums_entries localeLe (nodup_checkedPaths _) (nameable_writeSigned h)
  cases hend : ((checkedEntries (writeSigned localeLe entries manifestBytes
      artifactBytes)).insertionSort fun a b => localeLe a.1 b.1 = true).getLast? with
  | some e =>
    refine ⟨e, rfl, hlast e.1 ?_⟩
    rw [← lastChecked_writeSigned hmanifest, lastChecked_eq, hend]
    rfl
  | none =>
    -- the manifest is always listed
    rw [List.getLast?_eq_none_iff] at hend
    have hmem : (manifestPath, manifestBytes) ∈
        checkedEntries (writeSigned localeLe entries manifestBytes artifactBytes) := by
      rw [checkedEntries, List.mem_filter]
      exact ⟨mem_of_lookup get_manifest, rfl⟩
    rw [← hsorted.mem_iff, hend] at hmem
    cases hmem

theorem checksumIssues_writeSigned :
    checksumIssues (writeSigned localeLe entries manifestBytes artifactBytes) (digests localeLe
      (checkedEntries (writeSigned localeLe entries manifestBytes artifactBytes))) = [] := by
  apply checksumIssues_digests (nodup_checkedPaths _)
  · intro e he
    exact lookup_of_mem (EntryMap.nodup _) (List.mem_filter.mp he).1
  · intro e he hunchecked
    rw [checkedEntries, List.mem_filter, hunchecked]
    exact ⟨he, rfl⟩

theorem signManifestEntries_eq {manifestText artifact : JsString}
    (hversion : field members (js "formatVersion") = .string (js "0.2"))
    (hprofile : field members (js "signatureProfile") = .string (js "unsigned"))
    (hkey : validKeyId (.string signer.keyId) = true)
    (hmanifest : canonicalJson (.object (signedMembers members signer.keyId)) = some manifestText)
    (hsign : ∀ message, signer.signManifest message ≠ [])
    (hartifact : canonicalJson (signatureArtifact signer.keyId (signer.signManifest
      (signaturePayload (textEncode (manifestText ++ [10])) (checksumFile localeLe
        (entries.set manifestPath (textEncode (manifestText ++ [10]))))))) = some artifact) :
    signManifestEntries localeLe entries members signer =
      some (writeSigned localeLe entries (textEncode (manifestText ++ [10]))
        (textEncode (artifact ++ [10])), signedMembers members signer.keyId) := by
  simp only [signManifestEntries, hversion, hprofile, hkey, strictEq_self, Bool.and_self,
    Bool.not_true, Bool.false_eq_true, if_false, hmanifest, Option.bind_eq_bind, Option.bind_some,
    hsign, hartifact]
  rfl

theorem eq_of_reread {v : JsValue} {s : JsString} (h : reread v = .string s) : v = .string s := by
  cases v <;> simp_all [reread, sortKeys]

/-- What is known of the manifest of a valid archive without signature. -/
theorem unsigned_of_valid {text : JsString} (hjson : isJson (.object members) = true)
    (htext : canonicalJson (.object members) = some text)
    (hbytes : entries.get manifestPath = some (textEncode (text ++ [10])))
    (h : Passed entries limits false report) :
    readManifest (entries.get manifestPath) = ([], some (.object (readMembers members))) ∧
      (∃ lineage, CheckedManifest (readMembers members) lineage) ∧
      field members (js "formatVersion") = .string (js "0.2") ∧
      field members (js "signatureProfile") = .string (js "unsigned") := by
  have hread := h.manifest
  obtain ⟨manifest, hmanifest⟩ := exists_manifest (congrArg Prod.fst hread)
  have hreport : report.manifest = some manifest := (congrArg Prod.snd hread).symm.trans hmanifest
  rw [hreport] at hread
  obtain ⟨data, read, canonical, found, lineage, hdata, hdecode, hparse, rfl, hchecked, -, -⟩ :=
    readManifest_some hread
  obtain ⟨hdecode', hparse'⟩ := read_canonical hjson htext
  rw [hbytes, Option.some.injEq] at hdata
  rw [← hdata, hdecode', Option.some.injEq] at hdecode
  rw [← hdecode, hparse', Option.some.injEq, reread_object, JsValue.object.injEq] at hparse
  subst hparse
  have hunsigned : isUnsigned (.object (readMembers members)) = true := by
    have hprofile := h.profile
    rw [hreport, profileIssues, List.append_eq_nil_iff] at hprofile
    cases hu : isUnsigned (.object (readMembers members)) with
    | true => rfl
    | false =>
      rw [hu] at hprofile
      cases hprofile.1
  have hprofile : field (readMembers members) (js "signatureProfile") = .string (js "unsigned") :=
    strictEq_string.mp hunsigned
  have hversion : field (readMembers members) (js "formatVersion") = .string (js "0.2") := by
    rcases hchecked.profile with hp | hp
    · rw [isUnsignedProfile, Bool.and_eq_true] at hp
      exact strictEq_string.mp hp.1
    · rw [hprofile] at hp
      cases hp
  rw [field_readMembers hjson] at hprofile hversion
  exact ⟨hread, ⟨lineage, hchecked⟩, eq_of_reread hversion, eq_of_reread hprofile⟩

end Signing

/-- A valid archive without signature is signed with the same records and the same entries but for
three, and the signed archive is valid within the limits, when no white space ends the last path of
its checksum file. -/
theorem signed_archive_verifies (localeLe : JsString → JsString → Bool) (entries : EntryMap)
    (members : ArchiveRecord) (text : JsString) (signer : ArchiveManifestSigner)
    (verifier : ArchiveManifestVerifier) (limits limits' : ArchiveVerificationLimits)
    (report : VerificationReport) (hjson : isJson (.object members) = true)
    (htext : canonicalJson (.object members) = some text)
    (hbytes : entries.get manifestPath = some (textEncode (text ++ [10])))
    (hreport : verifyArchiveEntries entries limits = some report) (hvalid : report.valid = true)
    (hkey : validKeyId (.string signer.keyId) = true)
    (hsign : ∀ message, signer.signManifest message ≠ [])
    (hverifier : ∀ message, verifier (.string (js "Ed25519")) (.string signer.keyId) message
      (signer.signManifest message) = .valid) :
    ∃ signed report', signManifestEntries localeLe entries members signer =
        some (signed, signedMembers members signer.keyId) ∧
      (∀ path, path ≠ manifestPath → path ≠ checksumsPath → path ≠ manifestSignaturePath →
        signed.get path = entries.get path) ∧
      verifyArchiveEntriesWithSignatures signed verifier limits' = some report' ∧
      (∀ kind, report'.records kind = report.records kind) ∧
      (WithinLimits limits' signed → (∀ path ∈ lastChecked localeLe entries, EndsVisible path) →
        report'.valid = true) := by
  have hissues := issues_of_valid hreport hvalid
  have hpassed := passed_of_issues hreport hissues
  obtain ⟨hread, ⟨lineage, hchecked⟩, hversion, hprofile⟩ := unsigned_of_valid hjson htext hbytes hpassed
  have hjson' : isJson (.object (signedMembers members signer.keyId)) = true :=
    isJson_signedMembers hjson
  obtain ⟨manifestText, hmanifest, -⟩ := record_line hjson'
  let manifestBytes := textEncode (manifestText ++ [10])
  let message := signaturePayload manifestBytes
    (checksumFile localeLe (entries.set manifestPath manifestBytes))
  have hartifactJson : isJson (signatureArtifact signer.keyId (signer.signManifest message)) = true :=
    rfl
  obtain ⟨artifact, hartifact, -⟩ := record_line hartifactJson
  have hsigned := signManifestEntries_eq hversion hprofile hkey hmanifest hsign hartifact
  let signed := writeSigned localeLe entries manifestBytes (textEncode (artifact ++ [10]))
  have hsame : SameContent entries signed (.object (readMembers members))
      (.object (readMembers (signedMembers members signer.keyId))) :=
    ⟨fun _ => get_other, fun _ hv hp => congrArg some (field_readSigned hjson hv hp)⟩
  have hreadSigned := readManifest_signed hjson hkey hchecked hmanifest
  rw [← get_manifest] at hreadSigned
  obtain ⟨base, hbase, hbaseManifest, hrecords, hclear⟩ :=
    hsame.verify limits' hreport hread hreadSigned
  have hreports : verifyArchiveEntriesWithSignatures signed verifier limits' = some { base with
      valid := (base.issues ++ verifyManifestSignature signed
        (.object (readMembers (signedMembers members signer.keyId))) verifier).isEmpty
      issues := base.issues ++ verifyManifestSignature signed
        (.object (readMembers (signedMembers members signer.keyId))) verifier } := by
    simp only [verifyArchiveEntriesWithSignatures, hbase, Option.bind_eq_bind, Option.bind_some,
      hbaseManifest, isUnsigned_readSigned hjson, Bool.false_eq_true, if_false]
    rfl
  refine ⟨signed, _, hsigned, fun _ => get_other, hreports, fun kind => congrFun hrecords kind, ?_⟩
  intro hlimits hlast
  have hlisted : readChecksums (signed.get checksumsPath) =
      ([], digests localeLe (checkedEntries signed)) := readChecksums_writeSigned hpassed hlast
  have hsums : checksumIssues signed (readChecksums (signed.get checksumsPath)).2 = [] := by
    rw [hlisted]
    exact checksumIssues_writeSigned
  have hunsigned : profileIssues signed true
      (some (.object (readMembers (signedMembers members signer.keyId)))) = [] := by
    rw [profileIssues, isUnsigned_readSigned hjson]
    rfl
  have hsignature : verifyManifestSignature signed
      (.object (readMembers (signedMembers members signer.keyId))) verifier = [] :=
    verifyManifestSignature_accepted (signedBy_readSigned hjson) hkey hartifact get_artifact
      get_manifest get_checksums (hsign message) (hverifier message)
  have hlimited : limitIssues limits' signed = [] :=
    limitIssues_eq_nil_iff.mpr
      ⟨safe_writeSigned (limitIssues_eq_nil_iff.mp hpassed.limited).1, hlimits⟩
  have hclean := hclear hissues hlimited (congrArg Prod.fst hlisted) hsums hunsigned
  rw [hclean, hsignature]
  rfl

/-- A signer with key `k` and a signature of one byte. -/
def sampleSigner : ArchiveManifestSigner := ⟨js "k", fun _ => [1]⟩

/-- A verifier that knows key `k`. -/
def sampleVerifier : ArchiveManifestVerifier := fun _ keyId _ signature =>
  if !strictEq keyId (.string (js "k")) then .unknownKey
  else if signature = [1] then .valid
  else .invalid

theorem sampleVerifier_valid (message : Bytes) : sampleVerifier (.string (js "Ed25519"))
    (.string sampleSigner.keyId) message (sampleSigner.signManifest message) = .valid := by
  rfl

/-- The bare archive meets what signing asks of an archive, by one evaluation. -/
theorem bare_signable :
    isJson (.object (membersOf emptyManifest)) = true ∧
    (canonicalJson (.object (membersOf emptyManifest))).isSome = true ∧
    bareEntries.get manifestPath =
      some (textEncode ((canonicalJson (.object (membersOf emptyManifest))).getD [] ++ [10])) ∧
    ((signManifestEntries unitsLe bareEntries (membersOf emptyManifest)
      sampleSigner).map fun signed => isSmall 10000 signed.1) = some true ∧
    lastChecked unitsLe bareEntries = some manifestPath := by
  decide +kernel

theorem signed_archive_verifies_sample : ∃ signed report,
    signManifestEntries unitsLe bareEntries (membersOf emptyManifest) sampleSigner =
        some (signed, signedMembers (membersOf emptyManifest) (js "k")) ∧
      verifyArchiveEntriesWithSignatures signed sampleVerifier defaults = some report ∧
      report.valid = true := by
  obtain ⟨hjson, htext, hget, hsmall, hlast⟩ := bare_signable
  obtain ⟨text, htext⟩ := Option.isSome_iff_exists.mp htext
  have hbytes : bareEntries.get manifestPath = some (textEncode (text ++ [10])) := by
    rw [hget, htext]
    rfl
  obtain ⟨report, hreport, heq⟩ := Option.map_eq_some_iff.mp sample_verdicts.1
  obtain ⟨hvalid, -⟩ := Prod.mk.inj heq
  obtain ⟨signed, report', hsigned, -, hreport', -, hsound⟩ :=
    signed_archive_verifies unitsLe bareEntries (membersOf emptyManifest) text sampleSigner
      sampleVerifier defaults defaults report hjson htext hbytes hreport hvalid
      (by decide) (fun _ => by simp [sampleSigner]) sampleVerifier_valid
  rw [hsigned, Option.map_some, Option.some.injEq] at hsmall
  refine ⟨signed, report', hsigned, hreport', hsound (withinLimits_of_isSmall (by decide) hsmall) ?_⟩
  intro path hpath
  rw [hlast, Option.mem_some_iff] at hpath
  rw [← hpath]
  exact endsVisible_of_plain fixed_paths.2.2.1

/-- The archive with an entry whose path ends in a space; its checksum file lists it first. -/
def spacedEntries : EntryMap :=
  let entries := (EntryMap.empty.set manifestPath
    (textEncode ((canonicalJson emptyManifest.value).getD [] ++ [10]))).set (js "zz ") []
  entries.set checksumsPath (checksumFile (fun a b => unitsLe b a) entries)

/-- The reports on an archive and on the signed archive. -/
def validities (entries : EntryMap) (limits : ArchiveVerificationLimits) :
    Option Bool × Option Bool :=
  ((verifyArchiveEntries entries limits).map VerificationReport.valid,
    (signArchiveEntries unitsLe entries emptyManifest sampleSigner).bind fun signed =>
      (verifyArchiveEntriesWithSignatures signed.1 sampleVerifier limits).map
        VerificationReport.valid)

/-- Signing adds an entry to an archive that has as many as the limit allows, and ends the checksum
file with a space that the reader drops. -/
theorem signed_archive_rejected :
    validities bareEntries { defaults with maxEntries := 2 } = (some true, some false) ∧
      validities spacedEntries defaults = (some true, some false) := by
  decide +kernel

end TrustCore.ArchiveSigning
