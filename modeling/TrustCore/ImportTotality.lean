import TrustCore.ImportMapping
import TrustCore.ImportPlanIds
import TrustCore.JsonTexts

/-!
# Which verified archives can be planned

Rewriting assigns every reference of a kind, also one that the record did not have, and then its value
is undefined: the text that the plan is identified by does not exist. Where nothing is missing the
records of an import that preserves ids are planned as they are.
-/

namespace TrustCore.ImportTotality

open TrustCore.Utf TrustCore.Json TrustCore.Dynamic TrustCore.ArchiveFormat TrustCore.ArchiveVerify
open TrustCore.ArchiveAssemble TrustCore.ImportPlan TrustCore.ImportReferences
open TrustCore.ImportActions TrustCore.ImportMapping

/-- The keys that rewriting assigns, whether a record has them or not. -/
def assignedKeys (kind : ArchiveRecordKind) : List JsString :=
  js "id" :: (referenceFields kind).map Prod.fst

/-- Every record has the keys that are assigned to it. -/
def ReferencesPresent (archive : ParsedTrustArchive) : Prop :=
  ∀ kind, ∀ r ∈ archive.verification.records kind, ∀ key ∈ assignedKeys kind,
    (r.lookup key).isSome = true

/-- The numbers of a revision and of its parent, if they are of one resource, can be compared. -/
def ParentConverts (revisions : List ArchiveRecord) (r : ArchiveRecord) : Prop :=
  ∀ parentId parent, field r (js "parentRevisionId") = .string parentId →
    revisions.reverse.find? (fun record => strictEq (idOf record) (.string parentId)) = some parent →
      strictEq (field parent (js "resourceId")) (field r (js "resourceId")) = true →
        (toNumber (field parent (js "revisionNumber"))).isSome = true ∧
          (toNumber (field r (js "revisionNumber"))).isSome = true

def NumbersConvert (request : ArchiveImportRequest) : Prop :=
  ∀ r ∈ transformed request .revisions, ParentConverts (transformed request .revisions) r

/-- The planned records of a kind with the ids of the records they come from. -/
def plannedSources (plan : ArchiveImportPlan) (kind : ArchiveRecordKind) :
    List (Option JsString × ArchiveRecord) :=
  plan.actions.filterMap fun a =>
    if a.kind = .record kind then a.record.map fun r => (some a.sourceId, r) else none

/-- The records are planned under their ids as they are. -/
def PlansSources (request : ArchiveImportRequest) (plan : ArchiveImportPlan) : Prop :=
  ∀ kind, (plannedSources plan kind).Perm
    ((request.archive.verification.records kind).map fun r => (recordId r kind, r))

section Rewriting

variable {kind : ArchiveRecordKind} {r : ArchiveRecord} {s t key : JsString} {m : Mappings}

/-- A record without anything undefined that has these keys. -/
structure Whole (keys : List JsString) (r : ArchiveRecord) : Prop where
  defined : ∀ p ∈ r, isDefined p.2 = true
  present : ∀ key ∈ keys, (r.lookup key).isSome = true

theorem Whole.setMember {keys : List JsString} {v : JsValue} (h : Whole keys r)
    (hv : isDefined v = true) (key : JsString) : Whole keys (setMember key v r) where
  defined := isDefined_setMember hv h.defined
  present := fun key' hkey' => (isSome_lookup_setMember key key' v r).mpr (Or.inr (h.present key' hkey'))

theorem Whole.field {keys : List JsString} (h : Whole keys r) (hkey : key ∈ keys) :
    isDefined (field r key) = true := by
  obtain ⟨v, hv⟩ := Option.isSome_iff_exists.mp (h.present key hkey)
  rw [Dynamic.field, hv]
  exact h.defined _ (mem_of_lookup hv)

theorem isDefined_mapReference {f : JsString → Option JsString} {v : JsValue}
    (h : isDefined v = true) : isDefined (mapReference f v) = true := by
  cases v with
  | string s => rfl
  | _ => exact h

theorem isDefined_mapRelationReference {k v : JsValue} (h : isDefined v = true) :
    isDefined (mapRelationReference m k v) = true := by
  rw [mapRelationReference]
  split
  · exact isDefined_mapReference h
  · exact h

theorem Whole.mapField {keys : List JsString} (h : Whole keys r) (hkey : key ∈ keys)
    (f : JsString → Option JsString) : Whole keys (mapField f key r) :=
  h.setMember (isDefined_mapReference (h.field hkey)) key

theorem Whole.mapEnd {keys : List JsString} (h : Whole keys r) (hkey : key ∈ keys)
    (kindKey : JsString) : Whole keys (mapEnd m kindKey key r) :=
  h.setMember (isDefined_mapRelationReference (h.field hkey)) key

theorem Whole.mapMergeParents {keys : List JsString} (h : Whole keys r) :
    Whole keys (mapMergeParents m r) := by
  rw [ImportPlan.mapMergeParents]
  split
  · rename_i items hitems
    have harray := mem_of_lookup (lookup_of_field hitems (by simp))
    have hdefined := isDefined_array.mp (h.defined _ harray)
    apply h.setMember
    rw [isDefined_array]
    intro x hx
    obtain ⟨item, hitem, rfl⟩ := List.mem_map.mp hx
    exact isDefined_mapReference (hdefined item hitem)
  · exact h

theorem Whole.mapWorkspaceId {keys : List JsString} (h : Whole keys r) :
    Whole keys (mapWorkspaceId kind s t r) := by
  rw [ImportPlan.mapWorkspaceId]
  split
  · exact h.setMember rfl _
  · exact h

/-- Rewriting a record that has every assigned key leaves nothing undefined. -/
theorem whole_mapRecord (h : Whole (assignedKeys kind) r) :
    Whole (assignedKeys kind) (mapRecord kind r s t m) := by
  have hid : Whole (assignedKeys kind)
      (ImportPlan.mapField (m kind) (js "id") (ImportPlan.mapWorkspaceId kind s t r)) :=
    h.mapWorkspaceId.mapField List.mem_cons_self _
  cases kind with
  | workspaces | schemaPackages | auditEvents | retention | blobs => exact hid
  | datasets => exact hid.mapField (by decide) _
  | resources => exact (hid.mapField (by decide) _).mapField (by decide) _
  | revisions =>
    exact ((((hid.mapField (by decide) _).mapField (by decide) _).mapField (by decide) _).mapField
      (by decide) _).mapMergeParents
  | revisionBlobs => exact (hid.mapField (by decide) _).mapField (by decide) _
  | relations =>
    exact ((hid.mapField (by decide) _).mapEnd (by decide) _).mapEnd (by decide) _
  | tombstones =>
    exact ((hid.mapField (by decide) _).mapEnd (by decide) _).mapField (by decide) _

theorem present_mapField {f : JsString → Option JsString} {key' : JsString} :
    ((mapField f key' r).lookup key).isSome = true ↔ key = key' ∨ (r.lookup key).isSome = true := by
  rw [mapField, isSome_lookup_setMember]

theorem present_mapEnd {kindKey key' : JsString} :
    ((mapEnd m kindKey key' r).lookup key).isSome = true ↔
      key = key' ∨ (r.lookup key).isSome = true := by
  rw [mapEnd, isSome_lookup_setMember]

theorem present_mapMergeParents (h : (r.lookup key).isSome = true) :
    ((mapMergeParents m r).lookup key).isSome = true := by
  rw [mapMergeParents]
  split
  · exact (isSome_lookup_setMember _ _ _ _).mpr (Or.inr h)
  · exact h

/-- Rewriting gives a record every assigned key. -/
theorem present_mapRecord (h : key ∈ assignedKeys kind) :
    ((mapRecord kind r s t m).lookup key).isSome = true := by
  simp only [assignedKeys, List.mem_cons] at h
  cases kind with
  | revisions =>
    apply present_mapMergeParents
    simp only [present_mapField]
    simp only [referenceFields, List.map_cons, List.map_nil, List.mem_cons, List.not_mem_nil,
      or_false] at h
    grind
  | _ =>
    simp only [referenceFields, List.map_cons, List.map_nil, List.mem_cons, List.not_mem_nil,
      or_false] at h
    simp only [mapRecord, present_mapField, present_mapEnd]
    grind

/-- What is assigned to a record that lacks the key is undefined. -/
theorem field_mapRecord_undefined (h : key ∈ assignedKeys kind) (hr : field r key = .undefined) :
    field (mapRecord kind r s t m) key = .undefined := by
  rcases List.mem_cons.mp h with rfl | h
  · have hid := idOf_mapRecord (s := s) (t := t) (m := m) (r := r) kind
    rw [idOf, idOf, hr] at hid
    exact hid
  · obtain ⟨⟨key, table⟩, htable, rfl⟩ := List.mem_map.mp h
    rw [field_mapRecord_reference htable, hr]
    cases table.kind r <;> rfl

/-- A rewritten record has a canonical text exactly when it had every key that is assigned. -/
theorem isDefined_mapRecord (h : ∀ p ∈ r, isDefined p.2 = true) :
    isDefined (.object (mapRecord kind r s t m)) = true ↔
      ∀ key ∈ assignedKeys kind, (r.lookup key).isSome = true := by
  constructor
  · intro hdefined key hkey
    by_contra hnone
    have hmissing : field r key = .undefined := by
      rw [field, Option.not_isSome_iff_eq_none.mp hnone]
      rfl
    obtain ⟨v, hv⟩ := Option.isSome_iff_exists.mp (@present_mapRecord kind r s t key m hkey)
    have hundefined := @field_mapRecord_undefined kind r s t key m hkey hmissing
    rw [field, hv, Option.getD_some] at hundefined
    have hvalue := isDefined_object.mp hdefined _ (mem_of_lookup hv)
    rw [hundefined] at hvalue
    cases hvalue
  · intro hkeys
    exact isDefined_object.mpr (whole_mapRecord ⟨h, hkeys⟩).defined

theorem mapReference_same {f : JsString → Option JsString} (hf : ∀ s, (f s).getD s = s) (v : JsValue) :
    mapReference f v = v := by
  cases v with
  | string s => rw [mapReference, hf]
  | _ => rfl

theorem mapField_same {f : JsString → Option JsString} (hf : ∀ s, (f s).getD s = s)
    (h : (r.lookup key).isSome = true) : mapField f key r = r := by
  rw [mapField, mapReference_same hf, setMember_field h]

theorem mapEnd_same (hm : ∀ kind s, (m kind s).getD s = s) (kindKey : JsString)
    (h : (r.lookup key).isSome = true) : mapEnd m kindKey key r = r := by
  rw [mapEnd, mapRelationReference]
  split
  · rw [mapReference_same (hm _), setMember_field h]
  · rw [setMember_field h]

theorem mapMergeParents_same (hm : ∀ kind s, (m kind s).getD s = s) : mapMergeParents m r = r := by
  rw [mapMergeParents]
  split
  · rename_i items hitems
    have hlookup := lookup_of_field hitems (by simp)
    have hsame : items.map (mapReference (m .revisions)) = items := by
      rw [show mapReference (m .revisions) = id from funext (mapReference_same (hm .revisions)),
        List.map_id]
    rw [hsame, ← hitems, setMember_field (by rw [hlookup]; rfl)]
  · rfl

theorem mapWorkspaceId_same : mapWorkspaceId kind s s r = r := by
  rw [mapWorkspaceId]
  split
  · rename_i h
    have hfield := strictEq_string.mp h.2
    have hlookup := lookup_of_field hfield (by simp)
    rw [← hfield, setMember_field (by rw [hlookup]; rfl)]
  · rfl

/-- Rewriting by mappings that keep every id gives the record itself. -/
theorem mapRecord_same (hm : ∀ kind s, (m kind s).getD s = s)
    (h : ∀ key ∈ assignedKeys kind, (r.lookup key).isSome = true) : mapRecord kind r s s m = r := by
  have hid := h (js "id") List.mem_cons_self
  cases kind with
  | workspaces | schemaPackages | auditEvents | retention | blobs =>
    rw [mapRecord, mapWorkspaceId_same, mapField_same (hm _) hid]
  | datasets =>
    rw [mapRecord, mapWorkspaceId_same, mapField_same (hm _) hid,
      mapField_same (hm _) (h _ (by decide))]
  | resources =>
    rw [mapRecord, mapWorkspaceId_same, mapField_same (hm _) hid,
      mapField_same (hm _) (h _ (by decide)), mapField_same (hm _) (h _ (by decide))]
  | revisions =>
    rw [mapRecord, mapWorkspaceId_same, mapField_same (hm _) hid,
      mapField_same (hm _) (h _ (by decide)), mapField_same (hm _) (h _ (by decide)),
      mapField_same (hm _) (h _ (by decide)), mapField_same (hm _) (h _ (by decide)),
      mapMergeParents_same hm]
  | revisionBlobs =>
    rw [mapRecord, mapWorkspaceId_same, mapField_same (hm _) hid,
      mapField_same (hm _) (h _ (by decide)), mapField_same (hm _) (h _ (by decide))]
  | relations =>
    rw [mapRecord, mapWorkspaceId_same, mapField_same (hm _) hid,
      mapField_same (hm _) (h _ (by decide)), mapEnd_same hm _ (h _ (by decide)),
      mapEnd_same hm _ (h _ (by decide))]
  | tombstones =>
    rw [mapRecord, mapWorkspaceId_same, mapField_same (hm _) hid,
      mapField_same (hm _) (h _ (by decide)), mapEnd_same hm _ (h _ (by decide)),
      mapField_same (hm _) (h _ (by decide))]

end Rewriting

section Records

variable {archive : ParsedTrustArchive}

theorem isDefined_parseRecords {bytes : Bytes} {records : List JsValue}
    (h : parseRecords bytes = some records) : ∀ v ∈ records, isDefined v = true := by
  obtain ⟨text, -, h⟩ := Option.bind_eq_some_iff.mp h
  intro v hv
  obtain ⟨line, -, hline⟩ := (mem_of_forall₂ (mapM_eq_some h)).2 v hv
  exact isDefined_parseJson hline

theorem isDefined_readRecords {entries : EntryMap} {manifest : Option JsValue}
    {kind : ArchiveRecordKind} {read : List ArchiveIssue × List JsValue}
    (h : readRecords entries manifest kind = some read) : ∀ v ∈ read.2, isDefined v = true := by
  unfold readRecords at h
  split at h
  · split at h
    · cases h
      simp
    · obtain ⟨count, -, h⟩ := Option.bind_eq_some_iff.mp h
      cases h
      simp
  · simp only at h
    split at h
    · cases h
      simp
    rename_i records hparsed
    have hdefined := isDefined_parseRecords hparsed
    split at h
    · cases h
      exact hdefined
    split at h
    · cases h
      exact hdefined
    · cases h
      exact hdefined

theorem isDefined_report {entries : EntryMap} {limits : ArchiveVerificationLimits} {defer : Bool}
    {report : VerificationReport} (h : verifyArchiveEntriesBase entries limits defer = some report)
    (kind : ArchiveRecordKind) : ∀ v ∈ report.records kind, isDefined v = true := by
  rw [verifyArchiveEntriesBase] at h
  obtain ⟨read, hread, h⟩ := Option.bind_eq_some_iff.mp h
  obtain ⟨checked, -, h⟩ := Option.bind_eq_some_iff.mp h
  obtain ⟨blobs, -, h⟩ := Option.bind_eq_some_iff.mp h
  cases h
  obtain ⟨all, hall, heq⟩ := Option.bind_eq_some_iff.mp hread
  cases heq
  simp only
  cases hlookup : (archiveRecordKinds.zip all).lookup kind with
  | none => simp
  | some found =>
    obtain ⟨before, after, hzip, -⟩ := List.lookup_eq_some_iff.mp hlookup
    have hmem : found ∈ all := by
      have hpair : (kind, found) ∈ archiveRecordKinds.zip all := by simp [hzip]
      exact (List.of_mem_zip hpair).2
    obtain ⟨kind', -, hkind⟩ := (mem_of_forall₂ (mapM_eq_some hall)).2 found hmem
    exact isDefined_readRecords hkind

/-- Nothing in a record of a verified archive is undefined. -/
theorem isDefined_verified (h : Verified archive) {kind : ArchiveRecordKind} {r : ArchiveRecord}
    (hr : r ∈ archive.verification.records kind) : ∀ p ∈ r, isDefined p.2 = true := by
  obtain ⟨limits, report, manifest, hreport, -, -, -, -, hrecords⟩ := h
  have hmem : JsValue.object r ∈ report.records kind := by
    rw [hrecords]
    exact List.mem_map_of_mem hr
  apply isDefined_object.mp
  rcases hreport with hreport | ⟨verifier, hreport⟩
  · exact isDefined_report hreport kind _ hmem
  · rw [verifyArchiveEntriesWithSignatures] at hreport
    obtain ⟨base, hbase, hreport⟩ := Option.bind_eq_some_iff.mp hreport
    cases hreport
    exact isDefined_report hbase kind _ hmem

end Records

section Graph

theorem isSome_parentInvalid {parent r : ArchiveRecord} :
    (parentInvalid parent r).isSome = true ↔
      (strictEq (field parent (js "resourceId")) (field r (js "resourceId")) = true →
        (toNumber (field parent (js "revisionNumber"))).isSome = true ∧
          (toNumber (field r (js "revisionNumber"))).isSome = true) := by
  rw [parentInvalid]
  cases strictEq (field parent (js "resourceId")) (field r (js "resourceId")) with
  | false => simp
  | true =>
    cases toNumber (field parent (js "revisionNumber")) with
    | none => simp
    | some a => cases toNumber (field r (js "revisionNumber")) <;> simp

theorem isSome_validateParent {revisions : List ArchiveRecord} {r : ArchiveRecord} :
    (validateParent revisions r).isSome = true ↔ ParentConverts revisions r := by
  rw [validateParent, ParentConverts]
  split
  · rename_i parentId hparent
    split
    · rename_i hfind
      simp only [Option.isSome_some, true_iff]
      intro parentId' parent hparent' hfind'
      cases hparent.symm.trans hparent'
      cases hfind.symm.trans hfind'
    · rename_i parent hfind
      rw [Option.isSome_map, isSome_parentInvalid]
      constructor
      · intro h parentId' parent' hparent' hfind'
        cases hparent.symm.trans hparent'
        cases hfind.symm.trans hfind'
        exact h
      · exact fun h => h parentId parent hparent hfind
  · rename_i hnone
    simp only [Option.isSome_some, true_iff]
    intro parentId parent hparent
    exact absurd hparent (hnone parentId)

theorem isSome_validateRevisions {ids : ArchiveRecordKind → List JsString}
    {revisions rest : List ArchiveRecord} {seen : List (JsString × Numbers.JsNumber)} :
    (validateRevisions ids revisions seen rest).isSome = true ↔
      ∀ r ∈ rest, ParentConverts revisions r := by
  induction rest generalizing seen with
  | nil => simp [validateRevisions]
  | cons r rest ih =>
    rw [validateRevisions, List.forall_mem_cons, ← isSome_validateParent,
      ← @ih ((numberKey r).toList ++ seen)]
    cases validateParent revisions r <;>
      cases validateRevisions ids revisions ((numberKey r).toList ++ seen) rest <;> simp

theorem exists_validateGraph {records : Records} {workspaceId : JsString} :
    (∃ issues, validateGraph records workspaceId = some issues) ↔
      ∀ r ∈ records .revisions, ParentConverts (records .revisions) r := by
  rw [← Option.isSome_iff_exists, validateGraph, Option.isSome_map, isSome_validateRevisions]

end Graph

section Total

variable {localeLe : JsString → JsString → Bool} {request : ArchiveImportRequest}

/-- Every record, retention aside, has an id. -/
def HasIds (archive : ParsedTrustArchive) : Prop :=
  ∀ kind, kind ≠ .retention → ∀ r ∈ archive.verification.records kind,
    ∃ u s, idOf r = .string (u :: s)

theorem mappedEntityId_ne_nil (workspaceId : JsString) (kind : ArchiveRecordKind)
    (sourceId : JsString) : mappedEntityId workspaceId kind sourceId ≠ [] := by
  have hdash : js "-" ≠ [] := by decide
  simp [EntityIds.mappedEntityId_eq, EntityIds.truncatedUuid, hdash]

/-- An id that is not empty stays so. -/
theorem imported_ne_nil {kind : ArchiveRecordKind} {u : UInt16} {s : JsString} :
    ∃ u' s', imported request kind (.string (u :: s)) = .string (u' :: s') := by
  have hmapped : ((mappingsOf request kind (u :: s)).getD (u :: s)) ≠ [] := by
    rw [mappingsOf, buildIdMappings]
    split
    · split
      · rename_i hsame
        rw [Option.getD_some, mappedWorkspaceId]
        split
        · rw [← hsame]
          exact List.cons_ne_nil u s
        · assumption
      · exact List.cons_ne_nil u s
    split
    · rw [Option.getD_some, entityId]
      split
      · exact List.cons_ne_nil u s
      · exact mappedEntityId_ne_nil _ _ _
    · exact List.cons_ne_nil u s
  obtain ⟨u', s', hcons⟩ := List.exists_cons_of_ne_nil hmapped
  exact ⟨u', s', by rw [imported, mapReference, hcons]⟩

theorem exists_importedId (hids : HasIds request.archive) {kind : ArchiveRecordKind}
    {r : ArchiveRecord} (hr : r ∈ request.archive.verification.records kind)
    (hd : isDefined (.object (rewritten request kind r)) = true) :
    ∃ id, importedId request kind r = some id := by
  by_cases hkind : kind = .retention
  · obtain ⟨text, htext⟩ := exists_canonicalJson_iff.mpr hd
    rw [importedId, htext, if_pos hkind]
    split
    · exact ⟨_, rfl⟩
    · exact ⟨_, rfl⟩
  · obtain ⟨u, s, hid⟩ := hids kind hkind r hr
    obtain ⟨u', s', himported⟩ := @imported_ne_nil request kind u s
    exact ⟨u' :: s', by rw [importedId, hid, himported]⟩

theorem exists_recordId (hids : HasIds request.archive) {kind : ArchiveRecordKind}
    {r : ArchiveRecord} (hr : r ∈ request.archive.verification.records kind)
    (hd : isDefined (.object r) = true) : ∃ id, recordId r kind = some id := by
  by_cases hkind : kind = .retention
  · obtain ⟨text, htext⟩ := exists_canonicalJson_iff.mpr hd
    rw [recordId, htext, if_pos hkind]
    split
    · exact ⟨_, rfl⟩
    · exact ⟨_, rfl⟩
  · obtain ⟨u, s, hid⟩ := hids kind hkind r hr
    exact ⟨u :: s, by rw [recordId, hid]⟩

theorem isDefined_identity {phase : Nat} {kind sourceId targetId : JsString}
    {dependsOn : List JsString} {hash : List (JsString × JsValue)}
    (h : ∀ p ∈ hash, isDefined p.2 = true) : isDefined (.object ([(js "phase", numberOf phase),
      (js "kind", .string kind), (js "sourceId", .string sourceId),
      (js "targetId", .string targetId), (js "dependsOn", .array (dependsOn.map .string))] ++
        hash)) = true := by
  have hall : isDefined (.array (dependsOn.map .string)) = true := by
    rw [isDefined_array]
    intro x hx
    obtain ⟨text, -, rfl⟩ := List.mem_map.mp hx
    rfl
  rw [isDefined_object]
  simp only [List.cons_append, List.nil_append, List.forall_mem_cons]
  exact ⟨rfl, rfl, rfl, rfl, hall, h⟩

theorem isDefined_actionIdentity {a : ArchiveImportAction} {v : JsValue}
    (h : actionIdentity a = some v) : isDefined v = true := by
  cases hrecord : a.record with
  | none =>
    rw [actionIdentity, hrecord] at h
    cases h
    exact isDefined_identity (by simp)
  | some r =>
    rw [actionIdentity, hrecord] at h
    obtain ⟨hash, hhash, h⟩ := Option.bind_eq_some_iff.mp h
    obtain ⟨text, -, rfl⟩ := Option.map_eq_some_iff.mp hhash
    cases h
    exact isDefined_identity (by simp [isDefined])

/-- The id of a plan exists when its manifest and its records have texts. -/
theorem exists_planId {manifest : TrustArchiveManifest} {source target : JsString}
    {mode : ArchiveImportMode} {conflictMode : ArchiveConflictMode}
    {actions : List ArchiveImportAction} (hmanifest : isDefined manifest.value = true)
    (hrecords : ∀ a ∈ actions, ∀ r, a.record = some r → isDefined (.object r) = true) :
    ∃ planId, calculateArchiveImportPlanId manifest source target mode conflictMode actions =
      some planId := by
  obtain ⟨manifestText, hmanifestText⟩ := exists_canonicalJson_iff.mpr hmanifest
  obtain ⟨identities, hidentities⟩ : ∃ identities, actions.mapM actionIdentity = some identities := by
    apply exists_mapM
    intro a ha
    rw [actionIdentity]
    cases hrecord : a.record with
    | none => exact ⟨_, rfl⟩
    | some r =>
      obtain ⟨text, htext⟩ := exists_canonicalJson_iff.mpr (hrecords a ha r hrecord)
      simp only [htext]
      exact ⟨_, rfl⟩
  have hdefined : ∀ v ∈ identities, isDefined v = true := by
    intro v hv
    obtain ⟨a, -, ha⟩ := (mem_of_forall₂ (mapM_eq_some hidentities)).2 v hv
    exact isDefined_actionIdentity ha
  obtain ⟨text, htext⟩ := @exists_canonicalJson_iff (.object
    [(js "format", .string (js "trust-import-plan-v1")),
      (js "archiveExportId", .string manifest.exportId),
      (js "archiveManifestHash", .string (sha256Text manifestText)),
      (js "sourceWorkspaceId", .string source), (js "targetWorkspaceId", .string target),
      (js "mode", .string mode.text), (js "conflictMode", .string conflictMode.text),
      (js "actions", .array identities)]) |>.mpr (by
        simp only [isDefined_object, List.mem_cons, List.not_mem_nil, or_false, forall_eq_or_imp,
          forall_eq, isDefined_array]
        exact ⟨rfl, rfl, rfl, rfl, rfl, rfl, rfl, hdefined⟩)
  rw [calculateArchiveImportPlanId, hmanifestText, hidentities]
  simp only [Option.bind_eq_bind, Option.bind_some, htext]
  exact ⟨_, rfl⟩

theorem isDefined_rewritten (hverified : Verified request.archive) {kind : ArchiveRecordKind}
    {r : ArchiveRecord} (hr : r ∈ request.archive.verification.records kind) :
    isDefined (.object (rewritten request kind r)) = true ↔
      ∀ key ∈ assignedKeys kind, (r.lookup key).isSome = true :=
  isDefined_mapRecord (isDefined_verified hverified hr)

/-- Planning into an empty workspace. -/
theorem exists_blank_plan (hverified : Verified request.archive) (hids : HasIds request.archive)
    (hmanifest : isDefined request.archive.manifest.value = true)
    (hpresent : ReferencesPresent request.archive) (hnumbers : NumbersConvert request) :
    ∃ planId, importPlanId localeLe request = some planId := by
  have hdefined : ∀ kind, ∀ r ∈ request.archive.verification.records kind,
      isDefined (.object (rewritten request kind r)) = true := fun kind r hr =>
    (isDefined_rewritten hverified hr).mpr (hpresent kind r hr)
  obtain ⟨graphIssues, hgraph⟩ : ∃ issues, validateGraph (transformed request)
      (mappedWorkspaceId request) = some issues := exists_validateGraph.mpr hnumbers
  obtain ⟨groups, hgroups⟩ : ∃ groups, (archiveRecordKinds.mapM fun kind =>
      ((request.archive.verification.records kind).zip (transformed request kind)).mapM
        (planRecord (blank request) kind)) = some groups := by
    apply exists_mapM
    intro kind _
    apply exists_mapM
    intro pair hpair
    rw [zip_transformed] at hpair
    obtain ⟨r, hr, rfl⟩ := List.mem_map.mp hpair
    obtain ⟨sourceId, hsource⟩ := exists_recordId hids hr
      (isDefined_object.mpr (isDefined_verified hverified hr))
    obtain ⟨targetId, htarget⟩ := exists_importedId hids hr (hdefined kind r hr)
    rw [← recordId_rewritten] at htarget
    rw [planRecord, hsource, htarget]
    exact ⟨_, rfl⟩
  have hplanned : planRecords (blank request) = some groups.flatten := by
    exact congrArg (Option.map List.flatten) hgroups
  obtain ⟨bytes, hbytes⟩ : ∃ bytes,
      (transformed request .blobs).mapM (planBytes (blank request)) = some bytes := by
    apply exists_mapM
    intro r' hr'
    obtain ⟨r, hr, rfl⟩ := mem_transformed.mp hr'
    obtain ⟨targetId, htarget⟩ := exists_importedId hids hr (hdefined .blobs r hr)
    rw [← recordId_rewritten] at htarget
    rw [planBytes, htarget]
    split
    · exact ⟨_, rfl⟩
    · exact ⟨_, rfl⟩
  have hrecords : ∀ a ∈ sortedActions localeLe groups.flatten bytes, ∀ r', a.record = some r' →
      isDefined (.object r') = true := by
    intro a ha r' hr'
    rw [sortedActions, List.mem_insertionSort, List.mem_append, List.mem_map] at ha
    rcases ha with ⟨p, hp, rfl⟩ | ha
    · obtain ⟨group, hgroup, hp⟩ := List.mem_flatten.mp hp
      obtain ⟨kind, -, hkind⟩ := (mem_of_forall₂ (mapM_eq_some hgroups)).2 group hgroup
      obtain ⟨pair, hpair, hplan⟩ := (mem_of_forall₂ (mapM_eq_some hkind)).2 p hp
      rw [zip_transformed] at hpair
      obtain ⟨r, hr, rfl⟩ := List.mem_map.mp hpair
      rw [(planRecord_plans hplan).record, Option.some.injEq] at hr'
      rw [← hr']
      exact hdefined kind r hr
    · rw [List.reduceOption_mem_iff] at ha
      obtain ⟨r, -, hplan⟩ := (mem_of_forall₂ (mapM_eq_some hbytes)).2 _ ha
      rcases planBytes_cases hplan with ⟨-, hnone⟩ | ⟨b, -, hb, hplans⟩
      · cases hnone
      · rw [Option.some.injEq] at hb
        rw [hb, hplans.record] at hr'
        cases hr'
  obtain ⟨planId, hid⟩ : ∃ planId, calculateArchiveImportPlanId request.archive.manifest
      request.archive.manifest.workspaceId (mappedWorkspaceId request) request.mode
      request.conflictMode (sortedActions localeLe groups.flatten bytes) = some planId :=
    exists_planId hmanifest hrecords
  obtain ⟨plan, hplan, -⟩ := exists_planArchiveImport (blank request) hgraph hplanned hbytes hid
  exact ⟨plan.planId, by rw [importPlanId, hplan]; rfl⟩

/-- When planning into an empty workspace does not throw. -/
theorem exists_importPlanId_iff (hverified : Verified request.archive)
    (hids : HasIds request.archive) (hmanifest : isDefined request.archive.manifest.value = true) :
    (∃ planId, importPlanId localeLe request = some planId) ↔
      ReferencesPresent request.archive ∧ NumbersConvert request := by
  constructor
  · rintro ⟨planId, hid⟩
    constructor
    · intro kind r hr
      have htext := exists_text hid (mem_transformed.mpr ⟨r, hr, rfl⟩)
      exact (isDefined_rewritten hverified hr).mp (exists_canonicalJson_iff.mp htext)
    · obtain ⟨plan, hplan, -⟩ := Option.map_eq_some_iff.mp hid
      obtain ⟨planned, bytes, graphIssues, hparts⟩ := planArchiveImport_parts hplan
      exact exists_validateGraph.mp ⟨graphIssues, hparts.graph⟩
  · rintro ⟨hpresent, hnumbers⟩
    exact exists_blank_plan hverified hids hmanifest hpresent hnumbers

/-- The mappings of an import that preserves ids keep every id. -/
theorem mappingsOf_preserve (hmode : request.mode = .preserveIds) (kind : ArchiveRecordKind)
    (s : JsString) : (mappingsOf request kind s).getD s = s := by
  have htarget : mappedWorkspaceId request = request.archive.manifest.workspaceId := by
    rw [mappedWorkspaceId, requestedWorkspace, hmode]
    simp
  rw [mappingsOf, htarget, buildIdMappings]
  split
  · split
    · rename_i hsame
      rw [hsame, Option.getD_some]
    · rfl
  split
  · rw [entityId, if_pos rfl, Option.getD_some]
  · rfl

theorem rewritten_preserve (hmode : request.mode = .preserveIds)
    (hpresent : ReferencesPresent request.archive) {kind : ArchiveRecordKind} {r : ArchiveRecord}
    (hr : r ∈ request.archive.verification.records kind) : rewritten request kind r = r := by
  have htarget : mappedWorkspaceId request = request.archive.manifest.workspaceId := by
    rw [mappedWorkspaceId, requestedWorkspace, hmode]
    simp
  rw [rewritten, htarget]
  exact mapRecord_same (mappingsOf_preserve hmode) (hpresent kind r hr)

/-- The source of a planned record. -/
theorem planRecord_source {kind : ArchiveRecordKind} {pair : ArchiveRecord × ArchiveRecord}
    {planned : ArchiveImportAction × List ArchiveIssue} (hmode : request.mode = .preserveIds)
    (h : planRecord request kind pair = some planned) :
    some planned.1.sourceId = recordId pair.1 kind := by
  rw [planRecord] at h
  obtain ⟨sourceId, hsource, h⟩ := Option.bind_eq_some_iff.mp h
  obtain ⟨transformedId, -, h⟩ := Option.bind_eq_some_iff.mp h
  obtain ⟨disposition, -, h⟩ := Option.bind_eq_some_iff.mp h
  cases h
  simp [hmode, hsource]

theorem plansSources {plan : ArchiveImportPlan} (hmode : request.mode = .preserveIds)
    (hpresent : ReferencesPresent request.archive)
    (h : planArchiveImport localeLe request = some plan) : PlansSources request plan := by
  intro kind
  have hmap : (((request.archive.verification.records kind).zip (transformed request kind)).map
      fun pair => (recordId pair.1 kind, pair.2)) =
        (request.archive.verification.records kind).map fun r => (recordId r kind, r) := by
    rw [zip_transformed, List.map_map]
    apply List.map_congr_left
    intro r hr
    rw [Function.comp_apply, rewritten_preserve hmode hpresent hr]
  rw [← hmap]
  apply filterMap_actions_perm h
  · intro kind' pair p hp
    have hplans := planRecord_plans hp
    simp only [hplans.kind, ActionKind.record.injEq, hplans.record, Option.map_some]
    by_cases hkind : kind' = kind
    · rw [if_pos hkind, if_pos hkind, planRecord_source hmode hp, hkind]
    · rw [if_neg hkind, if_neg hkind]
  · intro a ha
    simp [ha]
  · exact fun _ _ _ => rfl

/-- Every record of the inventory is JSON. -/
def JsonInventory (target : ArchiveImportInventory) : Prop :=
  ∀ kind index, target.records kind = some index → ∀ p ∈ index, isDefined (.object p.2) = true

theorem exists_text_of_find {target : ArchiveImportInventory} (h : JsonInventory target)
    {kind : ArchiveRecordKind} {id : JsString} {r : ArchiveRecord}
    (hfind : target.find kind id = .record r) : ∃ text, canonicalJson (.object r) = some text := by
  rw [exists_canonicalJson_iff]
  rw [ArchiveImportInventory.find] at hfind
  split at hfind
  · cases hfind
  rename_i index hindex
  split at hfind
  · rename_i r' hlookup
    cases hfind
    exact h kind index hindex _ (mem_of_lookup hlookup)
  · split at hfind
    · cases hfind
    split at hfind
    · cases hfind
      rfl
    · cases hfind

/-- Planning a verified archive gives a plan, of the records as they are where ids are preserved,
exactly when no record lacks a reference of its kind, numbers can be compared, and no id is the name
of a method. -/
theorem plan_total_iff (localeLe : JsString → JsString → Bool) (request : ArchiveImportRequest)
    (hverified : Verified request.archive) (hids : HasIds request.archive)
    (hmanifest : isDefined request.archive.manifest.value = true)
    (hinventory : JsonInventory request.target) :
    (∃ plan, planArchiveImport localeLe request = some plan ∧
      (request.mode = .preserveIds → PlansSources request plan)) ↔
      ReferencesPresent request.archive ∧ NumbersConvert request ∧ ¬ LooksUpMethod request := by
  have hplan := @exists_plan_iff localeLe request fun kind id r => exists_text_of_find hinventory
  rw [exists_importPlanId_iff hverified hids hmanifest, and_assoc] at hplan
  rw [← hplan]
  constructor
  · rintro ⟨plan, h, -⟩
    exact ⟨plan, h⟩
  · rintro ⟨plan, h⟩
    exact ⟨plan, h, fun hmode => plansSources hmode (hplan.mp ⟨plan, h⟩).1 h⟩

end Total

section Samples

theorem plan_total_iff_sample : ∃ entries plan, Verified (mappingRequest entries).archive ∧
    planArchiveImport unitsLe { mappingRequest entries with
      mode := .preserveIds, target := ⟨none, fun _ => none, []⟩ } = some plan ∧
    PlansSources { mappingRequest entries with
      mode := .preserveIds, target := ⟨none, fun _ => none, []⟩ } plan := by
  obtain ⟨entries, hverified⟩ := mappingRequest_verified
  have hids : ∀ kind ∈ archiveRecordKinds,
      ∀ r ∈ (mappingSource twoWorkspaces).records kind, ∃ u s, idOf r = .string (u :: s) := by
    have hall : ∀ kind ∈ archiveRecordKinds, ∀ r ∈ (mappingSource twoWorkspaces).records kind,
        ((asString (idOf r)).getD []) ≠ [] := by decide +kernel
    intro kind hkind r hr
    have hne := hall kind hkind r hr
    cases hid : idOf r with
    | string id =>
      obtain ⟨u, s, rfl⟩ := List.exists_cons_of_ne_nil (show id ≠ [] by simpa [hid, asString] using hne)
      exact ⟨u, s, rfl⟩
    | _ => simp [hid, asString] at hne
  have hpresent : ∀ kind ∈ archiveRecordKinds, ∀ r ∈ (mappingSource twoWorkspaces).records kind,
      ∀ key ∈ assignedKeys kind, (r.lookup key).isSome = true := by decide +kernel
  have hmanifest : isDefined (manifestOf (mappingSource twoWorkspaces)).value = true := by
    decide +kernel
  have hconverts : NumbersConvert { mappingRequest entries with
      mode := .preserveIds, target := ⟨none, fun _ => none, []⟩ } := by
    intro r hr
    cases hr
  have hfound : ¬ LooksUpMethod { mappingRequest entries with
      mode := .preserveIds, target := ⟨none, fun _ => none, []⟩ } := by
    rintro ⟨kind, r, -, id, -, hfind, -⟩
    cases hfind
  obtain ⟨plan, hplan, hsources⟩ := (plan_total_iff unitsLe { mappingRequest entries with
      mode := .preserveIds, target := ⟨none, fun _ => none, []⟩ } hverified
    (fun kind _ => hids kind (mem_archiveRecordKinds kind)) hmanifest
    (fun _ _ hindex => by cases hindex)).mpr
      ⟨fun kind => hpresent kind (mem_archiveRecordKinds kind), hconverts, hfound⟩
  exact ⟨entries, plan, hverified, hplan, hsources rfl⟩

/-- A dataset that says nothing of a retention policy. -/
def unassignedSource : ArchiveSource where
  exportId := js "e"
  workspaceId := js "a"
  datasetIds := []
  createdAt := js "t"
  createdBy := js "u"
  sourceVersion := js "0.3"
  records := fun kind =>
    match kind with
    | .workspaces => [[(js "id", .string (js "a"))]]
    | .datasets => [[(js "id", .string (js "d")), (js "workspaceId", .string (js "a"))]]
    | _ => []
  blobs := []

def unassignedRequest (entries : EntryMap) : ArchiveImportRequest where
  archive := ⟨entries, manifestOf unassignedSource, ⟨true, unassignedSource.records⟩⟩
  mode := .preserveIds
  conflictMode := .reportOnly
  target := ⟨none, fun _ => none, []⟩

theorem unassignedSource_wellFormed : WellFormedSource unassignedSource where
  json := by
    have hall : ∀ kind ∈ archiveRecordKinds, ∀ r ∈ unassignedSource.records kind,
        isJson (.object r) = true := by decide +kernel
    exact fun kind => hall kind (mem_archiveRecordKinds kind)
  scope := by
    have hall : ∀ kind ∈ archiveRecordKinds, ∀ r ∈ unassignedSource.records kind,
        (r.lookup (js "workspaceId")).all (strictEq · (.string (js "a"))) = true := by
      decide +kernel
    intro kind r hr v hv
    have hsame := hall kind (mem_archiveRecordKinds kind) r hr
    rw [hv] at hsame
    exact eq_of_strictEq hsame
  resources := by
    intro r hr
    cases hr
  parents := by
    intro r hr
    cases hr
  blobs := List.Perm.nil
  events := ⟨[], List.Perm.nil, by simp, List.nodup_nil, by simp, List.isChain_nil⟩

/-- The archive is verified, and planning it throws. -/
theorem unassigned_throws : ∃ entries, Verified (unassignedRequest entries).archive ∧
    HasIds (unassignedRequest entries).archive ∧
      planArchiveImport unitsLe (unassignedRequest entries) = none := by
  obtain ⟨entries, hverified⟩ :
      ∃ entries, Verified (unassignedRequest entries).archive := by
    apply exists_verified unassignedSource_wellFormed
    · decide +kernel
    · intro kind
      cases kind <;> rfl
    · intro kind
      cases kind <;> rfl
  refine ⟨entries, hverified, ?_, ?_⟩
  · intro kind _ r hr
    cases kind with
    | workspaces =>
      rw [List.mem_singleton.mp hr]
      exact ⟨_, _, rfl⟩
    | datasets =>
      rw [List.mem_singleton.mp hr]
      exact ⟨_, _, rfl⟩
    | _ => cases hr
  · have hthrows : (planArchiveImport unitsLe (unassignedRequest EntryMap.empty)).isNone = true := by
      decide +kernel
    exact Option.isNone_iff_eq_none.mp hthrows

end Samples

end TrustCore.ImportTotality
