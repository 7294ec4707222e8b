import TrustCore.ImportOrder
import TrustCore.ImportReferences
import TrustCore.ObjectStorage

/-!
# Resuming the immutable commit

`PostgresArchiveImportTarget` over an object storage. `commitBlob` looks at the
temporary object before it commits it, and a commit removes that object, so a
blob whose commit has taken effect cannot be committed again: an import that
crashed between its first commit and the next checkpoint never completes, nor
does one that inserts the same bytes twice. Every other crash inside the step is
made good by the next execution.
-/

namespace TrustCore.ImportExecutor

open TrustCore.Utf TrustCore.Json TrustCore.Columns TrustCore.Dynamic TrustCore.Sha256
open TrustCore.ArchiveFormat TrustCore.ImportPlan TrustCore.Programs TrustCore.AuditLog
open TrustCore.ObjectStorage

/-- The part of the target that lives in the database. -/
structure MetadataPort (δ : Type) where
  revalidate : ArchiveImportPlan → δ → List ArchiveIssue
  commitMetadata : JsString → ArchiveImportPlan → List ArchiveImportAction → δ →
    Except ImportError δ
  appendAudit : JsString → ArchiveImportPlan → JsString → Instant → AuditLineage → δ →
    Except ImportError δ

structure TargetState (δ : Type) where
  objects : Objects
  metadata : δ

def temporaryOperationId (operationId digest : JsString) : JsString :=
  deterministicUuid (js "archive-import-blob:" ++ operationId ++ js ":" ++ digest)

/-- The key of `this.temporary(operationId, sha256)`. -/
def temporaryKey (workspaceId operationId digest : JsString) : Option JsString :=
  temporaryObjectKey workspaceId (temporaryOperationId operationId digest)

def unsafeIdentifier : ImportError := ⟨none, js "Unsafe identifier"⟩

def storageError (e : StorageError) : ImportError := ⟨e.code, e.message⟩

def stageBlob (workspaceId : JsString) (objects : Objects) (operationId digest : JsString)
    (bytes : Bytes) : Except ImportError Objects :=
  match temporaryKey workspaceId operationId digest with
  | none => .error unsafeIdentifier
  | some key =>
    match writeTemporary objects key bytes (js "application/octet-stream") with
    | .ok (_, objects') => .ok objects'
    | .error e => .error (storageError e)

/-- The metadata and the digest of the temporary object, or the error of reading it. -/
def inspectTemporary (workspaceId : JsString) (objects : Objects) (operationId digest : JsString) :
    Except ImportError (ObjectMetadata × JsString) :=
  match temporaryKey workspaceId operationId digest with
  | none => .error unsafeIdentifier
  | some key =>
    match head objects key, openReadStream objects key with
    | .ok metadata, .ok bytes => .ok (metadata, sha256 bytes)
    | .error e, _ => .error (storageError e)
    | _, .error e => .error (storageError e)

def verifyStagedBlob (workspaceId : JsString) (objects : Objects) (operationId digest : JsString)
    (byteLength : Nat) : Except ImportError Bool :=
  match inspectTemporary workspaceId objects operationId digest with
  | .ok (metadata, hash) => .ok (metadata.byteLength == byteLength && hash == digest)
  | .error e => .error e

def commitBlob (workspaceId : JsString) (objects : Objects) (operationId digest : JsString) :
    Except ImportError Objects :=
  match inspectTemporary workspaceId objects operationId digest with
  | .error e => .error e
  | .ok (metadata, hash) =>
    if hash ≠ digest then
      .error ⟨none, js "Staged blob digest changed before immutable commit."⟩
    else
      match commitImmutable objects metadata.key workspaceId digest metadata.byteLength
        metadata.mediaType with
      | .ok (_, objects') => .ok objects'
      | .error e => .error (storageError e)

/-- The loop of `assertCommittedBlobs`. -/
def assertCommittedBlobs (workspaceId : JsString) (objects : Objects) :
    List ArchiveImportAction → Except ImportError Unit
  | [] => .ok ()
  | action :: rest =>
    if action.kind ≠ .record .blobs ∨ action.disposition ≠ .insert then
      assertCommittedBlobs workspaceId objects rest
    else
      match field (action.record.getD []) (js "sha256") with
      | .string (u :: digest) =>
        match canonicalObjectKey workspaceId (u :: digest) with
        | none => .error ⟨none, canonicalKeyMessage workspaceId⟩
        | some key =>
          match objects key with
          | some _ => assertCommittedBlobs workspaceId objects rest
          | none =>
            .error ⟨none, js "Blob metadata cannot commit before immutable bytes exist."⟩
      | _ => .error ⟨none, js "Imported sha256 must be a non-empty string."⟩

section Target

variable {δ : Type} (port : MetadataPort δ) (workspaceId : JsString)

/-- A change of the objects only. -/
def onObjects (s : TargetState δ) : Except ImportError Objects → Except ImportError Unit × TargetState δ
  | .ok objects => (.ok (), { s with objects })
  | .error e => (.error e, s)

def onMetadata (s : TargetState δ) : Except ImportError δ → Except ImportError Unit × TargetState δ
  | .ok metadata => (.ok (), { s with metadata })
  | .error e => (.error e, s)

def postgresTarget : Target (TargetState δ) where
  answer
    | .revalidate plan, s => (.ok (port.revalidate plan s.metadata), s)
    | .stageBlob operationId digest bytes, s =>
      onObjects s (stageBlob workspaceId s.objects operationId digest bytes)
    | .verifyStagedBlob operationId digest byteLength, s =>
      (verifyStagedBlob workspaceId s.objects operationId digest byteLength, s)
    | .commitBlob operationId digest, s =>
      onObjects s (commitBlob workspaceId s.objects operationId digest)
    | .commitMetadata operationId plan actions, s =>
      match assertCommittedBlobs workspaceId s.objects actions with
      | .error e => (.error e, s)
      | .ok () => onMetadata s (port.commitMetadata operationId plan actions s.metadata)
    | .appendAudit operationId plan requestedBy occurredAt lineage, s =>
      onMetadata s (port.appendAudit operationId plan requestedBy occurredAt lineage s.metadata)

/-- The executor's statements against this target, without a fault. -/
abbrev importStep (clock : Nat → Instant) :
    (st : Stmt) → Alone (TargetState δ) → st.Result × Alone (TargetState δ) :=
  performAlone (postgresTarget port workspaceId) workspaceId clock

end Target

section Objects

variable {workspaceId operationId digest : JsString} {objects objects' : Objects}

theorem inspectTemporary_eq_ok {metadata : ObjectMetadata} {hash : JsString} :
    inspectTemporary workspaceId objects operationId digest = .ok (metadata, hash) ↔
      ∃ key o, temporaryKey workspaceId operationId digest = some key ∧ objects key = some o ∧
        metadata = o.metadata key ∧ hash = o.digest := by
  rw [inspectTemporary]
  cases hk : temporaryKey workspaceId operationId digest with
  | none => simp
  | some key =>
    cases ho : objects key with
    | none => simp [head, openReadStream, require, ho]
    | some o => simp [head, openReadStream, require, ho, o.digest_eq, eq_comm]

theorem verifyStagedBlob_eq_true {byteLength : Nat} {key : JsString} {o : StoredBytes}
    (h : verifyStagedBlob workspaceId objects operationId digest byteLength = .ok true)
    (hkey : temporaryKey workspaceId operationId digest = some key) (ho : objects key = some o) :
    o.digest = digest := by
  rw [verifyStagedBlob, inspectTemporary_eq_ok.mpr ⟨key, o, hkey, ho, rfl, rfl⟩,
    Except.ok.injEq, Bool.and_eq_true] at h
  exact beq_iff_eq.mp h.2

theorem isSha256_of_blobArchivePath {path : JsString} (h : blobArchivePath digest = some path) :
    isSha256 digest = true := by
  rw [blobArchivePath] at h
  split at h
  · assumption
  · cases h

/-- What a commit that returns has done: the temporary object was there with the
right bytes, and it is gone. -/
theorem commitBlob_eq_ok (h : commitBlob workspaceId objects operationId digest = .ok objects') :
    ∃ key o canonical, temporaryKey workspaceId operationId digest = some key ∧
      objects key = some o ∧ o.digest = digest ∧
      canonicalObjectKey workspaceId digest = some canonical ∧
      objects' = Objects.delete (if (objects canonical).isSome then objects
        else objects.set canonical o) key := by
  rw [commitBlob] at h
  split at h
  · cases h
  · rename_i metadata hash hinspect
    obtain ⟨key, o, hkey, ho, rfl, rfl⟩ := inspectTemporary_eq_ok.mp hinspect
    split at h
    · cases h
    · rename_i hdigest
      have hdigest' : o.digest = digest := not_not.mp hdigest
      have htemp := isTemporaryKey_temporaryObjectKey hkey
      cases hc : canonicalObjectKey workspaceId digest with
      | none => simp [commitImmutable, htemp, o.media, hc, StoredBytes.metadata] at h
      | some canonical =>
        refine ⟨key, o, canonical, hkey, ho, hdigest', rfl, ?_⟩
        cases he : objects canonical with
        | none =>
          simp [commitImmutable, htemp, o.media, hc, StoredBytes.metadata, ho, hdigest', he] at h
          simp [← h]
        | some existing =>
          by_cases hsame : existing.digest = digest ∧ existing.body.length = o.body.length
          · simp [commitImmutable, htemp, o.media, hc, StoredBytes.metadata, ho, hdigest', he,
              hsame.1, hsame.2] at h
            simp [← h]
          · have hdiffer : ¬existing.digest = digest ∨ ¬existing.body.length = o.body.length :=
              not_and_or.mp hsame
            simp [commitImmutable, htemp, o.media, hc, StoredBytes.metadata, ho, hdigest', he,
              hdiffer] at h

/-- The commit of a blob that is staged; an object that is already canonical has the
same length. -/
theorem commitBlob_ok {key canonical : JsString} {o : StoredBytes}
    (hkey : temporaryKey workspaceId operationId digest = some key) (ho : objects key = some o)
    (hdigest : o.digest = digest) (hc : canonicalObjectKey workspaceId digest = some canonical)
    (hsame : ∀ existing, objects canonical = some existing →
      existing.digest = digest ∧ existing.body.length = o.body.length) :
    ∃ objects', commitBlob workspaceId objects operationId digest = .ok objects' := by
  have htemp := isTemporaryKey_temporaryObjectKey hkey
  have hinspect : inspectTemporary workspaceId objects operationId digest =
      .ok (o.metadata key, o.digest) := inspectTemporary_eq_ok.mpr ⟨key, o, hkey, ho, rfl, rfl⟩
  rw [commitBlob, hinspect]
  cases he : objects canonical with
  | none =>
    simp [commitImmutable, htemp, o.media, hc, StoredBytes.metadata, ho, hdigest, he]
  | some existing =>
    obtain ⟨h₁, h₂⟩ := hsame existing he
    simp [commitImmutable, htemp, o.media, hc, StoredBytes.metadata, ho, hdigest, he, h₁, h₂]

/-- A commit removes the temporary object it commits and adds none. -/
theorem commitBlob_temporary {digest' key' : JsString}
    (h : commitBlob workspaceId objects operationId digest = .ok objects')
    (hkey' : temporaryKey workspaceId operationId digest' = some key') :
    (temporaryKey workspaceId operationId digest = some key' ∧ objects' key' = none) ∨
      objects' key' = objects key' := by
  obtain ⟨key, o, canonical, hkey, ho, -, hc, rfl⟩ := commitBlob_eq_ok h
  by_cases hk : key' = key
  · left
    rw [hk, Objects.delete, Function.update_self]
    exact ⟨hkey, rfl⟩
  · right
    rw [Objects.delete, Function.update_of_ne hk]
    split
    · rfl
    · rw [Objects.set, Function.update_of_ne (temporary_ne_canonical hkey' hc)]

theorem commitBlob_removes {key : JsString}
    (h : commitBlob workspaceId objects operationId digest = .ok objects')
    (hkey : temporaryKey workspaceId operationId digest = some key) : objects' key = none := by
  obtain ⟨key', o, canonical, hkey', ho, -, hc, rfl⟩ := commitBlob_eq_ok h
  rw [hkey, Option.some.injEq] at hkey'
  rw [hkey', Objects.delete, Function.update_self]

/-- A storage that keeps its side of the contract: canonical objects have the digest
of their key, and every body is a known one. -/
structure Sane (workspaceId : JsString) (bodies : Set Bytes) (objects : Objects) : Prop where
  addressed : ∀ digest key o, canonicalObjectKey workspaceId digest = some key →
    objects key = some o → o.digest = digest
  body : ∀ key o, objects key = some o → o.body ∈ bodies

variable {bodies : Set Bytes}

theorem stageBlob_eq_ok {bytes : Bytes}
    (h : stageBlob workspaceId objects operationId digest bytes = .ok objects') :
    ∃ key o, temporaryKey workspaceId operationId digest = some key ∧ o.body = bytes ∧
      objects' = objects.set key o := by
  rw [stageBlob] at h
  split at h
  · cases h
  · rename_i key hkey
    split at h
    · rename_i metadata objects₁ hwrite
      cases h
      obtain ⟨-, o, ⟨hbody, -, -⟩, rfl⟩ := writeTemporary_eq_ok hwrite
      exact ⟨key, o, hkey, hbody, rfl⟩
    · cases h

theorem Sane.stage (h : Sane workspaceId bodies objects) {bytes : Bytes}
    (hb : bytes ∈ bodies)
    (hstage : stageBlob workspaceId objects operationId digest bytes = .ok objects') :
    Sane workspaceId bodies objects' := by
  obtain ⟨key, o, hkey, hbody, rfl⟩ := stageBlob_eq_ok hstage
  constructor
  · intro digest' key' o' hc ho'
    rw [Objects.set, Function.update_of_ne (temporary_ne_canonical hkey hc).symm] at ho'
    exact h.addressed digest' key' o' hc ho'
  · intro key' o' ho'
    by_cases hk : key' = key
    · rw [hk, Objects.set, Function.update_self, Option.some.injEq] at ho'
      rw [← ho', hbody]
      exact hb
    · rw [Objects.set, Function.update_of_ne hk] at ho'
      exact h.body key' o' ho'

/-- The canonical objects after a commit: those from before, and the new one. -/
theorem commitBlob_canonical {digest' key' : JsString}
    (h : commitBlob workspaceId objects operationId digest = .ok objects')
    (hc' : canonicalObjectKey workspaceId digest' = some key') :
    objects' key' = objects key' ∨ ∃ o key, objects key = some o ∧ o.digest = digest ∧
      digest' = digest ∧ objects' key' = some o := by
  obtain ⟨key, o, canonical, hkey, ho, hdigest, hc, rfl⟩ := commitBlob_eq_ok h
  rw [Objects.delete, Function.update_of_ne (temporary_ne_canonical hkey hc').symm]
  split
  · exact Or.inl rfl
  · by_cases hk : key' = canonical
    · right
      refine ⟨o, key, ho, hdigest, ?_, ?_⟩
      · rw [hk] at hc'
        exact (canonicalObjectKey_injective hc' hc).2
      · rw [hk, Objects.set, Function.update_self]
    · left
      rw [Objects.set, Function.update_of_ne hk]

theorem commitBlob_stays {digest' key' : JsString}
    (h : commitBlob workspaceId objects operationId digest = .ok objects')
    (hc' : canonicalObjectKey workspaceId digest' = some key')
    (hsome : (objects key').isSome = true) : (objects' key').isSome = true := by
  rcases commitBlob_canonical h hc' with he | ⟨o, key, -, -, -, he⟩
  · rw [he]
    exact hsome
  · rw [he]
    rfl

theorem commitBlob_committed (h : commitBlob workspaceId objects operationId digest = .ok objects') :
    ∃ key, canonicalObjectKey workspaceId digest = some key ∧ (objects' key).isSome = true := by
  obtain ⟨key, o, canonical, hkey, ho, -, hc, rfl⟩ := commitBlob_eq_ok h
  refine ⟨canonical, hc, ?_⟩
  rw [Objects.delete, Function.update_of_ne (temporary_ne_canonical hkey hc).symm]
  split
  · assumption
  · rw [Objects.set, Function.update_self]
    rfl

theorem Sane.commit (h : Sane workspaceId bodies objects)
    (hcommit : commitBlob workspaceId objects operationId digest = .ok objects') :
    Sane workspaceId bodies objects' := by
  constructor
  · intro digest' key' o' hc ho'
    rcases commitBlob_canonical hcommit hc with he | ⟨o, key, ho, hdigest, hd, he⟩
    · exact h.addressed digest' key' o' hc (he ▸ ho')
    · rw [he, Option.some.injEq] at ho'
      rw [← ho', hdigest, hd]
  · intro key' o' ho'
    obtain ⟨key, o, canonical, hkey, ho, -, hc, rfl⟩ := commitBlob_eq_ok hcommit
    by_cases hk : key' = key
    · rw [hk, Objects.delete, Function.update_self] at ho'
      cases ho'
    · rw [Objects.delete, Function.update_of_ne hk] at ho'
      split at ho'
      · exact h.body key' o' ho'
      · by_cases hk' : key' = canonical
        · rw [hk', Objects.set, Function.update_self, Option.some.injEq] at ho'
          exact ho' ▸ h.body key o ho
        · rw [Objects.set, Function.update_of_ne hk'] at ho'
          exact h.body key' o' ho'

/-- The temporary object of a blob is in the storage. -/
def Staged (workspaceId : JsString) (objects : Objects) (operationId digest : JsString) : Prop :=
  ∃ key, temporaryKey workspaceId operationId digest = some key ∧ (objects key).isSome = true

/-- What is left of the staged blobs has the digest it was staged under. -/
def StagedRight (workspaceId : JsString) (objects : Objects) (operationId : JsString)
    (digests : List JsString) : Prop :=
  ∀ digest ∈ digests, ∀ key o, temporaryKey workspaceId operationId digest = some key →
    objects key = some o → o.digest = digest

theorem StagedRight.commit {digests : List JsString}
    (h : StagedRight workspaceId objects operationId digests)
    (hcommit : commitBlob workspaceId objects operationId digest = .ok objects') :
    StagedRight workspaceId objects' operationId digests := by
  intro digest' hmem key o hkey ho
  rcases commitBlob_temporary hcommit hkey with ⟨-, he⟩ | he
  · rw [he] at ho
    cases ho
  · exact h digest' hmem key o hkey (he ▸ ho)

theorem StagedRight.mono {digests digests' : List JsString}
    (h : StagedRight workspaceId objects operationId digests) (hsub : ∀ d ∈ digests', d ∈ digests) :
    StagedRight workspaceId objects operationId digests' :=
  fun d hd => h d (hsub d hd)

theorem canonical_of_temporary {key : JsString}
    (h : temporaryKey workspaceId operationId digest = some key) (hd : isSha256 digest = true) :
    ∃ canonical, canonicalObjectKey workspaceId digest = some canonical := by
  rw [temporaryKey, temporaryObjectKey] at h
  split at h
  · rename_i hsafe
    rw [Bool.and_eq_true] at hsafe
    exact ⟨_, by rw [canonicalObjectKey, hsafe.1, hd]; rfl⟩
  · cases h

/-- The blobs of a list committed one after the other. -/
def commitAll (workspaceId operationId : JsString) : List JsString → Objects →
    Except ImportError Objects
  | [], objects => .ok objects
  | digest :: digests, objects =>
    match commitBlob workspaceId objects operationId digest with
    | .ok objects' => commitAll workspaceId operationId digests objects'
    | .error e => .error e

theorem commitAll_cons {digests : List JsString} {objects' : Objects}
    (h : commitAll workspaceId operationId (digest :: digests) objects = .ok objects') :
    ∃ objects₁, commitBlob workspaceId objects operationId digest = .ok objects₁ ∧
      commitAll workspaceId operationId digests objects₁ = .ok objects' := by
  rw [commitAll] at h
  split at h
  · rename_i objects₁ hcommit
    exact ⟨objects₁, hcommit, h⟩
  · cases h

/-- A second commit of a digest finds its temporary object gone. -/
theorem commitAll_needs {digests : List JsString}
    (h : commitAll workspaceId operationId digests objects = .ok objects') :
    digests.Nodup ∧ ∀ digest ∈ digests, Staged workspaceId objects operationId digest := by
  induction digests generalizing objects with
  | nil => simp
  | cons digest digests ih =>
    obtain ⟨objects₁, hcommit, hrest⟩ := commitAll_cons h
    obtain ⟨hnodup, hstaged⟩ := ih hrest
    have hlater : ∀ d ∈ digests, Staged workspaceId objects operationId d := by
      intro d hd
      obtain ⟨key, hkey, hsome⟩ := hstaged d hd
      refine ⟨key, hkey, ?_⟩
      rcases commitBlob_temporary hcommit hkey with ⟨-, he⟩ | he
      · rw [he] at hsome
        cases hsome
      · rw [← he]
        exact hsome
    constructor
    · refine List.nodup_cons.mpr ⟨fun hmem => ?_, hnodup⟩
      obtain ⟨key, hkey, hsome⟩ := hstaged digest hmem
      rw [commitBlob_removes hcommit hkey] at hsome
      cases hsome
    · intro d hd
      rcases List.mem_cons.mp hd with rfl | hd
      · obtain ⟨key, o, -, hkey, ho, -⟩ := commitBlob_eq_ok hcommit
        exact ⟨key, hkey, by rw [ho]; rfl⟩
      · exact hlater d hd

/-- The canonical objects after the commits: those from before, and the committed ones. -/
theorem commitAll_present {digests : List JsString} {digest key : JsString}
    (h : commitAll workspaceId operationId digests objects = .ok objects')
    (hc : canonicalObjectKey workspaceId digest = some key) :
    (objects' key).isSome = true ↔ digest ∈ digests ∨ (objects key).isSome = true := by
  induction digests generalizing objects with
  | nil =>
    cases h
    simp
  | cons first digests ih =>
    obtain ⟨objects₁, hcommit, hrest⟩ := commitAll_cons h
    rw [ih hrest, List.mem_cons]
    constructor
    · rintro (hmem | hsome)
      · exact Or.inl (Or.inr hmem)
      · rcases commitBlob_canonical hcommit hc with he | ⟨o, key', -, -, hd, -⟩
        · exact Or.inr (he ▸ hsome)
        · exact Or.inl (Or.inl hd)
    · rintro ((rfl | hmem) | hsome)
      · obtain ⟨key', hc', hsome⟩ := commitBlob_committed hcommit
        rw [hc, Option.some.injEq] at hc'
        exact Or.inr (hc' ▸ hsome)
      · exact Or.inl hmem
      · exact Or.inr (commitBlob_stays hcommit hc hsome)

/-- Distinct digests that are all staged are all committed. -/
theorem commitAll_ok {digests : List JsString} (hcoll : CollisionFree bodies)
    (hsane : Sane workspaceId bodies objects) (hnodup : digests.Nodup)
    (hright : StagedRight workspaceId objects operationId digests)
    (hdigest : ∀ digest ∈ digests, isSha256 digest = true)
    (hstaged : ∀ digest ∈ digests, Staged workspaceId objects operationId digest) :
    ∃ objects', commitAll workspaceId operationId digests objects = .ok objects' := by
  induction digests generalizing objects with
  | nil => exact ⟨objects, rfl⟩
  | cons digest digests ih =>
    obtain ⟨hnot, hnodup'⟩ := List.nodup_cons.mp hnodup
    obtain ⟨key, hkey, hsome⟩ := hstaged digest List.mem_cons_self
    obtain ⟨o, ho⟩ := Option.isSome_iff_exists.mp hsome
    have hd := hright digest List.mem_cons_self key o hkey ho
    obtain ⟨canonical, hc⟩ := canonical_of_temporary hkey (hdigest digest List.mem_cons_self)
    have hsame : ∀ existing, objects canonical = some existing →
        existing.digest = digest ∧ existing.body.length = o.body.length := by
      intro existing he
      have hed := hsane.addressed digest canonical existing hc he
      have hbody : existing.body = o.body := by
        apply hcoll (hsane.body _ _ he) (hsane.body _ _ ho)
        rw [← existing.digest_eq, ← o.digest_eq, hed, hd]
      exact ⟨hed, by rw [hbody]⟩
    obtain ⟨objects₁, hcommit⟩ := commitBlob_ok hkey ho hd hc hsame
    have hstaged₁ : ∀ d ∈ digests, Staged workspaceId objects₁ operationId d := by
      intro d hmem
      obtain ⟨key', hkey', hsome'⟩ := hstaged d (List.mem_cons_of_mem _ hmem)
      refine ⟨key', hkey', ?_⟩
      rcases commitBlob_temporary hcommit hkey' with ⟨hsamekey, -⟩ | he
      · rw [hkey, Option.some.injEq] at hsamekey
        have hd' := hright d (List.mem_cons_of_mem _ hmem) key' o hkey' (hsamekey ▸ ho)
        exact absurd (hd'.symm.trans hd ▸ hmem) hnot
      · rw [he]
        exact hsome'
    have hright₁ : StagedRight workspaceId objects₁ operationId digests :=
      (StagedRight.commit hright hcommit).mono fun d hd => List.mem_cons_of_mem _ hd
    obtain ⟨objects', hrest⟩ := ih (hsane.commit hcommit) hnodup' hright₁
      (fun d hmem => hdigest d (List.mem_cons_of_mem _ hmem)) hstaged₁
    exact ⟨objects', by rw [commitAll, hcommit]; exact hrest⟩

end Objects

section Calls

variable {τ : Type} {T : Target τ} {workspaceId : JsString} {clock : Nat → Instant} {s : Alone τ}

theorem along_unwrap {α : Type} {I : Alone τ → Prop} {Q : α → Alone τ → Prop}
    {r : Except ImportError α} (hs : I s) (hQ : ∀ a, r = .ok a → Q a s) :
    (unwrap r).Along (performAlone T workspaceId clock) I Q s := by
  cases r with
  | ok a => exact ⟨hs, hQ a rfl⟩
  | error e => exact hs

theorem returns_unwrap {α : Type} {Q : α → Alone τ → Prop} {r : Except ImportError α} :
    (unwrap r).Returns (performAlone T workspaceId clock) s Q ↔ ∃ a, r = .ok a ∧ Q a s := by
  cases r with
  | ok a => simp [unwrap, Prog.returns_pure]
  | error e => simp [unwrap, Prog.not_returns_throw]

/-- A call of the target changes the state of the target only. -/
theorem along_target {c : TargetCall} {I : Alone τ → Prop} {Q : c.Answer → Alone τ → Prop}
    (hs : I s) (hs' : I { s with target := (T.answer c s.target).2 })
    (hQ : ∀ a, (T.answer c s.target).1 = .ok a →
      Q a { s with target := (T.answer c s.target).2 }) :
    (target c).Along (performAlone T workspaceId clock) I Q s := by
  refine ⟨hs, hs, ?_⟩
  exact along_unwrap hs' hQ

theorem returns_target {c : TargetCall} {Q : c.Answer → Alone τ → Prop} :
    (target c).Returns (performAlone T workspaceId clock) s Q ↔
      ∃ a, (T.answer c s.target).1 = .ok a ∧
        Q a { s with target := (T.answer c s.target).2 } := by
  rw [target, Prog.returns_bind, Prog.returns_perform, Prog.returns_bind, Prog.returns_perform,
    returns_unwrap]
  rfl

end Calls

/-- What an execution begins its operation with. -/
def beginInput (input : ExecuteInput) (startedAt : Instant) : BeginInput :=
  { planId := input.plan.planId, archiveExportId := input.archive.manifest.exportId,
    requestedBy := input.requestedBy, startedAt }

def blobDigests (plan : ArchiveImportPlan) : List JsString :=
  (blobActions plan).map (·.sourceId)

section Operation

variable {δ : Type} (workspaceId : JsString) (input : ExecuteInput)
  (rows₀ : List ImportOperationRow)

/-- The table has one row more, the operation of the plan as this request began it. -/
structure Begun (rows : List ImportOperationRow) (row : ImportOperationRow) : Prop where
  rows : rows = rows₀ ++ [row]
  ofPlan : ofPlan workspaceId input.plan.planId row = true
  id : row.id = operationIdOf workspaceId input.plan.planId
  request : ∃ request, input.request = some request ∧ ∀ startedAt,
    sameRequest row request (beginInput input startedAt) = true ∧
      ∃ new, operationRow workspaceId request (beginInput input startedAt) = some new

/-- The staged blobs have passed their verification. -/
structure Verified (objects : Objects) : Prop where
  right : StagedRight workspaceId objects (operationIdOf workspaceId input.plan.planId)
    (blobDigests input.plan)
  digest : ∀ digest ∈ blobDigests input.plan, isSha256 digest = true

variable (bodies : Set Bytes)

/-- What holds at any statement of a first execution: the table is as it was, or it
has the operation, and what the checkpoint says of the staged blobs is true. -/
def Interrupted (s : Alone (TargetState δ)) : Prop :=
  Sane workspaceId bodies s.target.objects ∧
    (s.rows = rows₀ ∨ validateInput input.archive input.plan = .ok () ∧
      ∃ row, Begun workspaceId input rows₀ s.rows row ∧
        (row.checkpoint = .stagedBlobsVerified → Verified workspaceId input s.target.objects))

/-- The executor's copy of the operation is the stored one. -/
def Holds (operation : ArchiveImportOperation) (s : Alone (TargetState δ)) : Prop :=
  Sane workspaceId bodies s.target.objects ∧
    validateInput input.archive input.plan = .ok () ∧
    ∃ row, Begun workspaceId input rows₀ s.rows row ∧ operation.id = row.id ∧
      operation.planId = row.planId ∧ operation.checkpoint = row.checkpoint ∧
      (row.checkpoint = .stagedBlobsVerified → Verified workspaceId input s.target.objects)

end Operation

section Executor

variable {δ : Type} {port : MetadataPort δ} {workspaceId : JsString} {clock : Nat → Instant}
  {input : ExecuteInput} {rows₀ : List ImportOperationRow} {bodies : Set Bytes}
  {s : Alone (TargetState δ)} {operation : ArchiveImportOperation}

theorem Holds.interrupted (h : Holds workspaceId input rows₀ bodies operation s) :
    Interrupted workspaceId input rows₀ bodies s := by
  obtain ⟨hsane, hvalid, row, hbegun, -, -, -, hverified⟩ := h
  exact ⟨hsane, Or.inr ⟨hvalid, row, hbegun, hverified⟩⟩

theorem Begun.moved {rows : List ImportOperationRow} {row : ImportOperationRow}
    (h : Begun workspaceId input rows₀ rows row) (next : ArchiveImportCheckpoint)
    (movedAt : Instant) :
    Begun workspaceId input rows₀ (rows₀ ++ [movedRow row next movedAt])
      (movedRow row next movedAt) :=
  ⟨rfl, h.ofPlan, h.id, h.request⟩

/-- Alone, the compare and swap is won. -/
theorem advance_begun {rows : List ImportOperationRow} {row : ImportOperationRow}
    {next : ArchiveImportCheckpoint}
    (hfresh : ∀ old ∈ rows₀, ofPlan workspaceId input.plan.planId old = false)
    (h : Begun workspaceId input rows₀ rows row) (movedAt : Instant)
    (hnext : nextImportCheckpoint row.checkpoint = some next) :
    advance rows workspaceId
        { operationId := row.id, planId := row.planId, expected := row.checkpoint, next, movedAt } =
      .ok (mapOperation (movedRow row next movedAt), rows₀ ++ [movedRow row next movedAt]) := by
  have hplan := h.ofPlan
  simp only [ofPlan, Bool.and_eq_true, beq_iff_eq] at hplan
  have hothers : ∀ old ∈ rows₀, isOperation workspaceId
      { operationId := row.id, planId := row.planId, expected := row.checkpoint, next, movedAt }
      old = false := by
    intro old hold
    have hnot := hfresh old hold
    by_contra hop
    simp only [isOperation, Bool.not_eq_false, Bool.and_eq_true, beq_iff_eq] at hop
    rw [ofPlan, hop.1.1, hop.2, hplan.2] at hnot
    simp at hnot
  have hmoved : rows.map (moveRow workspaceId
      { operationId := row.id, planId := row.planId, expected := row.checkpoint, next, movedAt }) =
      rows₀ ++ [movedRow row next movedAt] := by
    rw [h.rows, List.map_append, List.map_singleton]
    congr 1
    · have hsame : ∀ old ∈ rows₀, moveRow workspaceId
          { operationId := row.id, planId := row.planId, expected := row.checkpoint, next, movedAt }
          old = id old := by
        intro old hold
        rw [moveRow, hothers old hold]
        rfl
      rw [List.map_congr_left hsame, List.map_id]
    · simp [moveRow, isOperation, hplan.1]
  have hop : isOperation workspaceId
      { operationId := row.id, planId := row.planId, expected := row.checkpoint, next, movedAt }
      (movedRow row next movedAt) = true := by
    simp [isOperation, movedRow, hplan.1]
  rw [advance, if_neg (not_not.mpr hnext)]
  simp only [hmoved]
  rw [List.find?_append, List.find?_eq_none.mpr (by simpa using hothers), Option.none_or,
    List.find?_cons_of_pos hop]

variable (hfresh : ∀ old ∈ rows₀, ofPlan workspaceId input.plan.planId old = false)

include hfresh

/-- The executor's `advance` from a state in which it holds the stored operation. -/
theorem along_advanceTo {next : ArchiveImportCheckpoint}
    (h : Holds workspaceId input rows₀ bodies operation s)
    (hverified : next = .stagedBlobsVerified → Verified workspaceId input s.target.objects) :
    (advanceTo operation next).Along (importStep port workspaceId clock)
      (Interrupted workspaceId input rows₀ bodies)
      (Holds workspaceId input rows₀ bodies) s := by
  have hs := h.interrupted
  obtain ⟨hsane, hvalid, row, hbegun, hid, hplanId, hcheckpoint, -⟩ := h
  have hstep : ∀ answer s', performAlone (postgresTarget port workspaceId) workspaceId clock
      (.advance { operationId := operation.id, planId := operation.planId,
                  expected := operation.checkpoint, next, movedAt := clock s.ticks })
      { s with ticks := s.ticks + 1 } = (answer, s') →
      Interrupted workspaceId input rows₀ bodies s' ∧
        ∀ advanced, answer = .ok advanced →
          Holds workspaceId input rows₀ bodies advanced s' := by
    intro answer s' hperform
    rw [hid, hplanId, hcheckpoint, performAlone] at hperform
    by_cases hnext : nextImportCheckpoint row.checkpoint = some next
    · rw [advance_begun hfresh hbegun (clock s.ticks) hnext, Prod.mk.injEq] at hperform
      obtain ⟨rfl, rfl⟩ := hperform
      have hmoved := hbegun.moved next (clock s.ticks)
      have hholds : Holds workspaceId input rows₀ bodies
          (mapOperation (movedRow row next (clock s.ticks)))
          { s with rows := rows₀ ++ [movedRow row next (clock s.ticks)], ticks := s.ticks + 1 } :=
        ⟨hsane, hvalid, _, hmoved, rfl, rfl, rfl, hverified⟩
      refine ⟨hholds.interrupted, ?_⟩
      rintro advanced ⟨rfl⟩
      exact hholds
    · rw [advance, if_pos hnext, Prod.mk.injEq] at hperform
      obtain ⟨rfl, rfl⟩ := hperform
      exact ⟨hs, fun advanced ha => by cases ha⟩
  obtain ⟨hs', hanswer⟩ := hstep _ _ rfl
  refine ⟨hs, hs, ?_⟩
  apply Prog.Along.bind (along_unwrap hs' hanswer)
  intro advanced s'' hs'' hholds
  exact ⟨hs'', hs'', hholds⟩

omit hfresh in
/-- The operation is held over any change of the objects that keeps what its
checkpoint says. -/
theorem Holds.objects (h : Holds workspaceId input rows₀ bodies operation s)
    {objects : Objects} (hsane : Sane workspaceId bodies objects)
    (hverified : operation.checkpoint = .stagedBlobsVerified →
      Verified workspaceId input objects) :
    Holds workspaceId input rows₀ bodies operation
      { s with target := { s.target with objects } } := by
  obtain ⟨-, hvalid, row, hbegun, hid, hplanId, hcheckpoint, -⟩ := h
  exact ⟨hsane, hvalid, row, hbegun, hid, hplanId, hcheckpoint, fun hc =>
    hverified (hcheckpoint.trans hc)⟩

omit hfresh in
theorem along_stageBlobs (hbytes : ∀ path bytes, input.archive.entries.get path = some bytes →
      bytes ∈ bodies) (hc : operation.checkpoint ≠ .stagedBlobsVerified) (operationId : JsString)
    (actions : List ArchiveImportAction)
    (h : Holds workspaceId input rows₀ bodies operation s) :
    (stageBlobs operationId input.archive actions).Along (importStep port workspaceId clock)
      (Interrupted workspaceId input rows₀ bodies)
      (fun _ => Holds workspaceId input rows₀ bodies operation) s := by
  induction actions generalizing s with
  | nil => exact ⟨h.interrupted, h⟩
  | cons action rest ih =>
    rw [stageBlobs]
    split
    · exact h.interrupted
    · split
      · exact h.interrupted
      · rename_i bytes hget
        split
        · exact h.interrupted
        · have hstage : Holds workspaceId input rows₀ bodies operation
              { s with target := ((postgresTarget port workspaceId).answer
                (.stageBlob operationId action.sourceId bytes) s.target).2 } := by
            cases hstage : stageBlob workspaceId s.target.objects operationId action.sourceId bytes with
            | error e =>
              simp only [postgresTarget, hstage, onObjects]
              exact h
            | ok objects' =>
              simp only [postgresTarget, hstage, onObjects]
              exact h.objects (h.1.stage (hbytes _ bytes hget) hstage) fun hc' => absurd hc' hc
          apply Prog.Along.bind (along_target h.interrupted hstage.interrupted fun _ _ => hstage)
          exact fun _ s' _ h' => ih h'

omit hfresh in
theorem along_verifyStaged (actions : List ArchiveImportAction)
    (h : Holds workspaceId input rows₀ bodies operation s) :
    (verifyStaged operation.id input.archive actions).Along (importStep port workspaceId clock)
      (Interrupted workspaceId input rows₀ bodies)
      (fun _ s' => s' = s ∧
        StagedRight workspaceId s.target.objects operation.id (actions.map (·.sourceId)) ∧
        ∀ digest ∈ actions.map (·.sourceId), isSha256 digest = true) s := by
  induction actions with
  | nil => exact ⟨h.interrupted, rfl, by simp [StagedRight], by simp⟩
  | cons action rest ih =>
    rw [verifyStaged]
    split
    · exact h.interrupted
    · rename_i path hpath
      split
      · exact h.interrupted
      · rename_i bytes hget
        have hverify : (target (.verifyStagedBlob operation.id action.sourceId bytes.length)).Along
            (importStep port workspaceId clock)
            (Interrupted workspaceId input rows₀ bodies)
            (fun verified s' => s' = s ∧ verifyStagedBlob workspaceId s.target.objects operation.id
              action.sourceId bytes.length = .ok verified) s :=
          along_target h.interrupted h.interrupted fun _ ha => ⟨rfl, ha⟩
        apply Prog.Along.bind hverify
        rintro verified s' hs' ⟨rfl, ha⟩
        cases verified with
        | false => exact hs'
        | true =>
          apply ih.mono
          rintro _ s'' ⟨rfl, hright, hdigest⟩
          refine ⟨rfl, ?_, ?_⟩
          · intro digest hmem key o hkey ho
            rcases List.mem_cons.mp hmem with rfl | hmem
            · exact verifyStagedBlob_eq_true ha hkey ho
            · exact hright digest hmem key o hkey ho
          · intro digest hmem
            rcases List.mem_cons.mp hmem with rfl | hmem
            · exact isSha256_of_blobArchivePath hpath
            · exact hdigest digest hmem

omit hfresh in
theorem along_commitBlobs (actions : List ArchiveImportAction)
    (h : Holds workspaceId input rows₀ bodies operation s) (operationId : JsString)
    (hid : operationId = operationIdOf workspaceId input.plan.planId) :
    (commitBlobs operationId actions).Along (importStep port workspaceId clock)
      (Interrupted workspaceId input rows₀ bodies)
      (fun _ => Holds workspaceId input rows₀ bodies operation) s := by
  induction actions generalizing s with
  | nil => exact ⟨h.interrupted, h⟩
  | cons action rest ih =>
    rw [commitBlobs]
    have hcommit : Holds workspaceId input rows₀ bodies operation
        { s with target := ((postgresTarget port workspaceId).answer
          (.commitBlob operationId action.sourceId) s.target).2 } := by
      cases hcommit : commitBlob workspaceId s.target.objects operationId action.sourceId with
      | error e =>
        simp only [postgresTarget, hcommit, onObjects]
        exact h
      | ok objects' =>
        simp only [postgresTarget, hcommit, onObjects]
        apply h.objects (h.1.commit hcommit)
        intro hc
        obtain ⟨-, -, row, -, -, -, hcheckpoint, hverified⟩ := h
        have hv := hverified (hcheckpoint.symm.trans hc)
        subst hid
        exact ⟨StagedRight.commit hv.right hcommit, hv.digest⟩
    apply Prog.Along.bind (along_target h.interrupted hcommit.interrupted fun _ _ => hcommit)
    exact fun _ s' _ h' => ih h'

omit hfresh in
theorem Holds.id (h : Holds workspaceId input rows₀ bodies operation s) :
    operation.id = operationIdOf workspaceId input.plan.planId := by
  obtain ⟨-, -, row, hbegun, hid, -⟩ := h
  rw [hid, hbegun.id]

omit hfresh in
/-- A call that leaves the objects as they are. -/
theorem Holds.metadata (h : Holds workspaceId input rows₀ bodies operation s)
    (t : TargetState δ) (ht : t.objects = s.target.objects) :
    Holds workspaceId input rows₀ bodies operation { s with target := t } := by
  obtain ⟨hsane, hvalid, row, hbegun, hid, hplanId, hcheckpoint, hverified⟩ := h
  exact ⟨ht ▸ hsane, hvalid, row, hbegun, hid, hplanId, hcheckpoint, fun hc => ht ▸ hverified hc⟩

omit hfresh in
theorem onMetadata_objects (t : TargetState δ) (r : Except ImportError δ) :
    (onMetadata t r).2.objects = t.objects := by
  cases r <;> rfl

omit hfresh in
theorem commitMetadata_objects (port : MetadataPort δ) (workspaceId : JsString)
    (t : TargetState δ) (operationId : JsString) (plan : ArchiveImportPlan) (actions : List ArchiveImportAction) :
    ((postgresTarget port workspaceId).answer (.commitMetadata operationId plan actions) t).2.objects =
      t.objects := by
  simp only [postgresTarget]
  split
  · rfl
  · exact onMetadata_objects _ _

theorem along_runCheckpoint (hbytes : ∀ path bytes, input.archive.entries.get path = some bytes →
      bytes ∈ bodies) (h : Holds workspaceId input rows₀ bodies operation s) :
    (runCheckpoint input operation).Along (importStep port workspaceId clock)
      (Interrupted workspaceId input rows₀ bodies)
      (Holds workspaceId input rows₀ bodies) s := by
  rw [runCheckpoint]
  split
  · apply Prog.Along.bind (along_target h.interrupted h.interrupted fun _ _ => h)
    intro issues s' hs' h'
    split
    · exact hs'
    · exact along_advanceTo hfresh h' fun hc => by cases hc
  · rename_i hc
    apply Prog.Along.bind (along_stageBlobs hbytes (by rw [hc]; decide) _ _ h)
    exact fun _ s' _ h' => along_advanceTo hfresh h' fun hc => by cases hc
  · rename_i hc
    apply Prog.Along.bind (along_verifyStaged _ h)
    rintro _ s' _ ⟨rfl, hright, hdigest⟩
    rw [h.id] at hright
    exact along_advanceTo hfresh h fun _ => ⟨hright, hdigest⟩
  · apply Prog.Along.bind (along_commitBlobs _ h _ h.id)
    exact fun _ s' _ h' => along_advanceTo hfresh h' fun hc => by cases hc
  · have h' := h.metadata _ (commitMetadata_objects port workspaceId s.target operation.id
      input.plan (metadataActions input.plan))
    apply Prog.Along.bind (along_target h.interrupted h'.interrupted fun _ _ => h')
    exact fun _ s' _ h' => along_advanceTo hfresh h' fun hc => by cases hc
  · have hnow : now.Along (importStep port workspaceId clock)
        (Interrupted workspaceId input rows₀ bodies)
        (fun _ => Holds workspaceId input rows₀ bodies operation) s :=
      ⟨h.interrupted, h.interrupted, h⟩
    apply Prog.Along.bind hnow
    intro occurredAt s₁ _ h₁
    have h₂ := h₁.metadata _ (onMetadata_objects s₁.target (port.appendAudit operation.id input.plan
      input.requestedBy occurredAt input.archive.manifest.auditLineage s₁.target.metadata))
    apply Prog.Along.bind (along_target h₁.interrupted h₂.interrupted fun _ _ => h₂)
    exact fun _ s' _ h' => along_advanceTo hfresh h' fun hc => by cases hc
  · exact along_advanceTo hfresh h fun hc => by cases hc
  · exact ⟨h.interrupted, h⟩

theorem along_runLoop (hbytes : ∀ path bytes, input.archive.entries.get path = some bytes →
      bytes ∈ bodies) (fuel : Nat) (h : Holds workspaceId input rows₀ bodies operation s) :
    (runLoop input fuel operation).Along (importStep port workspaceId clock)
      (Interrupted workspaceId input rows₀ bodies)
      (Holds workspaceId input rows₀ bodies) s := by
  induction fuel generalizing operation s with
  | zero => exact h.interrupted
  | succ fuel ih =>
    rw [runLoop]
    split
    · exact ⟨h.interrupted, h⟩
    · apply Prog.Along.bind (along_runCheckpoint hfresh hbytes h)
      exact fun operation s' _ h' => ih h'

omit hfresh in
/-- Whether the columns take the operation does not depend on the time. -/
theorem operationRow_any_time {request : RequestIdentity} {startedAt : Instant}
    {new : ImportOperationRow}
    (h : operationRow workspaceId request (beginInput input startedAt) = some new)
    (startedAt' : Instant) :
    ∃ new', operationRow workspaceId request (beginInput input startedAt') = some new' := by
  have htime : operationRow workspaceId request (beginInput input startedAt') =
      (operationRow workspaceId request (beginInput input startedAt)).map fun row =>
        { row with createdAt := startedAt', updatedAt := startedAt' } := by
    simp only [operationRow, beginInput]
    cases textColumn input.archive.manifest.exportId with
    | none => rfl
    | some archiveExportId =>
      cases textColumn input.requestedBy with
      | none => rfl
      | some requestedBy =>
        cases textColumn request.idempotencyKey with
        | none => rfl
        | some idempotencyKey =>
          simp only [Option.bind_eq_bind, Option.bind_some]
          split <;> rfl
  exact ⟨_, by rw [htime, h]; rfl⟩

/-- The first `begin` of the operation. -/
theorem begin_first {startedAt : Instant} {rows : List ImportOperationRow}
    (hb : begin rows₀ workspaceId input.request (beginInput input startedAt) =
      .ok (operation, rows)) :
    ∃ row, Begun workspaceId input rows₀ rows row ∧ row.checkpoint = .authorised ∧
      operation.id = row.id ∧ operation.planId = row.planId ∧
      operation.checkpoint = row.checkpoint := by
  obtain ⟨hrows, row, hrow, hof, ⟨resumed, rfl⟩, request, hrequest, hsame, new, hnew⟩ :=
    begin_eq_ok hb
  have hold : row ∉ rows₀ := by
    intro hmem
    have hnot := hfresh row hmem
    rw [show ofPlan workspaceId input.plan.planId row = true from hof] at hnot
    cases hnot
  rcases hrows with rfl | ⟨row', rfl, hc, hid, -⟩
  · exact absurd hrow hold
  · have hlast : row = row' := by
      rcases List.mem_append.mp hrow with hmem | hnew'
      · exact absurd hmem hold
      · exact List.mem_singleton.mp hnew'
    subst hlast
    exact ⟨row, ⟨rfl, hof, hid, request, hrequest, fun t =>
      ⟨hsame, operationRow_any_time hnew t⟩⟩, hc, rfl, rfl, rfl⟩

/-- A later `begin` finds the operation as it is stored. -/
theorem begin_again {rows : List ImportOperationRow} {row : ImportOperationRow}
    (h : Begun workspaceId input rows₀ rows row) (startedAt : Instant) :
    begin rows workspaceId input.request (beginInput input startedAt) =
      .ok ({ mapOperation row with resumed := some true }, rows) := by
  obtain ⟨request, hrequest, hbegun⟩ := h.request
  obtain ⟨hsame, new, hnew⟩ := hbegun startedAt
  obtain ⟨-, -, hplanId, hworkspace⟩ := operationRow_eq_some hnew
  have hmem : row ∈ rows := by
    rw [h.rows]
    exact List.mem_append_right _ (List.mem_singleton_self row)
  have hinsert : insertOperation rows new = (rows, false) := by
    rw [insertOperation, if_pos]
    rw [List.any_eq_true]
    refine ⟨row, hmem, ?_⟩
    simp only [conflicts, hworkspace, hplanId, Bool.or_eq_true]
    exact Or.inl (Or.inr h.ofPlan)
  have hrequested : ofRequest workspaceId request.principalType input.requestedBy
      request.idempotencyKey row = true := by
    have hplan := h.ofPlan
    simp only [ofPlan, sameRequest, beginInput, Bool.and_eq_true, beq_iff_eq] at hplan hsame
    simp [ofRequest, hplan.1, hsame.1.1.1.2, hsame.1.1.2, hsame.1.2]
  have hselect : selectOperation rows workspaceId request (beginInput input startedAt) =
      some row := by
    have hothers : ∀ old ∈ rows₀, ¬ (ofPlan workspaceId input.plan.planId old &&
        ofRequest workspaceId request.principalType input.requestedBy request.idempotencyKey
          old) = true := by
      intro old hold
      rw [hfresh old hold]
      simp
    simp only [selectOperation, beginInput, h.rows]
    rw [List.find?_append, List.find?_eq_none.mpr hothers, Option.none_or,
      List.find?_cons_of_pos (by rw [h.ofPlan, hrequested]; rfl)]
    rfl
  rw [hrequest, begin.eq_def]
  simp only [hnew, hinsert, hselect, hsame]
  rfl

/-- Whatever an interrupted execution left, a `begin` that returns holds the
operation as it is stored. -/
theorem begin_holds {startedAt : Instant} {rows : List ImportOperationRow} {ticks : Nat}
    (h : Interrupted workspaceId input rows₀ bodies s)
    (hvalid : validateInput input.archive input.plan = .ok ())
    (hb : begin s.rows workspaceId input.request (beginInput input startedAt) =
      .ok (operation, rows)) :
    Holds workspaceId input rows₀ bodies operation { s with rows, ticks } := by
  obtain ⟨hsane, hrows | ⟨-, row, hbegun, hverified⟩⟩ := h
  · rw [hrows] at hb
    obtain ⟨row, hbegun, hc, hid, hplanId, hcheckpoint⟩ := begin_first hfresh hb
    exact ⟨hsane, hvalid, row, hbegun, hid, hplanId, hcheckpoint, fun h => by rw [hc] at h; cases h⟩
  · rw [begin_again hfresh hbegun, Except.ok.injEq, Prod.mk.injEq] at hb
    obtain ⟨rfl, rfl⟩ := hb
    exact ⟨hsane, hvalid, row, hbegun, rfl, rfl, rfl, hverified⟩

theorem along_execute (hbytes : ∀ path bytes, input.archive.entries.get path = some bytes →
      bytes ∈ bodies) (fuel : Nat) (hs : Interrupted workspaceId input rows₀ bodies s) :
    (execute fuel input).Along (importStep port workspaceId clock)
      (Interrupted workspaceId input rows₀ bodies) (fun _ _ => True) s := by
  have hvalidate : (unwrap (validateInput input.archive input.plan)).Along
      (importStep port workspaceId clock) (Interrupted workspaceId input rows₀ bodies)
      (fun _ s' => s' = s ∧ validateInput input.archive input.plan = .ok ()) s :=
    along_unwrap hs fun _ ha => ⟨rfl, ha⟩
  have hbegin : ∀ answer s', performAlone (postgresTarget port workspaceId) workspaceId clock
      (.begin input.request (beginInput input (clock s.ticks))) { s with ticks := s.ticks + 1 } =
        (answer, s') → validateInput input.archive input.plan = .ok () →
      Interrupted workspaceId input rows₀ bodies s' ∧ ∀ begun, answer = .ok begun →
        Holds workspaceId input rows₀ bodies begun s' := by
    intro answer s' hperform hvalid
    rw [performAlone] at hperform
    cases hb : begin s.rows workspaceId input.request (beginInput input (clock s.ticks)) with
    | error e =>
      rw [hb, Prod.mk.injEq] at hperform
      obtain ⟨rfl, rfl⟩ := hperform
      exact ⟨hs, fun begun ha => by cases ha⟩
    | ok result =>
      rw [hb, Prod.mk.injEq] at hperform
      obtain ⟨rfl, rfl⟩ := hperform
      have hholds : Holds workspaceId input rows₀ bodies result.1
          { s with rows := result.2, ticks := s.ticks + 1 } := begin_holds hfresh hs hvalid hb
      refine ⟨hholds.interrupted, ?_⟩
      rintro begun ⟨rfl⟩
      exact hholds
  rw [execute]
  apply Prog.Along.bind hvalidate
  rintro _ s' - ⟨rfl, hvalid⟩
  obtain ⟨hs', hanswer⟩ := hbegin _ _ rfl hvalid
  refine ⟨hs, hs, ?_⟩
  apply Prog.Along.bind (along_unwrap hs' hanswer)
  intro begun s₁ hs₁ h₁
  have hhook : (if begun.checkpoint = .authorised then afterCheckpoint .authorised begun
      else .pure () : ImportProg Unit).Along (importStep port workspaceId clock)
      (Interrupted workspaceId input rows₀ bodies)
      (fun _ => Holds workspaceId input rows₀ bodies begun) s₁ := by
    split
    · exact ⟨hs₁, hs₁, h₁⟩
    · exact ⟨hs₁, h₁⟩
  apply Prog.Along.bind hhook
  intro _ s₂ _ h₂
  apply Prog.Along.bind (along_runLoop hfresh hbytes fuel h₂)
  exact fun operation s₃ hs₃ _ => ⟨hs₃, trivial⟩

omit hfresh in
theorem begun_unique {rows : List ImportOperationRow} {row row' : ImportOperationRow}
    (hfresh : ∀ old ∈ rows₀, ofPlan workspaceId input.plan.planId old = false)
    (h : Begun workspaceId input rows₀ rows row) (hmem : row' ∈ rows)
    (hof : ofPlan workspaceId input.plan.planId row' = true) : row' = row := by
  rw [h.rows, List.mem_append, List.mem_singleton] at hmem
  rcases hmem with hold | hrow
  · rw [hfresh row' hold] at hof
    cases hof
  · exact hrow

end Executor

section Resume

variable {δ : Type} {port : MetadataPort δ} {workspaceId : JsString} {clock : Nat → Instant}
  {input : ExecuteInput} {rows₀ : List ImportOperationRow} {bodies : Set Bytes}
  {s : Alone (TargetState δ)} {operation : ArchiveImportOperation} {row : ImportOperationRow}

/-- The executor's copy of a stored operation. -/
structure Copies (operation : ArchiveImportOperation) (row : ImportOperationRow) : Prop where
  id : operation.id = row.id
  planId : operation.planId = row.planId
  checkpoint : operation.checkpoint = row.checkpoint

/-- The state after a won compare and swap. -/
def movedTo (clock : Nat → Instant) (rows₀ : List ImportOperationRow) (row : ImportOperationRow)
    (next : ArchiveImportCheckpoint) (s : Alone (TargetState δ)) : Alone (TargetState δ) :=
  { s with
    rows := rows₀ ++ [movedRow row next (clock s.ticks)]
    ticks := s.ticks + 1 }

theorem returns_advanceTo {Q : ArchiveImportOperation → Alone (TargetState δ) → Prop}
    {next : ArchiveImportCheckpoint}
    (hfresh : ∀ old ∈ rows₀, ofPlan workspaceId input.plan.planId old = false)
    {rows : List ImportOperationRow} (h : Begun workspaceId input rows₀ rows row)
    (hop : Copies operation row) (hnext : nextImportCheckpoint row.checkpoint = some next)
    (hrows : s.rows = rows) :
    (advanceTo operation next).Returns (importStep port workspaceId clock) s Q ↔
      Q (mapOperation (movedRow row next (clock s.ticks))) (movedTo clock rows₀ row next s) := by
  have hadvance : importStep port workspaceId clock
      (.advance { operationId := operation.id, planId := operation.planId,
                  expected := operation.checkpoint, next,
                  movedAt := (importStep port workspaceId clock .now s).1 })
      (importStep port workspaceId clock .now s).2 =
      (.ok (mapOperation (movedRow row next (clock s.ticks))), movedTo clock rows₀ row next s) := by
    have hmove := advance_begun hfresh h (clock s.ticks) hnext
    rw [← hrows] at hmove
    rw [hop.id, hop.planId, hop.checkpoint]
    simp only [performAlone, hmove]
    rfl
  rw [advanceTo, Prog.returns_bind, now, Prog.returns_perform, Prog.returns_bind,
    Prog.returns_perform, hadvance, Prog.returns_bind, returns_unwrap]
  simp only [Except.ok.injEq, exists_eq_left']
  rw [Prog.returns_bind, afterCheckpoint, Prog.returns_bind, Prog.returns_perform, returns_unwrap]
  simp [performAlone, Prog.returns_pure]

theorem returns_commitBlobs {Q : Unit → Alone (TargetState δ) → Prop} (operationId : JsString)
    (actions : List ArchiveImportAction) :
    (commitBlobs operationId actions).Returns (importStep port workspaceId clock) s Q ↔
      ∃ objects, commitAll workspaceId operationId (actions.map (·.sourceId)) s.target.objects =
          .ok objects ∧ Q () { s with target := { s.target with objects } } := by
  induction actions generalizing s with
  | nil => simp [commitBlobs, commitAll, Prog.returns_pure]
  | cons action rest ih =>
    rw [commitBlobs, Prog.returns_bind, returns_target, List.map_cons, commitAll]
    cases hcommit : commitBlob workspaceId s.target.objects operationId action.sourceId with
    | error e => simp [postgresTarget, hcommit, onObjects]
    | ok objects₁ =>
      simp only [postgresTarget, hcommit, onObjects, exists_const, true_and, ih]

theorem returns_commitMetadata {Q : Unit → Alone (TargetState δ) → Prop} (operationId : JsString)
    (plan : ArchiveImportPlan) (actions : List ArchiveImportAction) :
    (target (.commitMetadata operationId plan actions)).Returns (importStep port workspaceId clock) s
        Q ↔
      assertCommittedBlobs workspaceId s.target.objects actions = .ok () ∧
        ∃ metadata, port.commitMetadata operationId plan actions s.target.metadata = .ok metadata ∧
          Q () { s with target := { s.target with metadata } } := by
  rw [returns_target]
  cases ha : assertCommittedBlobs workspaceId s.target.objects actions with
  | error e => simp [postgresTarget, ha]
  | ok =>
    cases hm : port.commitMetadata operationId plan actions s.target.metadata with
    | error e => simp [postgresTarget, ha, hm, onMetadata]
    | ok metadata =>
      simp only [postgresTarget, ha, hm, onMetadata, true_and, Except.ok.injEq, exists_eq_left']
      exact ⟨fun ⟨_, hQ⟩ => hQ, fun hQ => ⟨(), hQ⟩⟩

theorem returns_appendAudit {Q : Unit → Alone (TargetState δ) → Prop}
    (operationId : JsString) (plan : ArchiveImportPlan) (requestedBy : JsString)
    (occurredAt : Instant) (lineage : AuditLineage) :
    (target (.appendAudit operationId plan requestedBy occurredAt lineage)).Returns
        (importStep port workspaceId clock) s Q ↔
      ∃ metadata, port.appendAudit operationId plan requestedBy occurredAt lineage
          s.target.metadata = .ok metadata ∧
        Q () { s with target := { s.target with metadata } } := by
  rw [returns_target]
  cases hm : port.appendAudit operationId plan requestedBy occurredAt lineage s.target.metadata with
  | error e => simp [postgresTarget, hm, onMetadata]
  | ok metadata =>
    simp only [postgresTarget, hm, onMetadata, true_and, Except.ok.injEq, exists_eq_left']
    exact ⟨fun ⟨_, hQ⟩ => hQ, fun hQ => ⟨(), hQ⟩⟩

variable (port workspaceId clock input) in
/-- The loop ends, whatever number of rounds it takes. -/
def Finishes (operation : ArchiveImportOperation) (s : Alone (TargetState δ)) : Prop :=
  ∃ fuel, (runLoop input fuel operation).Returns (importStep port workspaceId clock) s
    fun done _ => done.checkpoint = .completed

theorem finishes_step (hc : operation.checkpoint ≠ .completed) :
    Finishes port workspaceId clock input operation s ↔
      (runCheckpoint input operation).Returns (importStep port workspaceId clock) s
        (Finishes port workspaceId clock input) := by
  constructor
  · rintro ⟨fuel, hrun⟩
    cases fuel with
    | zero => exact absurd hrun Prog.not_returns_throw
    | succ fuel =>
      rw [runLoop, if_neg hc, Prog.returns_bind] at hrun
      obtain ⟨next, s', hround, hrest⟩ := hrun
      exact ⟨next, s', hround, fuel, hrest⟩
  · rintro ⟨next, s', hround, fuel, hrest⟩
    refine ⟨fuel + 1, ?_⟩
    rw [runLoop, if_neg hc, Prog.returns_bind]
    exact ⟨next, s', hround, hrest⟩

theorem finishes_completed (hc : operation.checkpoint = .completed) :
    Finishes port workspaceId clock input operation s := by
  refine ⟨1, ?_⟩
  rw [runLoop, if_pos hc, Prog.returns_pure]
  exact hc

theorem copies_mapOperation (row : ImportOperationRow) : Copies (mapOperation row) row :=
  ⟨rfl, rfl, rfl⟩

variable (port clock input) in
/-- The database takes the metadata of the plan and then its audit event. -/
def Accepts (operationId : JsString) (occurredAt : Instant) (metadata : δ) : Prop :=
  ∃ committed audited,
    port.commitMetadata operationId input.plan (metadataActions input.plan) metadata =
      .ok committed ∧
    port.appendAudit operationId input.plan input.requestedBy occurredAt
      input.archive.manifest.auditLineage committed = .ok audited

section Rounds

variable (hfresh : ∀ old ∈ rows₀, ofPlan workspaceId input.plan.planId old = false)
  (h : Begun workspaceId input rows₀ s.rows row) (hop : Copies operation row)

include hfresh h hop

theorem finishes_auditCommitted (hc : row.checkpoint = .auditCommitted) :
    Finishes port workspaceId clock input operation s := by
  have hoc := hop.checkpoint.trans hc
  rw [finishes_step (by rw [hoc]; decide), runCheckpoint]
  simp only [hoc]
  rw [returns_advanceTo hfresh h hop (by rw [hc]; rfl) rfl]
  exact finishes_completed rfl

theorem finishes_metadataCommitted (hc : row.checkpoint = .metadataCommitted) :
    Finishes port workspaceId clock input operation s ↔
      ∃ audited, port.appendAudit operation.id input.plan input.requestedBy (clock s.ticks)
        input.archive.manifest.auditLineage s.target.metadata = .ok audited := by
  have hoc := hop.checkpoint.trans hc
  rw [finishes_step (by rw [hoc]; decide), runCheckpoint]
  simp only [hoc]
  rw [Prog.returns_bind, now, Prog.returns_perform, Prog.returns_bind, returns_appendAudit]
  apply exists_congr
  intro audited
  constructor
  · exact fun haudit => haudit.1
  · intro haudit
    refine ⟨haudit, ?_⟩
    rw [returns_advanceTo hfresh h hop (by rw [hc]; rfl)]
    · exact finishes_auditCommitted hfresh (h.moved _ _) (copies_mapOperation _) rfl
    · rfl

theorem finishes_immutableBlobsCommitted (hc : row.checkpoint = .immutableBlobsCommitted) :
    Finishes port workspaceId clock input operation s ↔
      assertCommittedBlobs workspaceId s.target.objects (metadataActions input.plan) = .ok () ∧
        Accepts port input operation.id (clock (s.ticks + 1)) s.target.metadata := by
  have hoc := hop.checkpoint.trans hc
  rw [finishes_step (by rw [hoc]; decide), runCheckpoint]
  simp only [hoc]
  rw [Prog.returns_bind, returns_commitMetadata]
  apply and_congr_right'
  rw [Accepts]
  apply exists_congr
  intro committed
  rw [exists_and_left]
  apply and_congr_right'
  rw [returns_advanceTo hfresh h hop (by rw [hc]; rfl)]
  · rw [finishes_metadataCommitted hfresh (h.moved _ _) (copies_mapOperation _) rfl]
    simp only [mapOperation, movedRow, movedTo, hop.id]
  · rfl

theorem finishes_stagedBlobsVerified (hc : row.checkpoint = .stagedBlobsVerified) :
    Finishes port workspaceId clock input operation s ↔
      (∃ objects, commitAll workspaceId operation.id (blobDigests input.plan) s.target.objects =
          .ok objects ∧
        assertCommittedBlobs workspaceId objects (metadataActions input.plan) = .ok ()) ∧
      Accepts port input operation.id (clock (s.ticks + 2)) s.target.metadata := by
  have hoc := hop.checkpoint.trans hc
  rw [finishes_step (by rw [hoc]; decide), runCheckpoint]
  simp only [hoc]
  rw [Prog.returns_bind, returns_commitBlobs, ← exists_and_right]
  apply exists_congr
  intro objects
  rw [and_assoc]
  apply and_congr_right'
  rw [returns_advanceTo hfresh h hop (by rw [hc]; rfl)]
  · rw [finishes_immutableBlobsCommitted hfresh (h.moved _ _) (copies_mapOperation _) rfl]
    simp only [mapOperation, movedRow, movedTo, hop.id]
  · rfl

end Rounds

theorem assertCommittedBlobs_iff {objects : Objects} {actions : List ArchiveImportAction} :
    assertCommittedBlobs workspaceId objects actions = .ok () ↔
      ∀ a ∈ actions, a.kind = .record .blobs → a.disposition = .insert →
        ∃ digest key, field (a.record.getD []) (js "sha256") = .string digest ∧
          canonicalObjectKey workspaceId digest = some key ∧ (objects key).isSome = true := by
  induction actions with
  | nil => simp [assertCommittedBlobs]
  | cons action rest ih =>
    rw [assertCommittedBlobs, List.forall_mem_cons, ← ih]
    split
    · rename_i hskip
      rw [iff_and_self]
      intro _ hk hd
      exact absurd (And.intro hk hd) (not_and_or.mpr hskip)
    · rename_i hinsert
      rw [not_or, not_not, not_not] at hinsert
      simp only [hinsert, forall_const]
      split
      · rename_i u digest hfield
        simp only [hfield, JsValue.string.injEq, exists_eq_left', exists_and_left]
        split
        · rename_i hkey
          simp [hkey]
        · rename_i key hkey
          split
          · rename_i o ho
            simp [hkey, ho]
          · rename_i ho
            simp [hkey, ho]
      · rename_i hnot
        rw [iff_false_left (by simp)]
        rintro ⟨⟨digest, key, hfield, hkey, -⟩, -⟩
        cases digest with
        | nil =>
          rw [canonicalObjectKey, show isSha256 [] = false from rfl, Bool.and_false] at hkey
          cases hkey
        | cons u digest => exact hnot u digest hfield

variable (port workspaceId clock input) in
/-- What the next execution needs of the state it finds: the temporary object of
every blob to insert is still there, no blob is inserted twice, the blob records to
insert have their bytes in the plan or in the storage, and the database takes the
rows. -/
structure Resumable (s : Alone (TargetState δ)) : Prop where
  distinct : (blobDigests input.plan).Nodup
  staged : ∀ digest ∈ blobDigests input.plan,
    Staged workspaceId s.target.objects (operationIdOf workspaceId input.plan.planId) digest
  stored : ∀ a ∈ metadataActions input.plan, a.kind = .record .blobs →
    ∃ digest key, field (a.record.getD []) (js "sha256") = .string digest ∧
      canonicalObjectKey workspaceId digest = some key ∧
      (digest ∈ blobDigests input.plan ∨ (s.target.objects key).isSome = true)
  accepted : Accepts port input (operationIdOf workspaceId input.plan.planId)
    (clock (s.ticks + 3)) s.target.metadata

/-- The commits of the step followed by the check of the blob records. -/
theorem commits_iff {objects : Objects} {operationId : JsString} (hcoll : CollisionFree bodies)
    (hsane : Sane workspaceId bodies objects)
    (hright : StagedRight workspaceId objects operationId (blobDigests input.plan))
    (hdigest : ∀ digest ∈ blobDigests input.plan, isSha256 digest = true) :
    (∃ objects', commitAll workspaceId operationId (blobDigests input.plan) objects = .ok objects' ∧
        assertCommittedBlobs workspaceId objects' (metadataActions input.plan) = .ok ()) ↔
      (blobDigests input.plan).Nodup ∧
        (∀ digest ∈ blobDigests input.plan, Staged workspaceId objects operationId digest) ∧
        ∀ a ∈ metadataActions input.plan, a.kind = .record .blobs →
          ∃ digest key, field (a.record.getD []) (js "sha256") = .string digest ∧
            canonicalObjectKey workspaceId digest = some key ∧
            (digest ∈ blobDigests input.plan ∨ (objects key).isSome = true) := by
  have hinsert : ∀ a ∈ metadataActions input.plan, a.disposition = .insert := by
    intro a ha
    rw [metadataActions, List.mem_filter, Bool.and_eq_true] at ha
    exact beq_iff_eq.mp ha.2.2
  constructor
  · rintro ⟨objects', hcommit, hassert⟩
    obtain ⟨hnodup, hstaged⟩ := commitAll_needs hcommit
    refine ⟨hnodup, hstaged, ?_⟩
    intro a ha hk
    obtain ⟨digest, key, hfield, hkey, hsome⟩ :=
      assertCommittedBlobs_iff.mp hassert a ha hk (hinsert a ha)
    exact ⟨digest, key, hfield, hkey, (commitAll_present hcommit hkey).mp hsome⟩
  · rintro ⟨hnodup, hstaged, hstored⟩
    obtain ⟨objects', hcommit⟩ := commitAll_ok hcoll hsane hnodup hright hdigest hstaged
    refine ⟨objects', hcommit, assertCommittedBlobs_iff.mpr ?_⟩
    intro a ha hk _
    obtain ⟨digest, key, hfield, hkey, hsome⟩ := hstored a ha hk
    exact ⟨digest, key, hfield, hkey, (commitAll_present hcommit hkey).mpr hsome⟩

/-- The next execution begins where the stored operation is. -/
theorem execute_iff_finishes (hvalid : validateInput input.archive input.plan = .ok ())
    (hfresh : ∀ old ∈ rows₀, ofPlan workspaceId input.plan.planId old = false)
    (h : Begun workspaceId input rows₀ s.rows row) (hc : row.checkpoint ≠ .authorised) :
    (∃ fuel, (execute fuel input).Returns (importStep port workspaceId clock) s
      fun result _ => result.operation.checkpoint = .completed) ↔
      Finishes port workspaceId clock input { mapOperation row with resumed := some true }
        { s with ticks := s.ticks + 1 } := by
  have hbegin : importStep port workspaceId clock
      (.begin input.request (beginInput input (importStep port workspaceId clock .now s).1))
      (importStep port workspaceId clock .now s).2 =
      (.ok { mapOperation row with resumed := some true }, { s with ticks := s.ticks + 1 }) := by
    have hagain := begin_again hfresh h (clock s.ticks)
    simp only [performAlone, hagain]
  apply exists_congr
  intro fuel
  rw [execute, Prog.returns_bind, returns_unwrap]
  simp only [hvalid, exists_const, true_and]
  rw [Prog.returns_bind, now, Prog.returns_perform, Prog.returns_bind, Prog.returns_perform]
  rw [beginInput] at hbegin
  rw [hbegin, Prog.returns_bind, returns_unwrap]
  simp only [Except.ok.injEq, exists_eq_left']
  rw [if_neg (show ¬ (mapOperation row).checkpoint = .authorised from hc), Prog.returns_bind,
    Prog.returns_pure, Prog.returns_bind]
  simp only [Prog.returns_pure]

variable (port workspaceId clock input) in
/-- The state after a list of executions, each given its rounds and stopped after
some number of statements. -/
def afterAttempts (attempts : List (Nat × Nat)) (s : Alone (TargetState δ)) :
    Alone (TargetState δ) :=
  attempts.foldl (fun s attempt =>
    (execute attempt.1 input).runFor (importStep port workspaceId clock) attempt.2 s) s

theorem afterAttempts_interrupted
    (hfresh : ∀ old ∈ rows₀, ofPlan workspaceId input.plan.planId old = false)
    (hbytes : ∀ path bytes, input.archive.entries.get path = some bytes → bytes ∈ bodies)
    (attempts : List (Nat × Nat)) (h : Interrupted workspaceId input rows₀ bodies s) :
    Interrupted workspaceId input rows₀ bodies
      (afterAttempts port workspaceId clock input attempts s) := by
  induction attempts generalizing s with
  | nil => exact h
  | cons attempt rest ih => exact ih ((along_execute hfresh hbytes attempt.1 h).runFor attempt.2)

/-- The next execution of an operation that stands before its immutable commit. -/
theorem completes_iff_resumable (hcoll : CollisionFree bodies)
    (hfresh : ∀ old ∈ rows₀, ofPlan workspaceId input.plan.planId old = false)
    (hinterrupted : Interrupted workspaceId input rows₀ bodies s)
    (hstopped : ∃ row ∈ s.rows, ofPlan workspaceId input.plan.planId row = true ∧
      row.checkpoint = .stagedBlobsVerified) :
    (∃ fuel, (execute fuel input).Returns (importStep port workspaceId clock) s
        fun result _ => result.operation.checkpoint = .completed) ↔
      Resumable port workspaceId clock input s := by
  obtain ⟨row, hmem, hof, hc⟩ := hstopped
  obtain ⟨hsane, hrows | ⟨hvalid, row', hbegun, hverified⟩⟩ := hinterrupted
  · rw [hrows] at hmem
    rw [hfresh row hmem] at hof
    cases hof
  obtain rfl := begun_unique hfresh hbegun hmem hof
  obtain ⟨hright, hdigest⟩ := hverified hc
  have hbegun' : Begun workspaceId input rows₀ { s with ticks := s.ticks + 1 }.rows row := hbegun
  rw [execute_iff_finishes hvalid hfresh hbegun (by rw [hc]; decide),
    finishes_stagedBlobsVerified hfresh hbegun' ⟨rfl, rfl, rfl⟩ hc,
    show (mapOperation row).id = _ from hbegun.id, commits_iff hcoll hsane hright hdigest]
  constructor
  · rintro ⟨⟨hnodup, hstaged, hstored⟩, haccepted⟩
    exact ⟨hnodup, hstaged, hstored, haccepted⟩
  · rintro ⟨hnodup, hstaged, hstored, haccepted⟩
    exact ⟨⟨hnodup, hstaged, hstored⟩, haccepted⟩

/-- After any number of executions that were stopped anywhere, with the staged blobs
verified and the immutable commit not recorded: the next execution completes the
operation exactly when the state is resumable. -/
theorem execute_completes_iff_resumable (port : MetadataPort δ) (workspaceId : JsString)
    (clock : Nat → Instant) (input : ExecuteInput) (s₀ : Alone (TargetState δ))
    (hfresh : ∀ old ∈ s₀.rows, ofPlan workspaceId input.plan.planId old = false)
    (hsane : Sane workspaceId bodies s₀.target.objects)
    (hbytes : ∀ path bytes, input.archive.entries.get path = some bytes → bytes ∈ bodies)
    (hcoll : CollisionFree bodies) (attempts : List (Nat × Nat))
    (hstopped : ∃ row ∈ (afterAttempts port workspaceId clock input attempts s₀).rows,
      ofPlan workspaceId input.plan.planId row = true ∧ row.checkpoint = .stagedBlobsVerified) :
    (∃ fuel, (execute fuel input).Returns (importStep port workspaceId clock)
        (afterAttempts port workspaceId clock input attempts s₀)
        fun result _ => result.operation.checkpoint = .completed) ↔
      Resumable port workspaceId clock input
        (afterAttempts port workspaceId clock input attempts s₀) := by
  exact completes_iff_resumable hcoll hfresh
    (afterAttempts_interrupted hfresh hbytes attempts ⟨hsane, Or.inl rfl⟩) hstopped

/-- In a plan made for a verified archive, the blob records have their bytes in the
plan unless the catalog of the target has them. -/
theorem stored_of_planned {localeLe : JsString → JsString → Bool} {request : ArchiveImportRequest}
    {plan : ArchiveImportPlan} {objects : Objects}
    (h : planArchiveImport localeLe request = some plan) (hr : plan.status = .ready)
    (hsafe : isSafeId workspaceId = true)
    (hblobs : ∀ r ∈ request.archive.verification.records .blobs,
      ∃ digest, field r (js "sha256") = .string digest ∧ isSha256 digest = true)
    (hcatalog : ∀ digest ∈ request.target.blobDigests, ∀ key,
      canonicalObjectKey workspaceId digest = some key → (objects key).isSome = true) :
    ∀ a ∈ metadataActions plan, a.kind = .record .blobs →
      ∃ digest key, field (a.record.getD []) (js "sha256") = .string digest ∧
        canonicalObjectKey workspaceId digest = some key ∧
        (digest ∈ blobDigests plan ∨ (objects key).isSome = true) := by
  intro a ha hk
  obtain ⟨r, hmem, hrecord⟩ :=
    ImportReferences.action_record h hr (List.mem_of_mem_filter ha) hk
  obtain ⟨r₀, hr₀, rfl⟩ := ImportReferences.mem_transformed.mp hmem
  obtain ⟨digest, hfield, hdigest⟩ := hblobs r₀ hr₀
  have hsha : field (ImportReferences.rewritten request .blobs r₀) (js "sha256") =
      .string digest := ImportReferences.blob_sha256.trans hfield
  have hkey : canonicalObjectKey workspaceId digest = some (workspaceRoot workspaceId ++
      js "objects/" ++ digest.take 2 ++ js "/" ++ digest) := by
    rw [canonicalObjectKey, hsafe, hdigest]
    rfl
  refine ⟨digest, _, by rw [hrecord]; exact hsha, hkey, ?_⟩
  obtain ⟨b, hb, hbytes, hsource, hdisposition⟩ :=
    ImportReferences.exists_bytes_action h hr hmem hsha
  by_cases hc : digest ∈ request.target.blobDigests
  · exact Or.inr (hcatalog digest hc _ hkey)
  · left
    rw [if_neg hc] at hdisposition
    refine List.mem_map.mpr ⟨b, List.mem_filter.mpr ⟨hb, ?_⟩, hsource⟩
    rw [hbytes, hdisposition]
    rfl

end Resume

/-- A database that takes everything. -/
def acceptingPort : MetadataPort Unit where
  revalidate _ _ := []
  commitMetadata _ _ _ _ := .ok ()
  appendAudit _ _ _ _ _ _ := .ok ()

def nothingStored : Alone (TargetState Unit) := ⟨[], ⟨fun _ => none, ()⟩, 0⟩

def stoppedAfter (n : Nat) : Alone (TargetState Unit) :=
  afterAttempts acceptingPort (js "w") epoch oneBlobInput [(8, n)] nothingStored

/-- Whether the one blob is staged. -/
def isStaged (s : Alone (TargetState Unit)) : Bool :=
  (temporaryKey (js "w") (operationIdOf (js "w") oneBlobPlan.planId) noBytesDigest).any
    fun key => (s.target.objects key).isSome

def isVerified (s : Alone (TargetState Unit)) : Bool :=
  s.rows.any fun row => ofPlan (js "w") oneBlobPlan.planId row &&
    row.checkpoint == .stagedBlobsVerified

/-- Stopped before the commit of the blob, and stopped after it. -/
theorem oneBlob_stopped :
    (isVerified (stoppedAfter 18) = true ∧ isStaged (stoppedAfter 18) = true) ∧
      isVerified (stoppedAfter 20) = true ∧ isStaged (stoppedAfter 20) = false := by
  decide +kernel

theorem oneBlob_planned :
    planArchiveImport unitsLe oneBlobRequest = some oneBlobPlan ∧ oneBlobPlan.status = .ready := by
  have hready : (planArchiveImport unitsLe oneBlobRequest).map (·.status) = some .ready := by
    decide +kernel
  obtain ⟨plan, h, hr⟩ := Option.map_eq_some_iff.mp hready
  rw [oneBlobPlan, h]
  exact ⟨rfl, hr⟩

theorem oneBlob_digests : blobDigests oneBlobPlan = [noBytesDigest] := by
  decide +kernel

theorem oneBlob_sane : Sane (js "w") {[]} nothingStored.target.objects where
  addressed := by simp [nothingStored]
  body := by simp [nothingStored]

theorem oneBlob_bytes (path : JsString) (bytes : Bytes)
    (h : oneBlobInput.archive.entries.get path = some bytes) : bytes ∈ ({[]} : Set Bytes) := by
  rw [EntryMap.get, show oneBlobInput.archive.entries.entries =
    [(js "blobs/e3/" ++ noBytesDigest, [])] from rfl, List.lookup_cons] at h
  split at h
  · cases h
    rfl
  · cases h

theorem exists_verified {s : Alone (TargetState Unit)} (h : isVerified s = true) :
    ∃ row ∈ s.rows, ofPlan (js "w") oneBlobInput.plan.planId row = true ∧
      row.checkpoint = .stagedBlobsVerified := by
  obtain ⟨row, hmem, hrow⟩ := List.any_eq_true.mp h
  rw [Bool.and_eq_true] at hrow
  exact ⟨row, hmem, hrow.1, beq_iff_eq.mp hrow.2⟩

theorem staged_iff_isStaged (s : Alone (TargetState Unit)) :
    (∀ digest ∈ blobDigests oneBlobPlan, Staged (js "w") s.target.objects
      (operationIdOf (js "w") oneBlobPlan.planId) digest) ↔ isStaged s = true := by
  rw [oneBlob_digests, List.forall_mem_singleton, Staged, isStaged]
  cases temporaryKey (js "w") (operationIdOf (js "w") oneBlobPlan.planId) noBytesDigest with
  | none => simp
  | some key => simp

/-- Stopped before the commit, the operation is completed. -/
theorem execute_completes_before_commit :
    ∃ fuel, (execute fuel oneBlobInput).Returns (importStep acceptingPort (js "w") epoch)
      (stoppedAfter 18) fun result _ => result.operation.checkpoint = .completed := by
  have hresumable : Resumable acceptingPort (js "w") epoch oneBlobInput (stoppedAfter 18) := by
    constructor
    · rw [show blobDigests oneBlobInput.plan = _ from oneBlob_digests]
      exact List.nodup_singleton _
    · exact (staged_iff_isStaged _).mpr oneBlob_stopped.1.2
    · refine stored_of_planned oneBlob_planned.1 oneBlob_planned.2 (by decide) ?_ (by
        simp [oneBlobRequest])
      intro r hr
      rw [List.mem_singleton.mp hr]
      exact ⟨noBytesDigest, rfl, by decide⟩
    · exact ⟨(), (), rfl, rfl⟩
  exact (execute_completes_iff_resumable acceptingPort (js "w") epoch oneBlobInput nothingStored
    (fun _ h => by cases h) oneBlob_sane oneBlob_bytes (Set.injOn_singleton _ _) [(8, 18)]
    (exists_verified oneBlob_stopped.1.1)).mpr hresumable

/-- Stopped after the commit of its only blob, a ready plan is never completed. -/
theorem stopped_commit_never_completes :
    planArchiveImport unitsLe oneBlobRequest = some oneBlobInput.plan ∧
      oneBlobInput.plan.status = .ready ∧ oneBlobInput.archive = oneBlobRequest.archive ∧
      (∃ row ∈ (stoppedAfter 20).rows, ofPlan (js "w") oneBlobInput.plan.planId row = true ∧
        row.checkpoint = .stagedBlobsVerified) ∧
      ∀ fuel, ¬ (execute fuel oneBlobInput).Returns (importStep acceptingPort (js "w") epoch)
        (stoppedAfter 20) fun result _ => result.operation.checkpoint = .completed := by
  have hverified := exists_verified oneBlob_stopped.2.1
  refine ⟨oneBlob_planned.1, oneBlob_planned.2, rfl, hverified, ?_⟩
  rw [← not_exists]
  intro hcompletes
  have hfresh : ∀ old ∈ nothingStored.rows,
      ofPlan (js "w") oneBlobInput.plan.planId old = false := fun _ h => by cases h
  have hresumable := (completes_iff_resumable (Set.injOn_singleton _ _) hfresh
    (afterAttempts_interrupted hfresh oneBlob_bytes _ ⟨oneBlob_sane, Or.inl rfl⟩)
    hverified).mp hcompletes
  have hstaged : isStaged (stoppedAfter 20) = true :=
    (staged_iff_isStaged _).mp hresumable.staged
  rw [oneBlob_stopped.2.2] at hstaged
  cases hstaged

end TrustCore.ImportExecutor
