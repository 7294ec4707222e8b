import TrustCore.Multipart
import TrustCore.Programs

/-!
# Objects in memory

`MemoryObjectStorage` with its multipart uploads, as a machine: a method runs up to the place
where it reads its body, other methods may run in between, and then it runs to its end. All
writes go to one map of objects; a canonical key is written by `commitImmutable` alone.
-/

namespace TrustCore.MemoryStorage

open TrustCore.Utf TrustCore.Dynamic TrustCore.Sha256 TrustCore.ObjectStorage
open TrustCore.Multipart TrustCore.Programs TrustCore.Runs

/-! ## A commit, statement by statement -/

inductive MapStatement where
  | get (key : JsString)
  | set (key : JsString) (o : StoredBytes)
  | delete (key : JsString)

def MapStatement.Result : MapStatement → Type
  | .get _ => Option StoredBytes
  | _ => Unit

def MapStatement.exec : (statement : MapStatement) → Objects → statement.Result × Objects
  | .get key, objects => (objects key, objects)
  | .set key o, objects => ((), objects.set key o)
  | .delete key, objects => ((), objects.delete key)

abbrev MapProg := Prog MapStatement MapStatement.Result StorageError

structure CommitInput where
  temporary : JsString
  workspaceId : JsString
  digest : JsString
  byteLength : Nat
  mediaType : JsString

/-- `commitImmutable` up to its first read of the map. -/
def commitStatements (input : CommitInput) : MapProg ObjectMetadata :=
  if !isTemporaryKey input.temporary then .throw notTemporary
  else if (trim input.mediaType).isEmpty then .throw (invalidRequest "Invalid object media type")
  else
    match canonicalObjectKey input.workspaceId input.digest with
    | none => .throw ⟨none, canonicalKeyMessage input.workspaceId⟩
    | some key =>
      .stmt (.get input.temporary) fun temporary =>
        match temporary with
        | none => .stmt (.get key) fun existing =>
            match existing with
            | none => .throw ⟨some "not_found",
                js "Temporary object was not found for immutable commit"⟩
            | some existing =>
              if existing.digest = input.digest ∧ existing.body.length = input.byteLength then
                .pure (existing.metadata key)
              else .throw ⟨some "not_found",
                js "Temporary object was not found for immutable commit"⟩
        | some temporary =>
          if temporary.digest ≠ input.digest ∨ temporary.body.length ≠ input.byteLength ∨
              temporary.mediaType ≠ input.mediaType then
            .throw (invalidRequest
              "Temporary object does not match the immutable commit declaration")
          else .stmt (.get key) fun existing =>
            match existing with
            | some existing =>
              if existing.digest ≠ input.digest ∨ existing.body.length ≠ input.byteLength then
                .throw (conflict
                  "Canonical object conflicts with the immutable commit declaration")
              else .stmt (.delete input.temporary) fun _ => .pure (existing.metadata key)
            | none => .stmt (.set key temporary) fun _ =>
                .stmt (.delete input.temporary) fun _ => .pure (temporary.metadata key)

/-- The statements compute what the function of the contract says, and an error comes
before any of them has written. -/
theorem run_commitStatements (input : CommitInput) (objects : Objects) :
    (commitStatements input).run MapStatement.exec objects =
      match commitImmutable objects input.temporary input.workspaceId input.digest input.byteLength
        input.mediaType with
      | .ok (metadata, objects') => (.ok metadata, objects')
      | .error e => (.error e, objects) := by
  rw [commitStatements, commitImmutable]
  split
  · rfl
  · split
    · next htype =>
      rw [if_pos (by simpa using htype)]
      rfl
    · next htype =>
      rw [if_neg (by simpa using htype)]
      cases canonicalObjectKey input.workspaceId input.digest with
      | none => rfl
      | some key =>
        dsimp only
        rw [Prog.run]
        cases htemporary : objects input.temporary with
        | none =>
          simp only [MapStatement.exec, htemporary]
          rw [Prog.run]
          cases hexisting : objects key with
          | none => simp only [MapStatement.exec, hexisting, Prog.run]
          | some existing =>
            simp only [MapStatement.exec, hexisting]
            split <;> rfl
        | some temporary =>
          simp only [MapStatement.exec, htemporary]
          split
          · rfl
          · rw [Prog.run]
            cases hexisting : objects key with
            | none => simp only [MapStatement.exec, hexisting, Prog.run]
            | some existing =>
              simp only [MapStatement.exec, hexisting]
              split <;> rfl

/-! ## The methods -/

/-- An upload with the bodies of its parts; its key and media type were checked at its start. -/
structure MemoryUpload where
  session : UploadSession
  partBodies : Nat → Option Bytes
  temporary : isTemporaryKey session.key = true
  media : trim session.mediaType ≠ []

def MemoryUpload.recordPart (upload : MemoryUpload) (part : UploadedPart) (body : Bytes) :
    MemoryUpload where
  session := upload.session.recordPart part
  partBodies := Function.update upload.partBodies part.partNumber (some body)
  temporary := upload.temporary
  media := upload.media

def MemoryUpload.complete (upload : MemoryUpload) (ordered : List UploadedPart) : MemoryUpload where
  session := upload.session.complete ordered
  partBodies := upload.partBodies
  temporary := upload.temporary
  media := upload.media

def MemoryUpload.abort (upload : MemoryUpload) : MemoryUpload where
  session := upload.session.abort
  partBodies := fun _ => none
  temporary := upload.temporary
  media := upload.media

/-- The object of the bytes of all parts. -/
def MemoryUpload.assemble (upload : MemoryUpload) (body : Bytes) : StoredBytes :=
  .written body upload.session.mediaType upload.media

/-- A `writeTemporary` that has passed its checks and reads its body. -/
structure WriteCall where
  key : JsString
  mediaType : JsString
  temporary : isTemporaryKey key = true
  media : trim mediaType ≠ []

def WriteCall.object (call : WriteCall) (body : Bytes) : StoredBytes :=
  .written body call.mediaType call.media

structure Storage where
  objects : Objects
  multipart : JsString → Option MemoryUpload

def Storage.empty : Storage := ⟨fun _ => none, fun _ => none⟩

namespace Storage

def setUpload (s : Storage) (uploadId : JsString) (upload : MemoryUpload) : Storage :=
  { s with multipart := Function.update s.multipart uploadId (some upload) }

/-- `writeTemporary` before its body is read. -/
def startWrite (key mediaType : JsString) : Except StorageError WriteCall :=
  if hkey : isTemporaryKey key = true then
    if htype : trim mediaType = [] then .error (invalidRequest "Invalid object media type")
    else .ok ⟨key, mediaType, hkey, htype⟩
  else .error notTemporary

/-- `writeTemporary` after its body has been read. -/
def finishWrite (s : Storage) (call : WriteCall) (body : Bytes) : ObjectMetadata × Storage :=
  ((call.object body).metadata call.key,
    { s with objects := s.objects.set call.key (call.object body) })

theorem objects_finishWrite (s : Storage) (call : WriteCall) (body : Bytes) :
    (s.finishWrite call body).2.objects = s.objects.set call.key (call.object body) := rfl

def commitImmutable (s : Storage) (input : CommitInput) :
    Except StorageError ObjectMetadata × Storage :=
  let outcome := (commitStatements input).run MapStatement.exec s.objects
  (outcome.1, { s with objects := outcome.2 })

def deleteTemporary (s : Storage) (key : JsString) : Except StorageError Unit × Storage :=
  if !isTemporaryKey key then (.error notTemporary, s)
  else (.ok (), { s with objects := s.objects.delete key })

/-- The texts that a new session takes from its surroundings. -/
structure SessionDraw where
  providerUploadRef : JsString
  createdAt : JsString
  defaultExpiry : JsString

def initiateMultipartUpload (relaxMultipartLimits : Bool) (draw : SessionDraw)
    (input : InitiateInput) (s : Storage) : Except StorageError UploadSession × Storage :=
  match h : checkInitiate (if relaxMultipartLimits then 1 else minPartSize) input with
  | .error e => (.error e, s)
  | .ok () =>
    match s.multipart input.uploadId with
    | some existing => (checkPlan existing.session input, s)
    | none =>
      let upload : MemoryUpload :=
        { session := newSession input draw.providerUploadRef draw.createdAt draw.defaultExpiry
          partBodies := fun _ => none
          temporary := (checkInitiate_eq_ok h).1
          media := (checkInitiate_eq_ok h).2 }
      (.ok upload.session, s.setUpload input.uploadId upload)

def requireMultipart (s : Storage) (target : UploadTarget) : Except StorageError MemoryUpload :=
  match s.multipart target.uploadId with
  | none => .error ⟨some "not_found", js "Multipart upload was not found"⟩
  | some upload =>
    if upload.session.isTarget target then .ok upload
    else .error (conflict "Multipart upload reference mismatch")

/-- `uploadMultipartPart` before its body is read. -/
def startPart (s : Storage) (input : PartInput) : Except StorageError Unit := do
  let upload ← s.requireMultipart input.toUploadTarget
  checkUploading upload.session
  checkPartNumber input.partNumber

section Parts

-- `md5` may be any digest.
variable (md5 : Bytes → JsString)

def partOf (input : PartInput) (body : Bytes) : UploadedPart :=
  ⟨input.partNumber, js "\"" ++ md5 body ++ js "\"", body.length⟩

/-- `uploadMultipartPart` after its body has been read. The upload is that of the start,
since the map of the uploads forgets none of them. -/
def finishPart (s : Storage) (input : PartInput) (body : Bytes) :
    Except StorageError UploadedPart × Storage :=
  match s.multipart input.uploadId with
  | none => (.error ⟨some "not_found", js "Multipart upload was not found"⟩, s)
  | some upload =>
    if body.length ≠ input.size then
      (.error (invalidRequest "Multipart part size does not match declared size"), s)
    else if maxPartSize < body.length then
      (.error (invalidRequest "Multipart part exceeds max size"), s)
    else
      match upload.session.findPart input.partNumber with
      | some existing =>
        if existing.etag ≠ (partOf md5 input body).etag ∨ existing.size ≠ body.length then
          (.error (conflict "Duplicate multipart part number with inconsistent checksum"), s)
        else (.ok existing, s)
      | none =>
        (.ok (partOf md5 input body),
          s.setUpload input.uploadId (upload.recordPart (partOf md5 input body) body))

end Parts

def partBody (upload : MemoryUpload) (part : UploadedPart) : Except StorageError Bytes :=
  match upload.partBodies part.partNumber with
  | some body => .ok body
  | none => .error ⟨some "invalid_request",
      js "Missing multipart part " ++ js (toString part.partNumber)⟩

/-- The answer for an upload that was completed before. -/
def completedObject (s : Storage) (input : CompleteInput) : Except StorageError ObjectMetadata := do
  let object ← require s.objects input.key
  if object.digest ≠ input.expectedSha256 ∨ object.body.length ≠ input.expectedByteLength then
    .error (conflict "Completed multipart object does not match declaration")
  else .ok (object.metadata input.key)

/-- The bytes of the declared parts, checked against the declaration. -/
def assembledBody (upload : MemoryUpload) (input : CompleteInput) : Except StorageError Bytes := do
  reconcileParts upload.session.parts input.parts
  let buffers ← (orderedParts input.parts).mapM (partBody upload)
  if buffers.flatten.length ≠ input.expectedByteLength ∨
      sha256 buffers.flatten ≠ input.expectedSha256 then
    .error (invalidRequest "Multipart assembly does not match expected size or checksum")
  else .ok buffers.flatten

def completeMultipartUpload (s : Storage) (input : CompleteInput) :
    Except StorageError ObjectMetadata × Storage :=
  match s.requireMultipart input.toUploadTarget with
  | .error e => (.error e, s)
  | .ok upload =>
    if upload.session.status = .aborted then
      (.error (invalidRequest "Cannot complete an aborted multipart upload"), s)
    else if upload.session.status = .completed then (s.completedObject input, s)
    else
      match assembledBody upload input with
      | .error e => (.error e, s)
      | .ok body =>
        let object := upload.assemble body
        let stored : Storage := { s with objects := s.objects.set input.key object }
        (.ok (object.metadata input.key),
          stored.setUpload input.uploadId (upload.complete (orderedParts input.parts)))

def abortMultipartUpload (s : Storage) (target : UploadTarget) :
    Except StorageError Unit × Storage :=
  match s.multipart target.uploadId with
  | none => (.ok (), s)
  | some existing =>
    if !existing.session.isTarget target then
      (.error (conflict "Multipart abort target mismatch"), s)
    else (.ok (), s.setUpload target.uploadId existing.abort)

end Storage

/-! ## Runs -/

inductive Suspended where
  | write (call : WriteCall)
  | part (input : PartInput)

/-- The storage with the calls that wait for their bodies. -/
structure RunState where
  storage : Storage
  suspended : List Suspended

inductive MemoryEvent where
  | startWrite (call : WriteCall)
  | finishWrite (call : WriteCall) (body : Bytes)
  | commit (input : CommitInput)
  | deleteTemporary (key : JsString)
  | initiate (draw : Storage.SessionDraw) (input : InitiateInput)
  | startPart (input : PartInput)
  | finishPart (input : PartInput) (body : Bytes)
  | complete (input : CompleteInput)
  | abort (target : UploadTarget)
  | bodyFails (call : Suspended)

section Machine

variable (relaxMultipartLimits : Bool) (md5 : Bytes → JsString)

/-- One method, or one half of a method that reads a body. -/
inductive Step (r : RunState) : MemoryEvent → RunState → Prop
  | startWrite (key mediaType : JsString) (call : WriteCall)
      (h : Storage.startWrite key mediaType = .ok call) :
      Step r (.startWrite call) { r with suspended := .write call :: r.suspended }
  | finishWrite (before after : List Suspended) (call : WriteCall) (body : Bytes)
      (h : r.suspended = before ++ .write call :: after) :
      Step r (.finishWrite call body) ⟨(r.storage.finishWrite call body).2, before ++ after⟩
  | commit (input : CommitInput) :
      Step r (.commit input) { r with storage := (r.storage.commitImmutable input).2 }
  | deleteTemporary (key : JsString) :
      Step r (.deleteTemporary key) { r with storage := (r.storage.deleteTemporary key).2 }
  | initiate (draw : Storage.SessionDraw) (input : InitiateInput) :
      Step r (.initiate draw input)
        { r with storage := (r.storage.initiateMultipartUpload relaxMultipartLimits draw input).2 }
  | startPart (input : PartInput) (h : r.storage.startPart input = .ok ()) :
      Step r (.startPart input) { r with suspended := .part input :: r.suspended }
  | finishPart (before after : List Suspended) (input : PartInput) (body : Bytes)
      (h : r.suspended = before ++ .part input :: after) :
      Step r (.finishPart input body) ⟨(r.storage.finishPart md5 input body).2, before ++ after⟩
  | complete (input : CompleteInput) :
      Step r (.complete input) { r with storage := (r.storage.completeMultipartUpload input).2 }
  | abort (target : UploadTarget) :
      Step r (.abort target) { r with storage := (r.storage.abortMultipartUpload target).2 }
  | bodyFails (before after : List Suspended) (call : Suspended)
      (h : r.suspended = before ++ call :: after) :
      Step r (.bodyFails call) { r with suspended := before ++ after }

def memoryMachine : Machine RunState MemoryEvent where
  init r := r = ⟨.empty, []⟩
  step := Step relaxMultipartLimits md5

end Machine

/-! ## What the methods do to the objects -/

/-- A temporary object is written or deleted, or a free canonical key gets the object of its
digest and its temporary object goes. -/
inductive ObjectsChange (before : Objects) : Objects → Prop
  | same : ObjectsChange before before
  | set (key : JsString) (o : StoredBytes) (h : isTemporaryKey key = true) :
      ObjectsChange before (before.set key o)
  | delete (key : JsString) (h : isTemporaryKey key = true) :
      ObjectsChange before (before.delete key)
  | commit (workspaceId key temporary : JsString) (o : StoredBytes)
      (hkey : canonicalObjectKey workspaceId o.digest = some key) (hfree : before key = none)
      (h : isTemporaryKey temporary = true) :
      ObjectsChange before ((before.set key o).delete temporary)

/-- Every key is that of a temporary object or of the digest of its object. -/
def Keyed (objects : Objects) : Prop :=
  ∀ key o, objects key = some o →
    isTemporaryKey key = true ∨ ∃ workspaceId, canonicalObjectKey workspaceId o.digest = some key

section Changes

variable {objects objects' : Objects}

theorem Keyed.set (h : Keyed objects) {key : JsString} {o : StoredBytes}
    (ho : isTemporaryKey key = true ∨
      ∃ workspaceId, canonicalObjectKey workspaceId o.digest = some key) :
    Keyed (objects.set key o) := by
  intro key' o' ho'
  by_cases hne : key' = key
  · rw [hne, Objects.set, Function.update_self] at ho'
    cases ho'
    rw [hne]
    exact ho
  · rw [Objects.set, Function.update_of_ne hne] at ho'
    exact h key' o' ho'

theorem Keyed.delete (h : Keyed objects) {key : JsString} : Keyed (objects.delete key) := by
  intro key' o' ho'
  by_cases hne : key' = key
  · rw [hne, Objects.delete, Function.update_self] at ho'
    cases ho'
  · rw [Objects.delete, Function.update_of_ne hne] at ho'
    exact h key' o' ho'

theorem ObjectsChange.keyed (hchange : ObjectsChange objects objects') (h : Keyed objects) :
    Keyed objects' := by
  cases hchange with
  | same => exact h
  | set key o htemp => exact h.set (.inl htemp)
  | delete key htemp => exact h.delete
  | commit workspaceId key temporary o hkey hfree htemp =>
    exact (h.set (.inr ⟨workspaceId, hkey⟩)).delete

/-- An object that is not temporary stays as it is. -/
theorem ObjectsChange.keeps (hchange : ObjectsChange objects objects') {key : JsString}
    {o : StoredBytes} (hkey : isTemporaryKey key = false) (ho : objects key = some o) :
    objects' key = some o := by
  have hne : ∀ temporary, isTemporaryKey temporary = true → key ≠ temporary := by
    rintro temporary htemp rfl
    rw [hkey] at htemp
    cases htemp
  cases hchange with
  | same => exact ho
  | set temporary o' htemp =>
    rw [Objects.set, Function.update_of_ne (hne temporary htemp)]
    exact ho
  | delete temporary htemp =>
    rw [Objects.delete, Function.update_of_ne (hne temporary htemp)]
    exact ho
  | commit workspaceId key' temporary o' hkey' hfree htemp =>
    have hother : key ≠ key' := by
      rintro rfl
      rw [hfree] at ho
      cases ho
    rw [Objects.delete, Function.update_of_ne (hne temporary htemp), Objects.set,
      Function.update_of_ne hother]
    exact ho

end Changes

namespace Storage

variable {s : Storage}

theorem objects_commitImmutable (input : CommitInput) :
    ObjectsChange s.objects (s.commitImmutable input).2.objects := by
  rw [commitImmutable, run_commitStatements]
  cases h : ObjectStorage.commitImmutable s.objects input.temporary input.workspaceId input.digest
      input.byteLength input.mediaType with
  | error e => exact .same
  | ok result =>
    obtain ⟨metadata, after⟩ := result
    obtain ⟨htemp, key, o, hkey, -, hdigest, -, hcases⟩ := commitImmutable_cases h
    obtain ⟨-, rfl | rfl⟩ | ⟨hfree, rfl⟩ := hcases
    · exact .same
    · exact .delete _ htemp
    · exact .commit input.workspaceId key input.temporary o (hdigest ▸ hkey) hfree htemp

/-- A commit that throws has not touched the map. -/
theorem objects_of_commitImmutable_error {input : CommitInput} {e : StorageError}
    (h : (s.commitImmutable input).1 = .error e) : (s.commitImmutable input).2.objects = s.objects := by
  rw [commitImmutable, run_commitStatements] at h ⊢
  cases hcommit : ObjectStorage.commitImmutable s.objects input.temporary input.workspaceId
      input.digest input.byteLength input.mediaType with
  | error e => rfl
  | ok result =>
    rw [hcommit] at h
    cases h

theorem objects_deleteTemporary (key : JsString) :
    ObjectsChange s.objects (s.deleteTemporary key).2.objects := by
  rw [deleteTemporary]
  split
  · exact .same
  · next h => exact .delete key (by simpa using h)

theorem objects_initiateMultipartUpload (relaxMultipartLimits : Bool) (draw : SessionDraw)
    (input : InitiateInput) :
    (initiateMultipartUpload relaxMultipartLimits draw input s).2.objects = s.objects := by
  rw [initiateMultipartUpload]
  split
  · rfl
  · split <;> rfl

theorem objects_finishPart (md5 : Bytes → JsString) (input : PartInput) (body : Bytes) :
    (s.finishPart md5 input body).2.objects = s.objects := by
  rw [finishPart]
  split
  · rfl
  · split
    · rfl
    · split
      · rfl
      · split
        · split <;> rfl
        · rfl

theorem requireMultipart_eq_ok {target : UploadTarget} {upload : MemoryUpload}
    (h : s.requireMultipart target = .ok upload) :
    s.multipart target.uploadId = some upload ∧ upload.session.key = target.key ∧
      upload.session.providerUploadRef = target.providerUploadRef := by
  rw [requireMultipart] at h
  split at h
  · cases h
  · next found hfound =>
    split at h
    · next htarget =>
      cases h
      exact ⟨hfound, by simpa [UploadSession.isTarget] using htarget⟩
    · cases h

/-- The key of a completion is that of the session, which was checked when it began. -/
theorem objects_completeMultipartUpload (input : CompleteInput) :
    ObjectsChange s.objects (s.completeMultipartUpload input).2.objects := by
  rw [completeMultipartUpload]
  split
  · exact .same
  · next upload hrequire =>
    obtain ⟨-, hkey, -⟩ := requireMultipart_eq_ok hrequire
    split
    · exact .same
    · split
      · exact .same
      · split
        · exact .same
        · refine .set input.key _ ?_
          rw [← hkey]
          exact upload.temporary

theorem objects_abortMultipartUpload (target : UploadTarget) :
    (s.abortMultipartUpload target).2.objects = s.objects := by
  rw [abortMultipartUpload]
  split
  · rfl
  · split <;> rfl

end Storage

section Runs

variable {relaxMultipartLimits : Bool} {md5 : Bytes → JsString} {r r' : RunState} {e : MemoryEvent}

theorem Step.changes (h : Step relaxMultipartLimits md5 r e r') :
    ObjectsChange r.storage.objects r'.storage.objects := by
  cases h with
  | startWrite key mediaType call h => exact .same
  | finishWrite before after call body h => exact .set call.key (call.object body) call.temporary
  | commit input => exact Storage.objects_commitImmutable input
  | deleteTemporary key => exact Storage.objects_deleteTemporary key
  | initiate draw input =>
    dsimp only
    rw [Storage.objects_initiateMultipartUpload]
    exact .same
  | startPart input h => exact .same
  | finishPart before after input body h =>
    dsimp only
    rw [Storage.objects_finishPart]
    exact .same
  | complete input => exact Storage.objects_completeMultipartUpload input
  | abort target =>
    dsimp only
    rw [Storage.objects_abortMultipartUpload]
    exact .same
  | bodyFails before after call h => exact .same

theorem keyed_of_reachable (hr : (memoryMachine relaxMultipartLimits md5).Reachable r) :
    Keyed r.storage.objects := by
  induction hr with
  | init h =>
    intro key o ho
    rw [show _ = _ from h] at ho
    cases ho
  | step _ _ hstep ih => exact hstep.changes.keyed ih

theorem kept_of_leads {key : JsString} {o : StoredBytes} (hkey : isTemporaryKey key = false)
    (h : (memoryMachine relaxMultipartLimits md5).Leads (fun _ _ => True) r r')
    (ho : r.storage.objects key = some o) : r'.storage.objects key = some o := by
  induction h with
  | refl => exact ho
  | tail _ hstep ih =>
    obtain ⟨e, -, hstep⟩ := hstep
    exact hstep.changes.keeps hkey ih

/-- Every object of the memory storage has the digest of its body, and one that is no draft is under
its own canonical key. What is under a canonical key has the digest that the key names and stays for
good; a commit that fails changes no object. -/
theorem memory_objects_sound (hr : (memoryMachine relaxMultipartLimits md5).Reachable r) :
    (∀ key o, r.storage.objects key = some o → o.digest = sha256 o.body ∧
      (isTemporaryKey key = true ∧ (∀ workspaceId digest,
          canonicalObjectKey workspaceId digest ≠ some key) ∨
        isTemporaryKey key = false ∧ ∃ workspaceId,
          canonicalObjectKey workspaceId o.digest = some key)) ∧
    (∀ workspaceId digest key o, canonicalObjectKey workspaceId digest = some key →
      r.storage.objects key = some o → sha256 o.body = digest ∧
      ∀ r', (memoryMachine relaxMultipartLimits md5).Leads (fun _ _ => True) r r' →
        r'.storage.objects key = some o) ∧
    ∀ input e, (r.storage.commitImmutable input).1 = .error e →
      (r.storage.commitImmutable input).2.objects = r.storage.objects := by
  have hkeyed := keyed_of_reachable hr
  refine ⟨?_, ?_, fun input e h => Storage.objects_of_commitImmutable_error h⟩
  · intro key o ho
    refine ⟨o.digest_eq, ?_⟩
    cases htemp : isTemporaryKey key with
    | true =>
      left
      refine ⟨rfl, ?_⟩
      intro workspaceId digest hkey
      rw [isTemporaryKey_canonicalObjectKey hkey] at htemp
      cases htemp
    | false =>
      right
      obtain htrue | hcanonical := hkeyed key o ho
      · rw [htemp] at htrue
        cases htrue
      · exact ⟨rfl, hcanonical⟩
  · intro workspaceId digest key o hkey ho
    have hcanonical := isTemporaryKey_canonicalObjectKey hkey
    constructor
    · obtain htrue | ⟨workspaceId', hkey'⟩ := hkeyed key o ho
      · rw [hcanonical] at htrue
        cases htrue
      · rw [← o.digest_eq]
        exact (canonicalObjectKey_injective hkey' hkey).2
    · intro r' hleads
      exact kept_of_leads hcanonical hleads ho

end Runs

section Example

theorem trim_textPlain : trim (js "text/plain") ≠ [] := by decide

/-- A write that has passed its checks, and the commit of its object. -/
def draftCall : WriteCall where
  key := js "workspaces/w/temporary/o"
  mediaType := js "text/plain"
  temporary := by decide
  media := trim_textPlain

def draftCommit : CommitInput where
  temporary := js "workspaces/w/temporary/o"
  workspaceId := js "w"
  digest := sha256 [104, 105]
  byteLength := 2
  mediaType := js "text/plain"

def draftStorage : Storage := (Storage.empty.finishWrite draftCall [104, 105]).2

theorem draft_reachable : (memoryMachine false sha256).Reachable
    ⟨(draftStorage.commitImmutable draftCommit).2, []⟩ := by
  have hempty : (memoryMachine false sha256).Reachable ⟨.empty, []⟩ := .init rfl
  have hstart := hempty.step (Step.startWrite draftCall.key draftCall.mediaType draftCall rfl)
  have hwritten := hstart.step (Step.finishWrite [] [] draftCall [104, 105] rfl)
  exact hwritten.step (Step.commit draftCommit)

theorem memory_objects_sound_draft :
    ∃ key o, (draftStorage.commitImmutable draftCommit).2.objects key = some o ∧
      isTemporaryKey key = false ∧ o.digest = sha256 o.body := by
  obtain ⟨key, hkey⟩ : ∃ key, canonicalObjectKey (js "w") (sha256 [104, 105]) = some key :=
    ⟨_, if_pos (by rw [isSha256_sha256]; decide)⟩
  have hne : key ≠ draftCall.key := by
    rintro rfl
    have htemp := isTemporaryKey_canonicalObjectKey hkey
    rw [draftCall.temporary] at htemp
    cases htemp
  have hdraft : draftStorage.objects draftCall.key = some (draftCall.object [104, 105]) := by
    rw [draftStorage, Storage.objects_finishWrite, Objects.set, Function.update_self]
  have hfree : draftStorage.objects key = none := by
    rw [draftStorage, Storage.objects_finishWrite, Objects.set, Function.update_of_ne hne]
    rfl
  have hcommit : ObjectStorage.commitImmutable draftStorage.objects draftCommit.temporary
      draftCommit.workspaceId draftCommit.digest draftCommit.byteLength draftCommit.mediaType =
      .ok ((draftCall.object [104, 105]).metadata key,
        (draftStorage.objects.set key (draftCall.object [104, 105])).delete draftCall.key) := by
    change ObjectStorage.commitImmutable draftStorage.objects draftCall.key (js "w")
      (sha256 [104, 105]) 2 (js "text/plain") = _
    rw [commitImmutable, if_neg (by decide), if_neg (by decide), hkey]
    simp only [hdraft, hfree]
    rw [if_neg (by simp [WriteCall.object, draftCall])]
  have hstored : (draftStorage.commitImmutable draftCommit).2.objects key =
      some (draftCall.object [104, 105]) := by
    rw [Storage.commitImmutable, run_commitStatements, hcommit]
    dsimp only
    rw [Objects.delete, Function.update_of_ne hne, Objects.set, Function.update_self]
  obtain ⟨hdigest, -⟩ := (memory_objects_sound draft_reachable).1 key _ hstored
  exact ⟨key, _, hstored, isTemporaryKey_canonicalObjectKey hkey, hdigest⟩

end Example

end TrustCore.MemoryStorage
