import TrustCore.Multipart
import TrustCore.S3Storage

/-!
# Multipart uploads to a provider

`S3MultipartController`: the sessions live in the process, the parts at the provider. A method
is a program of statements on the sessions and of requests; it suspends at every request and
where it reads a body, so the statements of other calls come in between. A call that has found
the record of a session keeps it, even when another one has taken its place under the upload id.
-/

namespace TrustCore.S3Multipart

open TrustCore.Utf TrustCore.Dynamic TrustCore.Sha256 TrustCore.ObjectStorage
open TrustCore.Multipart TrustCore.Programs TrustCore.Runs
open TrustCore.S3Storage (ProviderError Thrown octetStream)

/-! ## The provider -/

inductive Request where
  | createMultipartUpload (key contentType : JsString)
  | uploadPart (key uploadRef : JsString) (partNumber : Nat) (body : Bytes)
  | completeMultipartUpload (key uploadRef : JsString) (parts : List UploadedPart)
  | abortMultipartUpload (key uploadRef : JsString)
  | getObject (key : JsString)

/-- The upload id, the entity tag, or the body of an answer; the stream of a body may fail. -/
def Request.Output : Request → Type
  | .createMultipartUpload _ _ => Option JsString
  | .uploadPart _ _ _ _ => Option JsString
  | .getObject _ => Option (Except ProviderError Bytes)
  | _ => Unit

/-- A part as the provider holds it. -/
structure HeldPart where
  etag : JsString
  body : Bytes

structure ProviderUpload where
  key : JsString
  parts : Nat → Option HeldPart

structure Provider where
  uploads : JsString → Option ProviderUpload
  objects : JsString → Option Bytes
  /-- How many requests were served, for the names that the provider gives. -/
  served : Nat

def missing : ProviderError := ⟨some 404, some (js "NoSuchUpload"), some (js "not found")⟩

def invalidPart : ProviderError := ⟨some 400, some (js "InvalidPart"), some (js "invalid part")⟩

def ProviderUpload.holds (upload : ProviderUpload) (part : UploadedPart) : Bool :=
  (upload.parts part.partNumber).any fun held => held.etag == part.etag

def ProviderUpload.put (upload : ProviderUpload) (partNumber : Nat) (held : HeldPart) :
    ProviderUpload :=
  { upload with parts := Function.update upload.parts partNumber (some held) }

/-- The bytes of the listed parts. -/
def ProviderUpload.assemble (upload : ProviderUpload) (parts : List UploadedPart) : Bytes :=
  parts.flatMap fun part => ((upload.parts part.partNumber).map (·.body)).getD []

def Provider.findUpload (provider : Provider) (key uploadRef : JsString) : Option ProviderUpload :=
  (provider.uploads uploadRef).filter (·.key == key)

section Serve

-- The names that the provider gives to an upload and to a part may be anything.
variable (uploadIdOf : Nat → JsString) (etagOf : Nat → Bytes → JsString)

/-- A request that reaches the provider and whose answer comes back. -/
def Provider.serve (provider : Provider) :
    (request : Request) → Except ProviderError request.Output × Provider
  | .createMultipartUpload key _ =>
    (.ok (some (uploadIdOf provider.served)),
      { provider with
        uploads := Function.update provider.uploads (uploadIdOf provider.served)
          (some ⟨key, fun _ => none⟩)
        served := provider.served + 1 })
  | .uploadPart key uploadRef partNumber body =>
    match provider.findUpload key uploadRef with
    | none => (.error missing, provider)
    | some upload =>
      (.ok (some (etagOf provider.served body)),
        { provider with
          uploads := Function.update provider.uploads uploadRef
            (some (upload.put partNumber ⟨etagOf provider.served body, body⟩))
          served := provider.served + 1 })
  | .completeMultipartUpload key uploadRef parts =>
    match provider.findUpload key uploadRef with
    | none => (.error missing, provider)
    | some upload =>
      if parts.all upload.holds && decide (parts.Pairwise fun a b => a.partNumber < b.partNumber) then
        (.ok (),
          { provider with
            uploads := Function.update provider.uploads uploadRef none
            objects := Function.update provider.objects key (some (upload.assemble parts)) })
      else (.error invalidPart, provider)
  | .abortMultipartUpload key uploadRef =>
    match provider.findUpload key uploadRef with
    | none => (.error missing, provider)
    | some _ =>
      (.ok (), { provider with uploads := Function.update provider.uploads uploadRef none })
  | .getObject key =>
    match provider.objects key with
    | none => (.error missing, provider)
    | some body => (.ok (some (.ok body)), provider)

end Serve

/-! ## The sessions -/

inductive SessionChange where
  | recordPart (part : UploadedPart)
  | complete (ordered : List UploadedPart)
  | abort

def SessionChange.apply : SessionChange → UploadSession → UploadSession
  | .recordPart part, session => session.recordPart part
  | .complete ordered, session => session.complete ordered
  | .abort, session => session.abort

/-- Every record that there was, and the one under an upload id. -/
structure Controller where
  records : List UploadSession
  sessions : JsString → Option Nat

inductive Statement where
  | lookup (uploadId : JsString)
  | findPart (record partNumber : Nat)
  | insert (input : InitiateInput) (providerUploadRef createdAt defaultExpiry : JsString)
  | update (record : Nat) (change : SessionChange)
  | request (request : Request)

def Statement.Result : Statement → Type
  | .lookup _ => Option (Nat × UploadSession)
  | .findPart _ _ => Option UploadedPart
  | .request r => Except ProviderError r.Output
  | _ => Unit

def Controller.lookup (controller : Controller) (uploadId : JsString) :
    Option (Nat × UploadSession) :=
  (controller.sessions uploadId).bind fun record =>
    (controller.records[record]?).map fun session => (record, session)

def Controller.insert (controller : Controller) (session : UploadSession) : Controller where
  records := controller.records ++ [session]
  sessions := Function.update controller.sessions session.uploadId (some controller.records.length)

def Controller.update (controller : Controller) (record : Nat) (change : SessionChange) :
    Controller :=
  { controller with records := controller.records.modify record change.apply }

structure Shared where
  controller : Controller
  provider : Provider

section Exec

variable (uploadIdOf : Nat → JsString) (etagOf : Nat → Bytes → JsString)

/-- A statement while nothing fails. -/
def Statement.exec : (statement : Statement) → Shared → statement.Result × Shared
  | .lookup uploadId, s => (s.controller.lookup uploadId, s)
  | .findPart record partNumber, s =>
    ((s.controller.records[record]?).bind (·.findPart partNumber), s)
  | .insert input providerUploadRef createdAt defaultExpiry, s =>
    let session := newSession input providerUploadRef createdAt defaultExpiry
    ((), { s with controller := s.controller.insert session })
  | .update record change, s => ((), { s with controller := s.controller.update record change })
  | .request r, s =>
    let answer := s.provider.serve uploadIdOf etagOf r
    (answer.1, { s with provider := answer.2 })

/-- An error that comes in place of the answer to a request. -/
def Statement.Lost : (statement : Statement) → statement.Result → Prop
  | .request _, result => ∃ error, result = .error error
  | _, _ => False

/-- The calls of one process; a request may get any error, with its effect or without. -/
def controllerSystem (ι : Type) : System ι Shared Unit Statement Statement.Result where
  start := ()
  exec _ s _ statement result s' _ :=
    (result, s') = statement.exec uploadIdOf etagOf s ∨
      statement.Lost result ∧ (s' = s ∨ s' = (statement.exec uploadIdOf etagOf s).2)
  compatible _ _ := True

end Exec

/-! ## The methods -/

abbrev ControllerProg := Prog Statement Statement.Result Thrown

section Methods

variable (redactSensitive : JsString → JsString)

/-- `mapProviderError` of this module, which does not look at the name of an error. -/
def mapProviderError (fallbackMessage : JsString) : Thrown → StorageError
  | .storage error => error
  | .provider error =>
    match error.httpStatusCode with
    | some 404 => ⟨some "not_found", js "Object was not found"⟩
    | some 403 => ⟨some "access_denied", js "Storage access was denied"⟩
    | some 409 => ⟨some "conflict", js "Storage object conflict"⟩
    | some 412 => ⟨some "conflict", js "Storage object conflict"⟩
    | some 429 => ⟨some "throttled", js "Storage provider throttled the request"⟩
    | status =>
      if status.any (500 ≤ ·) then
        ⟨some "transient", js "Storage provider is temporarily unavailable"⟩
      else
        let rawMessage := error.message.getD fallbackMessage
        ⟨some "permanent",
          redactSensitive (if rawMessage.isEmpty then fallbackMessage else rawMessage)⟩

def failWith {α : Type} (error : StorageError) : ControllerProg α := .throw (.storage error)

/-- A request whose error is mapped. -/
def sendMapped (request : Request) (fallbackMessage : JsString) : ControllerProg request.Output :=
  (Prog.perform (.request request)).bind fun (reply : Except ProviderError request.Output) =>
    match reply with
    | .ok output => .pure output
    | .error error => failWith (mapProviderError redactSensitive fallbackMessage (.provider error))

/-- The record of the session that a call is about. -/
def requireSession (target : UploadTarget) : ControllerProg (Nat × UploadSession) :=
  (Prog.perform (.lookup target.uploadId)).bind fun (found : Option (Nat × UploadSession)) =>
    match found with
    | none => failWith ⟨some "not_found", js "Multipart upload was not found"⟩
    | some (record, session) =>
      if session.isTarget target then .pure (record, session)
      else failWith (conflict "Multipart upload reference mismatch")

structure SessionDraw where
  createdAt : JsString
  defaultExpiry : JsString

def initiateMultipartUpload (draw : SessionDraw) (input : InitiateInput) :
    ControllerProg UploadSession :=
  match checkInitiate minPartSize input with
  | .error error => failWith error
  | .ok () =>
    (Prog.perform (.lookup input.uploadId)).bind fun (found : Option (Nat × UploadSession)) =>
      match found with
      | some (_, existing) =>
        match checkPlan existing input with
        | .error error => failWith error
        | .ok session => .pure session
      | none => do
        let created ← sendMapped redactSensitive (.createMultipartUpload input.key input.mediaType)
          (js "Failed to initiate multipart upload")
        match Option.filter (fun id => !id.isEmpty) created with
        | none =>
          failWith ⟨some "permanent", js "Provider did not return a multipart upload reference"⟩
        | some providerUploadRef =>
          (Prog.perform (.insert input providerUploadRef draw.createdAt draw.defaultExpiry)).bind
            fun _ => .pure (newSession input providerUploadRef draw.createdAt draw.defaultExpiry)

/-- The comparison with the part that was recorded when the call looked. -/
def recordUploaded (record : Nat) (existing : Option UploadedPart) (part : UploadedPart) :
    ControllerProg UploadedPart :=
  match existing with
  | some existing =>
    if existing.etag ≠ part.etag ∨ existing.size ≠ part.size then
      failWith (conflict "Duplicate multipart part number with inconsistent checksum")
    else .pure existing
  | none => .stmt (.update record (.recordPart part)) fun _ => .pure part

/-- What is left of an upload when the provider has answered. -/
def partAnswered (input : PartInput) (body : Bytes) (record : Nat) (existing : Option UploadedPart)
    (reply : Except ProviderError (Option JsString)) : ControllerProg UploadedPart :=
  match reply with
  | .error error => failWith
      (mapProviderError redactSensitive (js "Failed to upload multipart part") (.provider error))
  | .ok tag =>
    match Option.filter (fun tag => !tag.isEmpty) tag with
    | none => failWith ⟨some "permanent", js "Provider omitted multipart part etag"⟩
    | some etag => recordUploaded record existing ⟨input.partNumber, etag, body.length⟩

/-- The upload from where its body has been read and the recorded part looked up. -/
def sendPart (input : PartInput) (body : Bytes) (record : Nat) (existing : Option UploadedPart) :
    ControllerProg UploadedPart :=
  .stmt (.request (.uploadPart input.key input.providerUploadRef input.partNumber body))
    (partAnswered redactSensitive input body record existing)

/-- The upload from where its session has been found. -/
def readPart (input : PartInput) (body : Bytes) (record : Nat) : ControllerProg UploadedPart :=
  if body.length ≠ input.size then
    failWith (invalidRequest "Multipart part size does not match declared size")
  else
    .stmt (.findPart record input.partNumber) fun existing =>
      sendPart redactSensitive input body record existing

/-- `body` is what the stream of the call gives; it is read after the session was found. -/
def uploadMultipartPart (input : PartInput) (body : Bytes) : ControllerProg UploadedPart :=
  (requireSession input.toUploadTarget).bind fun (record, session) =>
    match checkUploading session with
    | .error error => failWith error
    | .ok () =>
      match checkPartNumber input.partNumber with
      | .error error => failWith error
      | .ok () =>
        if maxPartSize < input.size then
          failWith (invalidRequest "Multipart part exceeds max size")
        else readPart redactSensitive input body record

def verifyCompleted (input : CompleteInput) : ControllerProg ObjectMetadata := do
  let stream ← sendMapped redactSensitive (.getObject input.key) (js "Failed to open object stream")
  match (stream : Option (Except ProviderError Bytes)) with
  | none => failWith ⟨some "permanent", js "Storage adapter received a non-Node stream"⟩
  | some (.error error) => .throw (.provider error)
  | some (.ok body) =>
    if body.length ≠ input.expectedByteLength ∨ sha256 body ≠ input.expectedSha256 then
      failWith (invalidRequest "Multipart assembly does not match expected size or checksum")
    else .pure ⟨input.key, body.length, octetStream, sha256 body⟩

def completeMultipartUpload (input : CompleteInput) : ControllerProg ObjectMetadata :=
  (requireSession input.toUploadTarget).bind fun (record, session) =>
    if session.status = .aborted then
      failWith (invalidRequest "Cannot complete an aborted multipart upload")
    else if session.status = .completed then verifyCompleted redactSensitive input
    else
      match reconcileParts session.parts input.parts with
      | .error error => failWith error
      | .ok () => do
        let ordered := orderedParts input.parts
        let _ ← sendMapped redactSensitive
          (.completeMultipartUpload input.key input.providerUploadRef ordered)
          (js "Failed to complete multipart upload")
        let verified ← verifyCompleted redactSensitive input
        (Prog.perform (.update record (.complete ordered))).bind fun _ => .pure verified

/-- An abort at the provider; an upload that it does not have is as good as aborted. -/
def sendAbort (target : UploadTarget) : ControllerProg Unit :=
  (Prog.perform (.request (.abortMultipartUpload target.key target.providerUploadRef))).bind
    fun (reply : Except ProviderError Unit) =>
      match reply with
      | .ok _ => .pure ()
      | .error error =>
        if error.httpStatusCode = some 404 then .pure ()
        else failWith
          (mapProviderError redactSensitive (js "Failed to abort multipart upload") (.provider error))

def abortMultipartUpload (target : UploadTarget) : ControllerProg Unit :=
  (Prog.perform (.lookup target.uploadId)).bind fun (found : Option (Nat × UploadSession)) =>
    match found with
    | none => sendAbort redactSensitive target
    | some (record, existing) =>
      if !existing.isTarget target then failWith (conflict "Multipart abort target mismatch")
      else
        (sendAbort redactSensitive target).bind fun _ =>
          (Prog.perform (.update record .abort)).bind fun _ => .pure ()

/-! ## Any number of calls -/

inductive ControllerCall where
  | initiate (draw : SessionDraw) (input : InitiateInput)
  | uploadPart (input : PartInput) (body : Bytes)
  | complete (input : CompleteInput)
  | abort (target : UploadTarget)

inductive ControllerAnswer where
  | session (session : UploadSession)
  | part (part : UploadedPart)
  | object (metadata : ObjectMetadata)
  | done

def callProgram : ControllerCall → ControllerProg ControllerAnswer
  | .initiate draw input =>
    (initiateMultipartUpload redactSensitive draw input).bind fun session => .pure (.session session)
  | .uploadPart input body =>
    (uploadMultipartPart redactSensitive input body).bind fun part => .pure (.part part)
  | .complete input =>
    (completeMultipartUpload redactSensitive input).bind fun metadata => .pure (.object metadata)
  | .abort target => (abortMultipartUpload redactSensitive target).bind fun _ => .pure .done

end Methods

def Controller.empty : Controller := ⟨[], fun _ => none⟩

abbrev ControllerWorld (ι : Type) :=
  World ι Shared Unit Statement Statement.Result Thrown ControllerAnswer

abbrev ControllerEvent (ι : Type) := Event ι Statement Statement.Result Thrown ControllerAnswer

/-- Calls of one controller, over a provider in any state. -/
def controllerMachine (ι : Type) [DecidableEq ι] (uploadIdOf : Nat → JsString)
    (etagOf : Nat → Bytes → JsString) (redactSensitive : JsString → JsString) :
    Machine (ControllerWorld ι) (ControllerEvent ι) :=
  (controllerSystem uploadIdOf etagOf ι).machine
    (fun p => ∃ call : ControllerCall, p = callProgram redactSensitive call)
    fun s => s.controller = .empty

end TrustCore.S3Multipart
