import Mathlib.Data.List.Sort
import TrustCore.ObjectStorage

/-!
# Multipart uploads

What the two storages share: the session of an upload with its recorded parts, and the
checks that the methods make before they suspend. A session is completed with exactly the
parts that it has recorded, numbered from one.
-/

namespace TrustCore.Multipart

open TrustCore.Utf TrustCore.Dynamic TrustCore.ObjectStorage

inductive Status where
  | initiated
  | uploading
  | completed
  | aborted
  deriving DecidableEq

def Status.text : Status → JsString
  | .initiated => js "initiated"
  | .uploading => js "uploading"
  | .completed => js "completed"
  | .aborted => js "aborted"

structure UploadedPart where
  partNumber : Nat
  etag : JsString
  size : Nat
  deriving DecidableEq

structure UploadSession where
  uploadId : JsString
  providerUploadRef : JsString
  key : JsString
  mediaType : JsString
  partSize : Nat
  expectedByteLength : Option Nat
  expectedSha256 : Option JsString
  status : Status
  parts : List UploadedPart
  createdAt : JsString
  expiresAt : JsString
  deriving DecidableEq

/-- No status follows these. -/
def UploadSession.Terminal (session : UploadSession) : Prop :=
  session.status = .completed ∨ session.status = .aborted

instance (session : UploadSession) : Decidable session.Terminal :=
  inferInstanceAs (Decidable (_ ∨ _))

def minPartSize : Nat := 5 * 1024 * 1024

def maxPartSize : Nat := 5 * 1024 * 1024 * 1024

def maxParts : Nat := 10000

structure InitiateInput where
  uploadId : JsString
  key : JsString
  mediaType : JsString
  partSize : Nat
  expectedByteLength : Option Nat
  expectedSha256 : Option JsString
  expiresAt : Option JsString

/-- The upload that a call is about. -/
structure UploadTarget where
  uploadId : JsString
  key : JsString
  providerUploadRef : JsString

structure PartInput extends UploadTarget where
  partNumber : Nat
  size : Nat

structure CompleteInput extends UploadTarget where
  parts : List UploadedPart
  expectedByteLength : Nat
  expectedSha256 : JsString

def invalidRequest (message : String) : StorageError := ⟨some "invalid_request", js message⟩

def conflict (message : String) : StorageError := ⟨some "conflict", js message⟩

/-- The assertions of `initiateMultipartUpload`; `least` is the smallest part that is taken. -/
def checkInitiate (least : Nat) (input : InitiateInput) : Except StorageError Unit :=
  if !isTemporaryKey input.key then .error notTemporary
  else if (trim input.mediaType).isEmpty then .error (invalidRequest "Invalid object media type")
  else if input.partSize < least ∨ maxPartSize < input.partSize then
    .error (invalidRequest "Multipart part size is outside provider limits")
  else .ok ()

/-- The session under the upload id is of the same plan. -/
def checkPlan (session : UploadSession) (input : InitiateInput) : Except StorageError UploadSession :=
  if session.key ≠ input.key ∨ session.mediaType ≠ input.mediaType ∨
      session.partSize ≠ input.partSize then
    .error (conflict "Multipart upload id already bound to a different plan")
  else .ok session

def newSession (input : InitiateInput) (providerUploadRef createdAt defaultExpiry : JsString) :
    UploadSession where
  uploadId := input.uploadId
  providerUploadRef := providerUploadRef
  key := input.key
  mediaType := input.mediaType
  partSize := input.partSize
  expectedByteLength := input.expectedByteLength
  expectedSha256 := input.expectedSha256
  status := .initiated
  parts := []
  createdAt := createdAt
  expiresAt := input.expiresAt.getD defaultExpiry

def UploadSession.isTarget (session : UploadSession) (target : UploadTarget) : Bool :=
  session.key == target.key && session.providerUploadRef == target.providerUploadRef

/-- What `uploadMultipartPart` asks of the status before it reads the body. -/
def checkUploading (session : UploadSession) : Except StorageError Unit :=
  if session.Terminal then
    .error ⟨some "invalid_request",
      js "Cannot upload parts for " ++ session.status.text ++ js " multipart upload"⟩
  else .ok ()

def checkPartNumber (partNumber : Nat) : Except StorageError Unit :=
  if partNumber < 1 ∨ maxParts < partNumber then
    .error (invalidRequest "Invalid multipart part number")
  else .ok ()

def orderedParts (parts : List UploadedPart) : List UploadedPart :=
  parts.insertionSort fun a b => a.partNumber ≤ b.partNumber

def UploadSession.findPart (session : UploadSession) (partNumber : Nat) : Option UploadedPart :=
  session.parts.find? (·.partNumber == partNumber)

def UploadSession.recordPart (session : UploadSession) (part : UploadedPart) : UploadSession :=
  { session with status := .uploading, parts := orderedParts (session.parts ++ [part]) }

def UploadSession.complete (session : UploadSession) (ordered : List UploadedPart) :
    UploadSession :=
  { session with status := .completed, parts := ordered }

def UploadSession.abort (session : UploadSession) : UploadSession :=
  { session with status := .aborted, parts := [] }

/-- The map of the recorded parts has the last one of each number. -/
def lastOfNumber (recorded : List UploadedPart) (partNumber : Nat) : Option UploadedPart :=
  recorded.reverse.find? (·.partNumber == partNumber)

def isRecorded (recorded : List UploadedPart) (part : UploadedPart) : Bool :=
  (lastOfNumber recorded part.partNumber).any fun found =>
    found.etag == part.etag && found.size == part.size

def reconcileParts (recorded declared : List UploadedPart) : Except StorageError Unit :=
  if recorded.length ≠ declared.length then
    .error (invalidRequest "Multipart part list does not match recorded parts")
  else if !declared.all (isRecorded recorded) then
    .error (invalidRequest "Multipart part list is inconsistent with recorded parts")
  else if (declared.map (·.partNumber)).insertionSort (· ≤ ·) ≠
      (List.range declared.length).map (· + 1) then
    .error (invalidRequest "Multipart parts must be a contiguous sequence starting at 1")
  else .ok ()

theorem checkInitiate_eq_ok {least : Nat} {input : InitiateInput} {u : Unit}
    (h : checkInitiate least input = .ok u) :
    isTemporaryKey input.key = true ∧ trim input.mediaType ≠ [] := by
  rw [checkInitiate] at h
  split at h
  · cases h
  · next hkey =>
    split at h
    · cases h
    · next htype => exact ⟨by simpa using hkey, by simpa using htype⟩

end TrustCore.Multipart
