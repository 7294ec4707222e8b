import TrustCore.ObjectStorage
import TrustCore.Programs

/-!
# Objects in a bucket

`S3ObjectStorage` over a bucket that serves one request at a time. Every method is a program
of requests, so any number of calls interleave between their requests, stop after any of
them, and may get an error for a request that the bucket has served. What makes a canonical
object final is the condition that the copy carries, and that no other request writes to or
deletes a key that is not temporary.
-/

namespace TrustCore.S3Storage

open TrustCore.Utf TrustCore.Dynamic TrustCore.Sha256 TrustCore.ObjectStorage
open TrustCore.Programs TrustCore.Runs

/-- What the client of the provider throws; one without a message is no `Error`. -/
structure ProviderError where
  httpStatusCode : Option Nat
  name : Option JsString
  message : Option JsString

inductive Thrown where
  | storage (error : StorageError)
  | provider (error : ProviderError)

def transientNames : List JsString :=
  [js "TimeoutError", js "NetworkingError", js "ThrottlingException", js "SlowDown"]

section Errors

-- `redactSensitive` may be any function of a text.
variable (redactSensitive : JsString → JsString)

def mapProviderError (fallbackMessage : JsString) : Thrown → StorageError
  | .storage error => error
  | .provider error =>
    match error.httpStatusCode with
    | some 404 => ⟨some "not_found", js "Object was not found"⟩
    | some 403 => ⟨some "access_denied", js "Storage access was denied"⟩
    | some 409 => ⟨some "conflict", js "Storage object conflict"⟩
    | some 412 => ⟨some "conflict", js "Storage object conflict"⟩
    | some 429 => ⟨some "throttled", js "Storage provider throttled the request"⟩
    | status =>
      if status.any (500 ≤ ·) then
        ⟨some "transient", js "Storage provider is temporarily unavailable"⟩
      else if error.name.any transientNames.contains then
        ⟨some "transient", js "Storage provider transient failure"⟩
      else
        let rawMessage := error.message.getD fallbackMessage
        ⟨some "permanent",
          redactSensitive (if rawMessage.isEmpty then fallbackMessage else rawMessage)⟩

end Errors

def isMissingError : Thrown → Bool
  | .storage error => error.code == some "not_found"
  | .provider error => error.httpStatusCode == some 404

def isConditionalConflict : Thrown → Bool
  | .storage error => error.code == some "conflict"
  | .provider error => error.httpStatusCode == some 409 || error.httpStatusCode == some 412

/-! ## The bucket -/

/-- An object with its entity tag, which no other bytes have. -/
structure S3Object (contentOf : JsString → Bytes) where
  body : Bytes
  contentType : JsString
  metadataSha256 : Option JsString
  etag : JsString
  contentOf_etag : contentOf etag = body

abbrev Bucket (contentOf : JsString → Bytes) := JsString → Option (S3Object contentOf)

/-- One request; the copy always has `IfNoneMatch: "*"` and the digest as metadata. -/
inductive Request where
  | putObject (key : JsString) (body : Bytes) (contentType : JsString)
  | getObject (key : JsString)
  | headObject (key : JsString)
  | copyObject (key copySource copySourceIfMatch contentType digest : JsString)
  | deleteObject (key : JsString)

/-- The stream of the body may fail when it is read. -/
structure GetObjectOutput where
  body : Option (Except ProviderError Bytes)
  contentType : Option JsString
  etag : Option JsString

structure HeadObjectOutput where
  contentLength : Option Nat
  contentType : Option JsString
  metadataSha256 : Option JsString

def Request.Output : Request → Type
  | .getObject _ => GetObjectOutput
  | .headObject _ => HeadObjectOutput
  | _ => Unit

abbrev Request.Reply (request : Request) : Type := Except ProviderError request.Output

section Provider

variable {contentOf : JsString → Bytes}

def Bucket.put (bucket : Bucket contentOf) (key : JsString) (o : S3Object contentOf) :
    Bucket contentOf := Function.update bucket key (some o)

def Bucket.delete (bucket : Bucket contentOf) (key : JsString) : Bucket contentOf :=
  Function.update bucket key none

/-- The bucket after it has served a request. -/
inductive Serves (bucket : Bucket contentOf) : Request → Bucket contentOf → Prop
  | putObject {key contentType : JsString} {body : Bytes} (o : S3Object contentOf)
      (hbody : o.body = body) (htype : o.contentType = contentType) :
      Serves bucket (.putObject key body contentType) (bucket.put key o)
  | getObject {key : JsString} : Serves bucket (.getObject key) bucket
  | headObject {key : JsString} : Serves bucket (.headObject key) bucket
  | copyObject {key copySource copySourceIfMatch contentType digest : JsString}
      (source o : S3Object contentOf) (hfree : bucket key = none)
      (hsource : bucket copySource = some source) (hmatch : source.etag = copySourceIfMatch)
      (hbody : o.body = source.body) (htype : o.contentType = contentType)
      (hdigest : o.metadataSha256 = some digest) :
      Serves bucket (.copyObject key copySource copySourceIfMatch contentType digest)
        (bucket.put key o)
  | deleteObject {key : JsString} : Serves bucket (.deleteObject key) (bucket.delete key)

/-- What an answer without an error tells of the bucket. -/
def Answers (bucket : Bucket contentOf) : (request : Request) → request.Output → Prop
  | .getObject key, output => ∃ o, bucket key = some o ∧
      (∀ bytes, output.body = some (.ok bytes) → bytes = o.body) ∧
      (∀ type, output.contentType = some type → type = o.contentType) ∧
      ∀ tag, output.etag = some tag → tag = o.etag
  | .headObject key, output => ∃ o, bucket key = some o ∧
      (∀ length, output.contentLength = some length → length = o.body.length) ∧
      (∀ type, output.contentType = some type → type = o.contentType) ∧
      output.metadataSha256 = o.metadataSha256
  | _, _ => True

/-- Some error without an effect, or the request is served; the answer may be lost then. -/
def provider (ι : Type) (contentOf : JsString → Bytes) :
    System ι (Bucket contentOf) Unit Request Request.Reply where
  start := ()
  exec _ bucket _ request reply bucket' _ :=
    (∃ error, reply = .error error ∧ bucket' = bucket) ∨
      Serves bucket request bucket' ∧ ∀ output, reply = .ok output → Answers bucket request output
  compatible _ _ := True

end Provider

/-! ## The methods -/

abbrev S3Prog := Prog Request Request.Reply Thrown

def send (request : Request) : S3Prog request.Output :=
  (Prog.perform request).bind fun reply => .ofExcept (reply.mapError .provider)

/-- `ObjectMetadata` of a request that may not know the digest. -/
structure ObjectHead where
  key : JsString
  byteLength : Nat
  mediaType : JsString
  digest : Option JsString

/-- A stored object; only an inspection gives the entity tag. -/
structure InspectedObject where
  key : JsString
  byteLength : Nat
  mediaType : JsString
  digest : JsString
  etag : Option JsString

def octetStream : JsString := js "application/octet-stream"

section Methods

variable (redactSensitive : JsString → JsString)

/-- A request whose error is mapped. -/
def sendMapped (request : Request) (fallbackMessage : JsString) : S3Prog request.Output :=
  (send request).catchError fun thrown =>
    .throw (.storage (mapProviderError redactSensitive fallbackMessage thrown))

def inspectObject (key : JsString) : S3Prog InspectedObject := do
  let result ← sendMapped redactSensitive (.getObject key) (js "Failed to inspect object")
  match result.body with
  | none => .throw (.storage ⟨some "permanent",
      js "Storage adapter received an object without a body"⟩)
  | some (.error error) => .throw (.provider error)
  | some (.ok bytes) =>
    return ⟨key, bytes.length, result.contentType.getD octetStream, sha256 bytes,
      result.etag.filter (!·.isEmpty)⟩

def verifyCommittedObject (key digest : JsString) (byteLength : Int) : S3Prog InspectedObject := do
  let committed ← inspectObject redactSensitive key
  if committed.digest ≠ digest ∨ (committed.byteLength : Int) ≠ byteLength then
    .throw (.storage ⟨some "conflict",
      js "Canonical object conflicts with the immutable commit declaration"⟩)
  else return committed

def deleteTemporary (key : JsString) : S3Prog Unit :=
  if !isTemporaryKey key then .throw (.storage notTemporary)
  else sendMapped redactSensitive (.deleteObject key) (js "Failed to delete temporary object")

def head (key : JsString) : S3Prog ObjectHead := do
  let result ← sendMapped redactSensitive (.headObject key) (js "Failed to read object metadata")
  return ⟨key, result.contentLength.getD 0, result.contentType.getD octetStream,
    result.metadataSha256.filter (!·.isEmpty)⟩

/-- The upload of the library writes the object in one step; `body` is what the stream gave. -/
def writeTemporary (key : JsString) (body : Bytes) (mediaType : JsString) :
    S3Prog InspectedObject := do
  if !isTemporaryKey key then .throw (.storage notTemporary)
  else if (trim mediaType).isEmpty then
    .throw (.storage ⟨some "invalid_request", js "Invalid object media type"⟩)
  else
    sendMapped redactSensitive (.putObject key body mediaType)
      (js "Failed to write temporary object")
    return ⟨key, body.length, mediaType, sha256 body, none⟩

/-- The copy under its conditions; at a conflict the object that is there has to match. -/
def copyImmutable (key temporary etag digest : JsString) (byteLength : Int)
    (mediaType : JsString) : S3Prog Unit :=
  (send (.copyObject key temporary etag mediaType digest)).catchError fun thrown =>
    if isConditionalConflict thrown then
      (verifyCommittedObject redactSensitive key digest byteLength).bind fun _ => .pure ()
    else .throw (.storage
      (mapProviderError redactSensitive (js "Failed to commit immutable object") thrown))

/-- The part of `commitImmutable` after the temporary object was inspected. -/
def commitInspected (key temporary : JsString) (inspected : InspectedObject) (digest : JsString)
    (byteLength : Int) (mediaType : JsString) : S3Prog InspectedObject :=
  if inspected.digest ≠ digest ∨ (inspected.byteLength : Int) ≠ byteLength ∨
      inspected.mediaType ≠ mediaType then
    .throw (.storage ⟨some "invalid_request",
      js "Temporary object does not match the immutable commit declaration"⟩)
  else
    match inspected.etag with
    | none => .throw (.storage ⟨some "permanent",
        js "Temporary object has no entity tag for an immutable copy"⟩)
    | some etag => do
      let existing ← Prog.attempt do
        let committed ← verifyCommittedObject redactSensitive key digest byteLength
        deleteTemporary redactSensitive temporary
        return committed
      match existing with
      | .ok committed => return committed
      | .error thrown =>
        if !isMissingError thrown then .throw thrown
        else
          copyImmutable redactSensitive key temporary etag digest byteLength mediaType
          deleteTemporary redactSensitive temporary
          let committed ← head redactSensitive key
          return ⟨committed.key, committed.byteLength, committed.mediaType, digest, none⟩

def commitImmutable (temporary workspaceId digest : JsString) (byteLength : Int)
    (mediaType : JsString) : S3Prog InspectedObject :=
  if !isTemporaryKey temporary then .throw (.storage notTemporary)
  else if ¬ (0 ≤ byteLength ∧ byteLength < 2 ^ 53) then
    .throw (.storage ⟨some "invalid_request", js "Invalid object byte length"⟩)
  else if (trim mediaType).isEmpty then
    .throw (.storage ⟨some "invalid_request", js "Invalid object media type"⟩)
  else
    match canonicalObjectKey workspaceId digest with
    | none => .throw (.storage ⟨none, canonicalKeyMessage workspaceId⟩)
    | some key => do
      let answer ← (inspectObject redactSensitive temporary).attempt
      match answer with
      | .error thrown =>
        if isMissingError thrown then verifyCommittedObject redactSensitive key digest byteLength
        else .throw (.storage
          (mapProviderError redactSensitive (js "Failed to inspect temporary object") thrown))
      | .ok inspected =>
        commitInspected redactSensitive key temporary inspected digest byteLength mediaType

end Methods

/-! ## What the requests keep -/

section Outlines

variable {contentOf : JsString → Bytes} {redactSensitive : JsString → JsString}

/-- The bytes under a canonical key have the digest of the key. -/
def Canonical (bucket : Bucket contentOf) : Prop :=
  ∀ workspaceId digest key o, canonicalObjectKey workspaceId digest = some key →
    bucket key = some o → sha256 o.body = digest

/-- Nothing but temporary objects is replaced or gone. -/
def Kept (before after : Bucket contentOf) : Prop :=
  ∀ key o, isTemporaryKey key = false → before key = some o → after key = some o

/-- An object with the digest and the length is under the key. -/
def Present (key digest : JsString) (byteLength : Int) (bucket : Bucket contentOf) : Prop :=
  ∃ o, bucket key = some o ∧ sha256 o.body = digest ∧ (o.body.length : Int) = byteLength

/-- Uploads and deletions of temporary keys, and copies of bytes with the digest of the key. -/
def Permitted (contentOf : JsString → Bytes) : Request → Prop
  | .putObject key _ _ => isTemporaryKey key = true
  | .copyObject key _ etag _ _ => ∀ workspaceId digest,
      canonicalObjectKey workspaceId digest = some key → sha256 (contentOf etag) = digest
  | .deleteObject key => isTemporaryKey key = true
  | _ => True

theorem Kept.refl (bucket : Bucket contentOf) : Kept bucket bucket := fun _ _ _ h => h

theorem kept_put_temporary {bucket : Bucket contentOf} {key : JsString} {o : S3Object contentOf}
    (h : isTemporaryKey key = true) : Kept bucket (bucket.put key o) := by
  intro key' o' hkey' ho'
  have hne : key' ≠ key := by
    rintro rfl
    rw [h] at hkey'
    cases hkey'
  rw [Bucket.put, Function.update_of_ne hne]
  exact ho'

theorem kept_put_free {bucket : Bucket contentOf} {key : JsString} {o : S3Object contentOf}
    (h : bucket key = none) : Kept bucket (bucket.put key o) := by
  intro key' o' _ ho'
  have hne : key' ≠ key := by
    rintro rfl
    rw [h] at ho'
    cases ho'
  rw [Bucket.put, Function.update_of_ne hne]
  exact ho'

theorem kept_delete {bucket : Bucket contentOf} {key : JsString} (h : isTemporaryKey key = true) :
    Kept bucket (bucket.delete key) := by
  intro key' o' hkey' ho'
  have hne : key' ≠ key := by
    rintro rfl
    rw [h] at hkey'
    cases hkey'
  rw [Bucket.delete, Function.update_of_ne hne]
  exact ho'

theorem Canonical.put {bucket : Bucket contentOf} {key : JsString} {o : S3Object contentOf}
    (h : Canonical bucket) (ho : ∀ workspaceId digest,
      canonicalObjectKey workspaceId digest = some key → sha256 o.body = digest) :
    Canonical (bucket.put key o) := by
  intro workspaceId digest key' o' hkey' ho'
  by_cases hne : key' = key
  · subst hne
    rw [Bucket.put, Function.update_self] at ho'
    cases ho'
    exact ho workspaceId digest hkey'
  · rw [Bucket.put, Function.update_of_ne hne] at ho'
    exact h workspaceId digest key' o' hkey' ho'

theorem Canonical.delete {bucket : Bucket contentOf} {key : JsString} (h : Canonical bucket) :
    Canonical (bucket.delete key) := by
  intro workspaceId digest key' o' hkey' ho'
  by_cases hne : key' = key
  · rw [hne, Bucket.delete, Function.update_self] at ho'
    cases ho'
  · rw [Bucket.delete, Function.update_of_ne hne] at ho'
    exact h workspaceId digest key' o' hkey' ho'

/-- What serving a permitted request does to the bucket. -/
theorem Serves.permitted {bucket bucket' : Bucket contentOf} {request : Request}
    (h : Serves bucket request bucket') (hr : Permitted contentOf request)
    (hb : Canonical bucket) : Canonical bucket' ∧ Kept bucket bucket' := by
  cases h with
  | putObject o hbody htype =>
    refine ⟨hb.put ?_, kept_put_temporary hr⟩
    intro workspaceId digest hkey
    rw [Permitted, isTemporaryKey_canonicalObjectKey hkey] at hr
    cases hr
  | getObject => exact ⟨hb, .refl _⟩
  | headObject => exact ⟨hb, .refl _⟩
  | copyObject source o hfree hsource hmatch hbody htype hdigest =>
    refine ⟨hb.put ?_, kept_put_free hfree⟩
    intro workspaceId digest hkey
    rw [hbody, ← source.contentOf_etag, hmatch]
    exact hr workspaceId digest hkey
  | deleteObject => exact ⟨hb.delete, kept_delete hr⟩

theorem Present.kept {key digest : JsString} {byteLength : Int} {bucket bucket' : Bucket contentOf}
    (h : Present key digest byteLength bucket) (hkey : isTemporaryKey key = false)
    (hk : Kept bucket bucket') : Present key digest byteLength bucket' := by
  obtain ⟨o, ho, hdigest, hlength⟩ := h
  exact ⟨o, hk key o hkey ho, hdigest, hlength⟩

/-! ## Outlines of the methods -/

/-- Every call leaves canonical objects as they are, and may fail at any time. -/
def bucketSpec (ι : Type) (contentOf : JsString → Bytes) : Spec ι (Bucket contentOf) Unit where
  inv := Canonical
  guar _ bucket _ bucket' := Kept bucket bucket'
  failed _ _ := True

/-- An assertion that survives whatever keeps the objects. -/
def Lasting (A : Bucket contentOf → Prop) : Prop :=
  ∀ bucket bucket', Kept bucket bucket' → A bucket → A bucket'

/-- From `A` the program returns under `Q`, between any requests of other calls. -/
def Outline {α : Type} (ι : Type) (A : Bucket contentOf → Prop) (p : S3Prog α)
    (Q : α → Bucket contentOf → Prop) : Prop :=
  ∀ i, (bucketSpec ι contentOf).Triple (provider ι contentOf) i (fun bucket _ => A bucket) p
    fun a bucket _ => Q a bucket

/-- What an inspection tells of the bytes behind an entity tag. -/
def Inspected (contentOf : JsString → Bytes) (x : InspectedObject) : Prop :=
  ∀ etag, x.etag = some etag →
    sha256 (contentOf etag) = x.digest ∧ (contentOf etag).length = x.byteLength

variable {ι α β : Type} {A : Bucket contentOf → Prop}

theorem lasting_const (P : Prop) : Lasting fun _ : Bucket contentOf => P := fun _ _ _ h => h

theorem lasting_present {key digest : JsString} {byteLength : Int} (h : isTemporaryKey key = false) :
    Lasting fun bucket : Bucket contentOf => Present key digest byteLength bucket :=
  fun _ _ hk hp => hp.kept h hk

theorem Outline.bind {p : S3Prog α} {f : α → S3Prog β} {Q : α → Bucket contentOf → Prop}
    {Q' : β → Bucket contentOf → Prop} (h : Outline ι A p Q)
    (hf : ∀ a, Outline ι (Q a) (f a) Q') : Outline ι A (p.bind f) Q' :=
  fun i => Spec.Triple.bind (h i) fun a => hf a i

theorem Outline.pre {A' : Bucket contentOf → Prop} {p : S3Prog α}
    {Q : α → Bucket contentOf → Prop} (h : Outline ι A p Q) (hA : ∀ bucket, A' bucket → A bucket) :
    Outline ι A' p Q :=
  fun i => (h i).pre fun bucket _ _ ha => hA bucket ha

theorem Outline.post {p : S3Prog α} {Q Q' : α → Bucket contentOf → Prop} (h : Outline ι A p Q)
    (hQ : ∀ a bucket, Q a bucket → Q' a bucket) : Outline ι A p Q' :=
  fun i => (h i).post fun a bucket _ _ hq => hQ a bucket hq

theorem Outline.given {P : Prop} {p : S3Prog α} {Q : α → Bucket contentOf → Prop}
    (h : P → Outline ι A p Q) : Outline ι (fun bucket => P ∧ A bucket) p Q :=
  fun i => Spec.Triple.given fun hP => h hP i

theorem Outline.attempt {p : S3Prog α} {Q : α → Bucket contentOf → Prop} (h : Outline ι A p Q) :
    Outline ι A p.attempt fun r bucket => ∀ a, r = .ok a → Q a bucket :=
  fun i => (h i).attempt

theorem Outline.catchError {p : S3Prog α} {handler : Thrown → S3Prog α}
    {Q : α → Bucket contentOf → Prop} (h : Outline ι A p Q)
    (hh : ∀ e, Outline ι (fun _ => True) (handler e) Q) : Outline ι A (p.catchError handler) Q :=
  fun i => (h i).catchError fun e => hh e i

theorem outline_pure {a : α} {Q : α → Bucket contentOf → Prop} (h : ∀ bucket, A bucket → Q a bucket) :
    Outline ι A (.pure a : S3Prog α) Q :=
  fun _ bucket _ _ ha => h bucket ha

theorem outline_throw {thrown : Thrown} {Q : α → Bucket contentOf → Prop} :
    Outline ι A (.throw thrown : S3Prog α) Q :=
  fun _ _ _ _ _ => trivial

theorem outline_send {request : Request} (hr : Permitted contentOf request)
    {B : request.Output → Bucket contentOf → Prop} (hB : ∀ output, Lasting (B output))
    (hx : ∀ bucket bucket' output, A bucket → Serves bucket request bucket' →
      Answers bucket request output → B output bucket') : Outline ι A (send request) B := by
  intro i
  refine Spec.Triple.bind (Q := fun reply bucket _ => ∀ output, reply = .ok output → B output bucket)
    (Spec.Triple.perform _ (fun _ _ _ _ => trivial) ?_ ?_) ?_
  · intro reply j bucket _ bucket' _ _ _ hb _ hkept output ho
    exact hB output bucket bucket' hkept (hb output ho)
  · intro bucket _ reply bucket' _ hinv ha hexec
    obtain ⟨error, rfl, rfl⟩ | ⟨hserves, hanswers⟩ := hexec
    · refine ⟨hinv, .refl _, ?_⟩
      intro output ho
      cases ho
    · obtain ⟨hinv', hkept⟩ := hserves.permitted hr hinv
      exact ⟨hinv', hkept, fun output ho => hx _ _ _ ha hserves (hanswers output ho)⟩
  · intro reply
    cases reply with
    | error e => exact fun _ _ _ _ => trivial
    | ok output => exact fun bucket _ _ hb => hb output rfl

theorem outline_sendMapped {request : Request} {fallbackMessage : JsString}
    (hr : Permitted contentOf request) {B : request.Output → Bucket contentOf → Prop}
    (hB : ∀ output, Lasting (B output))
    (hx : ∀ bucket bucket' output, A bucket → Serves bucket request bucket' →
      Answers bucket request output → B output bucket') :
    Outline ι A (sendMapped redactSensitive request fallbackMessage) B :=
  (outline_send hr hB hx).catchError fun _ => outline_throw

theorem outline_inspectObject {key : JsString} :
    Outline ι A (inspectObject redactSensitive key) fun x bucket => Inspected contentOf x ∧
      (isTemporaryKey key = false → Present key x.digest x.byteLength bucket) := by
  -- The answer is about the object that the key had when the request was served.
  have hsend : Outline ι A (sendMapped redactSensitive (.getObject key)
      (js "Failed to inspect object")) fun output bucket => ∀ bytes, output.body = some (.ok bytes) →
        (∀ etag, output.etag = some etag → contentOf etag = bytes) ∧
        (isTemporaryKey key = false → Present key (sha256 bytes) bytes.length bucket) := by
    have hr : Permitted contentOf (.getObject key) := trivial
    refine outline_sendMapped hr ?_ ?_
    · intro output bucket bucket' hkept h bytes hbytes
      exact ⟨(h bytes hbytes).1, fun hkey => ((h bytes hbytes).2 hkey).kept hkey hkept⟩
    · intro bucket bucket' output _ hserves hanswers bytes hbytes
      cases hserves
      obtain ⟨o, ho, hbody, -, htag⟩ := hanswers
      rw [hbody bytes hbytes]
      constructor
      · intro etag hetag
        rw [htag etag hetag]
        exact o.contentOf_etag
      · exact fun _ => ⟨o, ho, rfl, rfl⟩
  refine hsend.bind fun output => ?_
  split
  · exact outline_throw
  · exact outline_throw
  · next bytes hbytes =>
    refine outline_pure fun bucket h => ?_
    obtain ⟨htag, hpresent⟩ := h bytes hbytes
    refine ⟨?_, hpresent⟩
    intro etag hetag
    rw [htag etag (Option.filter_eq_some_iff.mp hetag).1]
    exact ⟨rfl, rfl⟩

theorem outline_verifyCommittedObject {key digest : JsString} {byteLength : Int}
    (hkey : isTemporaryKey key = false) :
    Outline ι A (verifyCommittedObject redactSensitive key digest byteLength)
      fun _ bucket => Present key digest byteLength bucket := by
  refine outline_inspectObject.bind fun x => ?_
  split
  · exact outline_throw
  · next hmatch =>
    simp only [not_or, not_not] at hmatch
    refine outline_pure fun bucket h => ?_
    have hpresent := h.2 hkey
    rw [hmatch.1, hmatch.2] at hpresent
    exact hpresent

theorem outline_deleteTemporary {key : JsString} (hA : Lasting A) :
    Outline ι A (deleteTemporary redactSensitive key) fun _ => A := by
  cases htemp : isTemporaryKey key with
  | false =>
    rw [deleteTemporary, htemp]
    exact outline_throw
  | true =>
    have hr : Permitted contentOf (.deleteObject key) := htemp
    rw [deleteTemporary, htemp]
    refine outline_sendMapped hr (fun _ => hA) ?_
    intro bucket bucket' output ha hserves _
    cases hserves
    exact hA _ _ (kept_delete htemp) ha

theorem outline_head {key : JsString} (hA : Lasting A) :
    Outline ι A (head redactSensitive key) fun _ => A := by
  have hsend : Outline ι A (sendMapped redactSensitive (.headObject key)
      (js "Failed to read object metadata")) fun _ => A := by
    have hr : Permitted contentOf (.headObject key) := trivial
    refine outline_sendMapped hr (fun _ => hA) ?_
    intro bucket bucket' output ha hserves _
    cases hserves
    exact ha
  exact hsend.bind fun _ => outline_pure fun _ ha => ha

theorem outline_writeTemporary {key mediaType : JsString} {body : Bytes} :
    Outline ι A (writeTemporary redactSensitive key body mediaType) fun _ _ => True := by
  rw [writeTemporary]
  split
  · exact outline_throw
  · next hkey =>
    split
    · exact outline_throw
    · have hr : Permitted contentOf (.putObject key body mediaType) := by
        simpa [Permitted] using hkey
      have hsend : Outline ι A (sendMapped redactSensitive (.putObject key body mediaType)
          (js "Failed to write temporary object")) fun _ _ => True :=
        outline_sendMapped hr (fun _ => lasting_const True) fun _ _ _ _ _ _ => trivial
      exact hsend.bind fun _ => outline_pure fun _ _ => trivial

/-- After the copy, or the conflict that another copy was first in, the object is there. -/
theorem outline_copyImmutable {key temporary etag digest mediaType : JsString} {byteLength : Int}
    {workspaceId : JsString} (hkey : canonicalObjectKey workspaceId digest = some key)
    (hdigest : sha256 (contentOf etag) = digest)
    (hlength : ((contentOf etag).length : Int) = byteLength) :
    Outline ι A (copyImmutable redactSensitive key temporary etag digest byteLength mediaType)
      fun _ bucket => Present key digest byteLength bucket := by
  have hcanonical := isTemporaryKey_canonicalObjectKey hkey
  refine Outline.catchError ?_ ?_
  · refine outline_send ?_ (fun _ => lasting_present hcanonical) ?_
    · intro workspaceId' digest' hkey'
      rw [hdigest]
      exact (canonicalObjectKey_injective hkey hkey').2
    · intro bucket bucket' output _ hserves _
      cases hserves with
      | copyObject source o hfree hsource hmatch hbody htype hdigest' =>
        have hcontent : o.body = contentOf etag := by
          rw [hbody, ← source.contentOf_etag, hmatch]
        refine ⟨o, Function.update_self _ _ _, ?_, ?_⟩
        · rw [hcontent]
          exact hdigest
        · rw [hcontent]
          exact hlength
  · intro thrown
    split
    · exact (outline_verifyCommittedObject hcanonical).bind fun _ => outline_pure fun _ h => h
    · exact outline_throw

theorem outline_commitInspected {key temporary digest mediaType workspaceId : JsString}
    {inspected : InspectedObject} {byteLength : Int}
    (hkey : canonicalObjectKey workspaceId digest = some key)
    (hinspected : Inspected contentOf inspected) :
    Outline ι A (commitInspected redactSensitive key temporary inspected digest byteLength mediaType)
      fun _ bucket => Present key digest byteLength bucket := by
  have hcanonical := isTemporaryKey_canonicalObjectKey hkey
  rw [commitInspected]
  split
  · exact outline_throw
  · next hmatch =>
    simp only [not_or, not_not] at hmatch
    split
    · exact outline_throw
    · next etag hetag =>
      obtain ⟨hdigest, hlength⟩ := hinspected etag hetag
      have hexisting : Outline ι A (Prog.attempt (do
          let committed ← verifyCommittedObject redactSensitive key digest byteLength
          deleteTemporary redactSensitive temporary
          return committed)) fun r bucket => ∀ a, r = .ok a → Present key digest byteLength bucket := by
        refine Outline.attempt ((outline_verifyCommittedObject hcanonical).bind fun committed => ?_)
        exact (outline_deleteTemporary (lasting_present hcanonical)).bind fun _ =>
          outline_pure fun _ h => h
      refine hexisting.bind fun existing => ?_
      cases existing with
      | ok committed => exact outline_pure fun bucket h => h committed rfl
      | error thrown =>
        dsimp only
        split
        · exact outline_throw
        · have hcopy : Outline ι (fun bucket => ∀ a : InspectedObject,
              Except.error thrown = .ok a → Present key digest byteLength bucket)
              (copyImmutable redactSensitive key temporary etag digest byteLength mediaType)
              fun _ bucket => Present key digest byteLength bucket :=
            outline_copyImmutable hkey (hdigest.trans hmatch.1) (by rw [hlength, hmatch.2.1])
          refine hcopy.bind fun _ => ?_
          refine (outline_deleteTemporary (lasting_present hcanonical)).bind fun _ => ?_
          exact (outline_head (lasting_present hcanonical)).bind fun _ => outline_pure fun _ h => h

theorem outline_commitImmutable {temporary workspaceId digest mediaType : JsString}
    {byteLength : Int} :
    Outline ι A (commitImmutable redactSensitive temporary workspaceId digest byteLength mediaType)
      fun _ bucket => ∃ key, canonicalObjectKey workspaceId digest = some key ∧
        Present key digest byteLength bucket := by
  rw [commitImmutable]
  split
  · exact outline_throw
  · split
    · exact outline_throw
    · split
      · exact outline_throw
      · split
        · exact outline_throw
        · next key hkey =>
          have hcanonical := isTemporaryKey_canonicalObjectKey hkey
          refine outline_inspectObject.attempt.bind fun answer => ?_
          cases answer with
          | error thrown =>
            dsimp only
            split
            · refine (outline_verifyCommittedObject hcanonical).post fun _ bucket h => ?_
              exact ⟨key, hkey, h⟩
            · exact outline_throw
          | ok inspected =>
            have hcommit : Outline ι (fun bucket => Inspected contentOf inspected ∧ True)
                (commitInspected redactSensitive key temporary inspected digest byteLength mediaType)
                fun _ bucket => Present key digest byteLength bucket :=
              Outline.given fun hinspected => outline_commitInspected hkey hinspected
            refine (hcommit.pre fun bucket h => ?_).post fun _ bucket h => ⟨key, hkey, h⟩
            exact ⟨(h inspected rfl).1, trivial⟩

end Outlines

/-! ## Any number of calls -/

inductive S3Call where
  | writeTemporary (key : JsString) (body : Bytes) (mediaType : JsString)
  | commitImmutable (temporary workspaceId digest : JsString) (byteLength : Int)
    (mediaType : JsString)
  | deleteTemporary (key : JsString)

/-- The method of a call; it returns the call with the result. -/
def callProgram (redactSensitive : JsString → JsString) (call : S3Call) :
    S3Prog (S3Call × Option InspectedObject) :=
  match call with
  | .writeTemporary key body mediaType =>
    (writeTemporary redactSensitive key body mediaType).bind fun o => .pure (call, some o)
  | .commitImmutable temporary workspaceId digest byteLength mediaType =>
    (commitImmutable redactSensitive temporary workspaceId digest byteLength mediaType).bind
      fun o => .pure (call, some o)
  | .deleteTemporary key =>
    (deleteTemporary redactSensitive key).bind fun _ => .pure (call, none)

/-- Calls over a bucket whose canonical objects have their digests. -/
def s3Machine (ι : Type) [DecidableEq ι] (contentOf : JsString → Bytes)
    (redactSensitive : JsString → JsString) :
    Machine (World ι (Bucket contentOf) Unit Request Request.Reply Thrown
        (S3Call × Option InspectedObject))
      (Event ι Request Request.Reply Thrown (S3Call × Option InspectedObject)) :=
  (provider ι contentOf).machine (fun p => ∃ call : S3Call, p = callProgram redactSensitive call)
    Canonical

section Runs

variable {ι : Type} {contentOf : JsString → Bytes} {redactSensitive : JsString → JsString}

/-- What a call that returned promises of the bucket from then on. -/
def Promise (_ : ι) : S3Call × Option InspectedObject → Bucket contentOf → Prop
  | (.commitImmutable _ workspaceId digest byteLength _, _), bucket =>
    ∃ key, canonicalObjectKey workspaceId digest = some key ∧ Present key digest byteLength bucket
  | _, _ => True

theorem outline_callProgram (call : S3Call) (i : ι) :
    Outline ι (fun _ : Bucket contentOf => True) (callProgram redactSensitive call)
      fun a bucket => Promise i a bucket := by
  cases call with
  | writeTemporary key body mediaType =>
    refine Outline.bind outline_writeTemporary fun o => ?_
    refine outline_pure ?_
    exact fun _ _ => trivial
  | commitImmutable temporary workspaceId digest byteLength mediaType =>
    refine Outline.bind outline_commitImmutable fun o => ?_
    refine outline_pure ?_
    exact fun _ h => h
  | deleteTemporary key =>
    refine Outline.bind (outline_deleteTemporary (lasting_const True)) fun o => ?_
    refine outline_pure ?_
    exact fun _ _ => trivial

theorem promise_kept {i : ι} {a : S3Call × Option InspectedObject}
    {bucket bucket' : Bucket contentOf} (hkept : Kept bucket bucket') (h : Promise i a bucket) :
    Promise i a bucket' := by
  obtain ⟨call, result⟩ := a
  cases call with
  | writeTemporary key body mediaType => trivial
  | commitImmutable temporary workspaceId digest byteLength mediaType =>
    obtain ⟨key, hkey, hpresent⟩ := h
    exact ⟨key, hkey, hpresent.kept (isTemporaryKey_canonicalObjectKey hkey) hkept⟩
  | deleteTemporary key => trivial

theorem bucketSpec_sound : (bucketSpec ι contentOf).Sound (provider ι contentOf)
    fun p => ∃ call : S3Call, p = callProgram redactSensitive call where
  symm _ _ _ := trivial
  start _ := trivial
  failed _ _ _ _ _ _ _ _ _ := trivial
  programs := by
    rintro i p ⟨call, rfl⟩
    exact ⟨_, (outline_callProgram call i i).pre fun _ _ _ _ => trivial⟩

/-- However the requests of the calls interleave and fail, an object under a canonical key has the
digest that the key names and stays as it is, and a commit that returns has put its object there. -/
theorem canonical_objects_final [DecidableEq ι]
    {w w' : World ι (Bucket contentOf) Unit Request Request.Reply Thrown
      (S3Call × Option InspectedObject)}
    (hw : (s3Machine ι contentOf redactSensitive).Reachable w)
    (hleads : (s3Machine ι contentOf redactSensitive).Leads (fun _ _ => True) w w') :
    (∀ workspaceId digest key o, canonicalObjectKey workspaceId digest = some key →
      w.shared key = some o → sha256 o.body = digest ∧ w'.shared key = some o) ∧
    ∀ i temporary workspaceId digest byteLength mediaType result,
      w.procs i = .returned
        (.commitImmutable temporary workspaceId digest byteLength mediaType, result) →
      ∃ key o, canonicalObjectKey workspaceId digest = some key ∧ w.shared key = some o ∧
        sha256 o.body = digest ∧ (o.body.length : Int) = byteLength := by
  constructor
  · intro workspaceId digest key o hkey ho
    have hinv : Canonical w.shared :=
      (sound bucketSpec_sound (fun _ h => h) (fun _ _ _ => trivial) hw).inv
    refine ⟨hinv workspaceId digest key o hkey ho, ?_⟩
    have hcanonical := isTemporaryKey_canonicalObjectKey hkey
    refine bucketSpec_sound.kept (K := fun bucket => bucket key = some o) (fun _ h => h)
      (fun _ _ _ => trivial) ?_ hw hleads ho
    intro i bucket tx bucket' _ hkept hbucket
    exact hkept key o hcanonical hbucket
  · intro i temporary workspaceId digest byteLength mediaType result hreturned
    have hpromises : (bucketSpec ι contentOf).Promises (provider ι contentOf) Promise w := by
      refine promised bucketSpec_sound (fun _ h => h) (fun _ _ _ => trivial) ?_ ?_ hw
      · rintro j p ⟨call, rfl⟩
        exact (outline_callProgram call j j).pre fun _ _ _ _ => trivial
      · intro j k a bucket tx bucket' _ _ hkept h
        exact promise_kept hkept h
    obtain ⟨key, hkey, o, ho, hdigest, hlength⟩ := hpromises.returned i _ hreturned
    exact ⟨key, o, hkey, ho, hdigest, hlength⟩

end Runs

section Example

variable {ι : Type} {contentOf : JsString → Bytes} {redactSensitive : JsString → JsString}

theorem solo_send {i : ι} {bucket bucket' : Bucket contentOf} {request : Request}
    {output : request.Output} (hserves : Serves bucket request bucket')
    (hanswers : Answers bucket request output) :
    (provider ι contentOf).Solo i bucket () (send request) bucket' () output := by
  have hexec : (provider ι contentOf).exec i bucket () request (.ok output) bucket' () := by
    refine .inr ⟨hserves, ?_⟩
    intro output' houtput
    cases houtput
    exact hanswers
  exact .stmt hexec (.pure _ _ _)

theorem solo_sendMapped {i : ι} {bucket bucket' : Bucket contentOf} {request : Request}
    {fallbackMessage : JsString} {output : request.Output} (hserves : Serves bucket request bucket')
    (hanswers : Answers bucket request output) :
    (provider ι contentOf).Solo i bucket () (sendMapped redactSensitive request fallbackMessage)
      bucket' () output := (solo_send hserves hanswers).catchError

theorem solo_inspectObject {i : ι} {bucket : Bucket contentOf} {key : JsString}
    {o : S3Object contentOf} (ho : bucket key = some o) (htag : o.etag ≠ []) :
    (provider ι contentOf).Solo i bucket () (inspectObject redactSensitive key) bucket ()
      ⟨key, o.body.length, o.contentType, sha256 o.body, some o.etag⟩ := by
  have hsend : (provider ι contentOf).Solo i bucket () (sendMapped redactSensitive (.getObject key)
      (js "Failed to inspect object")) bucket ()
      (⟨some (.ok o.body), some o.contentType, some o.etag⟩ : GetObjectOutput) := by
    refine solo_sendMapped .getObject ⟨o, ho, ?_, ?_, ?_⟩
    · simp
    · simp
    · simp
  refine System.solo_bind.mpr ⟨_, _, _, hsend, ?_⟩
  have hfilter : (some o.etag).filter (!·.isEmpty) = some o.etag := by simp [htag]
  simp only [Option.getD_some, hfilter]
  exact .pure _ _ _

/-- The answer of a bucket that has no object under the key. -/
theorem ends_inspectObject {i : ι} {bucket : Bucket contentOf} {key : JsString} :
    (provider ι contentOf).Ends i bucket () (inspectObject redactSensitive key) bucket ()
      (.error (.storage ⟨some "not_found", js "Object was not found"⟩)) := by
  have hexec : (provider ι contentOf).exec i bucket () (.getObject key)
      (.error ⟨some 404, none, none⟩) bucket () := .inl ⟨_, rfl, rfl⟩
  exact .stmt hexec (.throw _ _ _)

/-- The temporary key, the bytes, and the call of a first commit. -/
def draftKey : JsString := js "workspaces/w/temporary/o"

def draftBody : Bytes := [104, 105]

def draftType : JsString := js "text/plain"

def draftContent (etag : JsString) : Bytes := if etag = js "e" then draftBody else []

def draftObject (metadataSha256 : Option JsString) : S3Object draftContent where
  body := draftBody
  contentType := draftType
  metadataSha256 := metadataSha256
  etag := js "e"
  contentOf_etag := rfl

def draftCommit : S3Call :=
  .commitImmutable draftKey (js "w") (sha256 draftBody) 2 draftType

def emptyBucket : Bucket draftContent := fun _ => none

/-- The bucket with the temporary object. -/
def draftBucket : Bucket draftContent := emptyBucket.put draftKey (draftObject none)

theorem solo_draftWrite :
    ∃ result, (provider Bool draftContent).Solo false emptyBucket ()
      (callProgram id (.writeTemporary draftKey draftBody draftType)) draftBucket () result := by
  have hsend : (provider Bool draftContent).Solo false emptyBucket ()
      (sendMapped id (.putObject draftKey draftBody draftType)
        (js "Failed to write temporary object")) draftBucket () () :=
    solo_sendMapped (.putObject (draftObject none) rfl rfl) trivial
  have hkey : isTemporaryKey draftKey = true := by decide
  have htype : (trim draftType).isEmpty = false := by decide
  have hwrite : (provider Bool draftContent).Solo false emptyBucket ()
      (writeTemporary id draftKey draftBody draftType) draftBucket ()
      ⟨draftKey, 2, draftType, sha256 draftBody, none⟩ := by
    rw [writeTemporary, hkey, htype]
    exact System.solo_bind.mpr ⟨_, _, _, hsend, .pure _ _ _⟩
  exact ⟨_, System.solo_bind.mpr ⟨_, _, _, hwrite, .pure _ _ _⟩⟩

theorem solo_draftCommit {key : JsString}
    (hkey : canonicalObjectKey (js "w") (sha256 draftBody) = some key) :
    ∃ bucket result, (provider Bool draftContent).Solo true draftBucket ()
      (callProgram id draftCommit) bucket () (draftCommit, result) := by
  have htemp : isTemporaryKey draftKey = true := by decide
  have htype : (trim draftType).isEmpty = false := by decide
  have hne : key ≠ draftKey := by
    rintro rfl
    rw [isTemporaryKey_canonicalObjectKey hkey] at htemp
    cases htemp
  have hdraft : draftBucket draftKey = some (draftObject none) := by
    rw [draftBucket, Bucket.put, Function.update_self]
  have hfree : draftBucket key = none := by
    rw [draftBucket, Bucket.put, Function.update_of_ne hne]
    rfl
  let o := draftObject (some (sha256 draftBody))
  let copied : Bucket draftContent := draftBucket.put key o
  let bucket : Bucket draftContent := copied.delete draftKey
  have ho : copied.delete draftKey key = some o := by
    rw [Bucket.delete, Function.update_of_ne hne]
    exact Function.update_self key (some o) draftBucket
  have hinspect : (provider Bool draftContent).Solo true draftBucket ()
      (inspectObject id draftKey).attempt draftBucket ()
      (.ok ⟨draftKey, 2, draftType, sha256 draftBody, some (js "e")⟩) :=
    (System.ends_ok (solo_inspectObject hdraft (by decide))).attempt
  have hverify : (provider Bool draftContent).Solo true draftBucket ()
      (Prog.attempt do
        let committed ← verifyCommittedObject id key (sha256 draftBody) 2
        deleteTemporary id draftKey
        return committed) draftBucket ()
      (.error (.storage ⟨some "not_found", js "Object was not found"⟩)) :=
    (System.Ends.bind_error (System.Ends.bind_error ends_inspectObject)).attempt
  have hcopy : (provider Bool draftContent).Solo true draftBucket ()
      (copyImmutable id key draftKey (js "e") (sha256 draftBody) 2 draftType) copied () () :=
    (solo_send (.copyObject (draftObject none) o hfree hdraft rfl rfl rfl rfl) trivial).catchError
  have hdelete : (provider Bool draftContent).Solo true copied () (deleteTemporary id draftKey)
      bucket () () := by
    rw [deleteTemporary, htemp]
    exact solo_sendMapped .deleteObject trivial
  have hhead : (provider Bool draftContent).Solo true bucket () (head id key) bucket ()
      ⟨key, 2, draftType, some (sha256 draftBody)⟩ := by
    have hsend : (provider Bool draftContent).Solo true bucket () (sendMapped id (.headObject key)
        (js "Failed to read object metadata")) bucket ()
        (⟨some 2, some draftType, some (sha256 draftBody)⟩ : HeadObjectOutput) :=
      solo_sendMapped .headObject ⟨o, ho, by simp [o, draftObject, draftBody],
        by simp [o, draftObject], rfl⟩
    have hdigest : (some (sha256 draftBody)).filter (!·.isEmpty) = some (sha256 draftBody) := by
      simp [sha256_ne_nil]
    refine System.solo_bind.mpr ⟨_, _, _, hsend, ?_⟩
    simp only [Option.getD_some, hdigest]
    exact .pure _ _ _
  have hcommit : (provider Bool draftContent).Solo true draftBucket ()
      (commitImmutable id draftKey (js "w") (sha256 draftBody) 2 draftType) bucket ()
      ⟨key, 2, draftType, sha256 draftBody, none⟩ := by
    have hlength : (0 : Int) ≤ 2 ∧ (2 : Int) < 2 ^ 53 := by decide
    rw [commitImmutable, htemp, htype, hkey, if_neg (by decide), if_neg (not_not.mpr hlength),
      if_neg (by decide)]
    refine System.solo_bind.mpr ⟨_, _, _, hinspect, ?_⟩
    dsimp only
    rw [commitInspected, if_neg (by simp)]
    refine System.solo_bind.mpr ⟨_, _, _, hverify, ?_⟩
    dsimp only
    rw [if_neg (by decide)]
    refine System.solo_bind.mpr ⟨_, _, _, hcopy, ?_⟩
    refine System.solo_bind.mpr ⟨_, _, _, hdelete, ?_⟩
    exact System.solo_bind.mpr ⟨_, _, _, hhead, .pure _ _ _⟩
  exact ⟨_, _, System.solo_bind.mpr ⟨_, _, _, hcommit, .pure _ _ _⟩⟩

/-- A write and a commit, one after the other. -/
theorem canonical_objects_final_draft :
    ∃ w : World Bool (Bucket draftContent) Unit Request Request.Reply Thrown
        (S3Call × Option InspectedObject),
      (∃ result, w.procs true = .returned (draftCommit, result)) ∧
      ∃ key o, canonicalObjectKey (js "w") (sha256 draftBody) = some key ∧ w.shared key = some o ∧
        sha256 o.body = sha256 draftBody ∧ (o.body.length : Int) = 2 := by
  obtain ⟨key, hkey⟩ : ∃ key, canonicalObjectKey (js "w") (sha256 draftBody) = some key :=
    ⟨_, if_pos (by rw [isSha256_sha256]; decide)⟩
  obtain ⟨written, hwrite⟩ := solo_draftWrite
  obtain ⟨bucket, result, hcommit⟩ := solo_draftCommit hkey
  let procs : Bool → Proc Unit Request Request.Reply Thrown (S3Call × Option InspectedObject) :=
    fun _ => .idle
  have hstart : (s3Machine Bool draftContent id).Reachable ⟨emptyBucket, procs⟩ := by
    refine .init ⟨?_, fun _ => rfl⟩
    intro workspaceId digest key o _ ho
    cases ho
  have hfirst := Machine.Reachable.step hstart (System.Step.begin _ false _ rfl
    ⟨.writeTemporary draftKey draftBody draftType, rfl⟩)
  have hwritten := hwrite.reachable procs (fun j tx p _ h => by cases h) hfirst
  have hsecond := Machine.Reachable.step hwritten
    (System.Step.begin _ true _ (by simp [procs]) ⟨draftCommit, rfl⟩)
  have hcommitted := hcommit.reachable (Function.update procs false (.returned written))
    (fun j tx p _ h => by cases j <;> simp [procs] at h) hsecond
  have hreturned : Function.update (Function.update procs false (.returned written)) true
      (.returned (draftCommit, result)) true = .returned (draftCommit, result) :=
    Function.update_self _ _ _
  refine ⟨⟨bucket, Function.update (Function.update procs false (.returned written)) true
    (.returned (draftCommit, result))⟩, ⟨result, hreturned⟩, ?_⟩
  exact (canonical_objects_final hcommitted .refl).2 true draftKey (js "w") (sha256 draftBody) 2
    draftType result hreturned

end Example

end TrustCore.S3Storage
