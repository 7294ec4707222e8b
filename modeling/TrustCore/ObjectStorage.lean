import TrustCore.Dynamic
import TrustCore.Sha256

/-!
# Object storage

`MemoryObjectStorage`, which is also the contract of the other storages: bytes are
written under a temporary key and moved to the key of their digest by
`commitImmutable`, which removes the temporary object and may be repeated.
-/

namespace TrustCore.ObjectStorage

open TrustCore.Utf TrustCore.Dynamic TrustCore.Sha256

structure StorageError where
  code : Option String
  message : JsString

/-- An object with the digest that was taken when it was written. -/
structure StoredBytes where
  body : Bytes
  mediaType : JsString
  digest : JsString
  digest_eq : digest = sha256 body
  media : trim mediaType ≠ []

/-- The object of a body that is written. -/
abbrev StoredBytes.written (body : Bytes) (mediaType : JsString) (media : trim mediaType ≠ []) :
    StoredBytes := ⟨body, mediaType, sha256 body, rfl, media⟩

abbrev Objects := JsString → Option StoredBytes

structure ObjectMetadata where
  key : JsString
  byteLength : Nat
  mediaType : JsString
  digest : JsString

def StoredBytes.metadata (o : StoredBytes) (key : JsString) : ObjectMetadata :=
  ⟨key, o.body.length, o.mediaType, o.digest⟩

def isSafeUnit (u : UInt16) : Bool :=
  decide (48 ≤ u.toNat ∧ u.toNat ≤ 57) || decide (65 ≤ u.toNat ∧ u.toNat ≤ 90) ||
    decide (97 ≤ u.toNat ∧ u.toNat ≤ 122) || u == 95 || u == 45

/-- `SAFE_ID_PATTERN`. -/
def isSafeId (s : JsString) : Bool := !s.isEmpty && s.all isSafeUnit

def workspaceRoot (workspaceId : JsString) : JsString := js "workspaces/" ++ workspaceId ++ js "/"

def canonicalObjectKey (workspaceId digest : JsString) : Option JsString :=
  if isSafeId workspaceId && isSha256 digest then
    some (workspaceRoot workspaceId ++ js "objects/" ++ digest.take 2 ++ js "/" ++ digest)
  else none

/-- The message of the error that `canonicalObjectKey` throws. -/
def canonicalKeyMessage (workspaceId : JsString) : JsString :=
  if isSafeId workspaceId then js "Invalid SHA-256" else js "Unsafe workspace identifier"

def temporaryObjectKey (workspaceId operationId : JsString) : Option JsString :=
  if isSafeId workspaceId && isSafeId operationId then
    some (workspaceRoot workspaceId ++ js "temporary/" ++ operationId)
  else none

/-- `TEMPORARY_KEY_PATTERN`. -/
def isTemporaryKey (key : JsString) : Bool :=
  match splitAt 47 key with
  | [top, workspaceId, area, operationId] =>
    top == js "workspaces" && isSafeId workspaceId && area == js "temporary" &&
      isSafeId operationId
  | _ => false

def Objects.set (objects : Objects) (key : JsString) (o : StoredBytes) : Objects :=
  Function.update objects key (some o)

def Objects.delete (objects : Objects) (key : JsString) : Objects :=
  Function.update objects key none

def notTemporary : StorageError :=
  ⟨some "invalid_request", js "Refusing to operate on a non-temporary object"⟩

def writeTemporary (objects : Objects) (key : JsString) (body : Bytes) (mediaType : JsString) :
    Except StorageError (ObjectMetadata × Objects) :=
  if !isTemporaryKey key then .error notTemporary
  else if h : trim mediaType = [] then .error ⟨some "invalid_request", js "Invalid object media type"⟩
  else
    let o : StoredBytes := .written body mediaType h
    .ok (o.metadata key, objects.set key o)

/-- The length of bytes in memory is always a safe integer. -/
def commitImmutable (objects : Objects) (temporary workspaceId digest : JsString)
    (byteLength : Nat) (mediaType : JsString) : Except StorageError (ObjectMetadata × Objects) :=
  if !isTemporaryKey temporary then .error notTemporary
  else if trim mediaType = [] then .error ⟨some "invalid_request", js "Invalid object media type"⟩
  else
    match canonicalObjectKey workspaceId digest with
    | none => .error ⟨none, canonicalKeyMessage workspaceId⟩
    | some key =>
      match objects temporary with
      | none =>
        match objects key with
        | some existing =>
          if existing.digest = digest ∧ existing.body.length = byteLength then
            .ok (existing.metadata key, objects)
          else
            .error ⟨some "not_found", js "Temporary object was not found for immutable commit"⟩
        | none => .error ⟨some "not_found", js "Temporary object was not found for immutable commit"⟩
      | some o =>
        if o.digest ≠ digest ∨ o.body.length ≠ byteLength ∨ o.mediaType ≠ mediaType then
          .error ⟨some "invalid_request",
            js "Temporary object does not match the immutable commit declaration"⟩
        else
          match objects key with
          | some existing =>
            if existing.digest ≠ digest ∨ existing.body.length ≠ byteLength then
              .error ⟨some "conflict",
                js "Canonical object conflicts with the immutable commit declaration"⟩
            else .ok (existing.metadata key, objects.delete temporary)
          | none => .ok (o.metadata key, (objects.set key o).delete temporary)

def require (objects : Objects) (key : JsString) : Except StorageError StoredBytes :=
  match objects key with
  | some o => .ok o
  | none => .error ⟨some "not_found", js "Object was not found: " ++ key⟩

def head (objects : Objects) (key : JsString) : Except StorageError ObjectMetadata :=
  match require objects key with
  | .ok o => .ok (o.metadata key)
  | .error e => .error e

/-- The bytes of the whole object. -/
def openReadStream (objects : Objects) (key : JsString) : Except StorageError Bytes :=
  match require objects key with
  | .ok o => .ok o.body
  | .error e => .error e

theorem isSafeId_ne {s : JsString} (h : isSafeId s = true) : ∀ u ∈ s, u ≠ 47 := by
  rintro u hu rfl
  simp only [isSafeId, Bool.and_eq_true, List.all_eq_true] at h
  exact absurd (h.2 _ hu) (by decide)

/-- The parts of a temporary key. -/
theorem splitAt_temporaryObjectKey {workspaceId operationId key : JsString}
    (h : temporaryObjectKey workspaceId operationId = some key) :
    isSafeId workspaceId = true ∧ isSafeId operationId = true ∧
      splitAt 47 key = [js "workspaces", workspaceId, js "temporary", operationId] := by
  rw [temporaryObjectKey] at h
  split at h
  · rename_i hsafe
    cases h
    rw [Bool.and_eq_true] at hsafe
    have htop : ∀ u ∈ js "workspaces", u ≠ 47 := by decide
    have harea : ∀ u ∈ js "temporary", u ≠ 47 := by decide
    have hkey : workspaceRoot workspaceId ++ js "temporary/" ++ operationId =
        js "workspaces" ++ 47 :: (workspaceId ++ 47 :: (js "temporary" ++ 47 :: operationId)) := by
      simp [workspaceRoot, show js "workspaces/" = js "workspaces" ++ [47] from rfl,
        show js "temporary/" = js "temporary" ++ [47] from rfl, show js "/" = [47] from rfl]
    refine ⟨hsafe.1, hsafe.2, ?_⟩
    rw [hkey, splitAt_append _ _ htop, splitAt_append _ _ (isSafeId_ne hsafe.1),
      splitAt_append _ _ harea, splitAt_last _ (isSafeId_ne hsafe.2)]
  · cases h

theorem isTemporaryKey_temporaryObjectKey {workspaceId operationId key : JsString}
    (h : temporaryObjectKey workspaceId operationId = some key) : isTemporaryKey key = true := by
  obtain ⟨hworkspace, hoperation, hsplit⟩ := splitAt_temporaryObjectKey h
  rw [isTemporaryKey, hsplit]
  simp [hworkspace, hoperation]

theorem temporaryObjectKey_ne_nil {workspaceId operationId key : JsString}
    (h : temporaryObjectKey workspaceId operationId = some key) : key ≠ [] := by
  rintro rfl
  exact absurd (isTemporaryKey_temporaryObjectKey h) (by decide)

/-- A temporary key is of one operation. -/
theorem temporaryObjectKey_injective {workspaceId operationId workspaceId' operationId' key : JsString}
    (h : temporaryObjectKey workspaceId operationId = some key)
    (h' : temporaryObjectKey workspaceId' operationId' = some key) :
    workspaceId = workspaceId' ∧ operationId = operationId' := by
  obtain ⟨-, -, hsplit⟩ := splitAt_temporaryObjectKey h
  obtain ⟨-, -, hsplit'⟩ := splitAt_temporaryObjectKey h'
  rw [hsplit] at hsplit'
  simp only [List.cons.injEq, and_true, true_and] at hsplit'
  exact hsplit'

/-- The parts of a canonical key. -/
theorem splitAt_canonicalObjectKey {workspaceId digest key : JsString}
    (h : canonicalObjectKey workspaceId digest = some key) :
    splitAt 47 key = [js "workspaces", workspaceId, js "objects", digest.take 2, digest] := by
  rw [canonicalObjectKey] at h
  split at h
  · rename_i hsafe
    cases h
    rw [Bool.and_eq_true] at hsafe
    have hhex : ∀ u ∈ digest, u ≠ 47 := by
      rintro u hu rfl
      exact absurd (isSha256_isLowerHex hsafe.2 _ hu) (by decide)
    have htop : ∀ u ∈ js "workspaces", u ≠ 47 := by decide
    have harea : ∀ u ∈ js "objects", u ≠ 47 := by decide
    have hkey : workspaceRoot workspaceId ++ js "objects/" ++ digest.take 2 ++ js "/" ++ digest =
        js "workspaces" ++ 47 :: (workspaceId ++ 47 :: (js "objects" ++ 47 ::
          (digest.take 2 ++ 47 :: digest))) := by
      simp [workspaceRoot, show js "workspaces/" = js "workspaces" ++ [47] from rfl,
        show js "objects/" = js "objects" ++ [47] from rfl, show js "/" = [47] from rfl]
    rw [hkey, splitAt_append _ _ htop, splitAt_append _ _ (isSafeId_ne hsafe.1),
      splitAt_append _ _ harea, splitAt_append _ _ fun u hu => hhex u (List.mem_of_mem_take hu),
      splitAt_last _ hhex]
  · cases h

theorem isTemporaryKey_canonicalObjectKey {workspaceId digest key : JsString}
    (h : canonicalObjectKey workspaceId digest = some key) : isTemporaryKey key = false := by
  rw [isTemporaryKey, splitAt_canonicalObjectKey h]

theorem canonicalObjectKey_ne_nil {workspaceId digest key : JsString}
    (h : canonicalObjectKey workspaceId digest = some key) : key ≠ [] := by
  rintro rfl
  rw [canonicalObjectKey] at h
  split at h
  · rw [Option.some.injEq, List.append_eq_nil_iff, List.append_eq_nil_iff] at h
    exact absurd h.1.2 (by decide)
  · cases h

/-- A canonical key is of one digest of one workspace. -/
theorem canonicalObjectKey_injective {workspaceId digest workspaceId' digest' key : JsString}
    (h : canonicalObjectKey workspaceId digest = some key)
    (h' : canonicalObjectKey workspaceId' digest' = some key) :
    workspaceId = workspaceId' ∧ digest = digest' := by
  have hsplit := splitAt_canonicalObjectKey h
  rw [splitAt_canonicalObjectKey h'] at hsplit
  simp only [List.cons.injEq, and_true, true_and] at hsplit
  exact ⟨hsplit.1.symm, hsplit.2.2.symm⟩

theorem temporary_ne_canonical {workspaceId operationId digest key key' : JsString}
    (h : temporaryObjectKey workspaceId operationId = some key)
    (h' : canonicalObjectKey workspaceId digest = some key') : key ≠ key' := by
  rintro rfl
  have htemp := isTemporaryKey_temporaryObjectKey h
  rw [isTemporaryKey_canonicalObjectKey h'] at htemp
  cases htemp

theorem writeTemporary_eq_ok {objects objects' : Objects} {key mediaType : JsString} {body : Bytes}
    {metadata : ObjectMetadata}
    (h : writeTemporary objects key body mediaType = .ok (metadata, objects')) :
    isTemporaryKey key = true ∧ ∃ o : StoredBytes, (o.body = body ∧ o.mediaType = mediaType ∧
      metadata = o.metadata key) ∧ objects' = objects.set key o := by
  rw [writeTemporary] at h
  split at h
  · cases h
  · rename_i htemp
    split at h
    · cases h
    · cases h
      exact ⟨by simpa using htemp, _, ⟨rfl, rfl, rfl⟩, rfl⟩

/-- What a commit that returns has done. -/
theorem commitImmutable_cases {objects objects' : Objects}
    {temporary workspaceId digest mediaType : JsString} {byteLength : Nat} {metadata : ObjectMetadata}
    (h : commitImmutable objects temporary workspaceId digest byteLength mediaType =
      .ok (metadata, objects')) :
    isTemporaryKey temporary = true ∧
    ∃ key o, canonicalObjectKey workspaceId digest = some key ∧ metadata = o.metadata key ∧
      o.digest = digest ∧ o.body.length = byteLength ∧
      (objects key = some o ∧ (objects' = objects ∨ objects' = objects.delete temporary) ∨
        objects key = none ∧ objects' = (objects.set key o).delete temporary) := by
  rw [commitImmutable] at h
  split at h
  · cases h
  · rename_i htemp
    rw [Bool.not_eq_true', Bool.not_eq_false] at htemp
    refine ⟨htemp, ?_⟩
    split at h
    · cases h
    · split at h
      · cases h
      · rename_i key hkey
        split at h
        · split at h
          · rename_i existing hexisting
            split at h
            · rename_i hsame
              cases h
              exact ⟨key, existing, hkey, rfl, hsame.1, hsame.2, Or.inl ⟨hexisting, Or.inl rfl⟩⟩
            · cases h
          · cases h
        · rename_i o ho
          split at h
          · cases h
          · rename_i hmatch
            simp only [not_or, not_not] at hmatch
            split at h
            · rename_i existing hexisting
              split at h
              · cases h
              · rename_i hsame
                simp only [not_or, not_not] at hsame
                cases h
                exact ⟨key, existing, hkey, rfl, hsame.1, hsame.2, Or.inl ⟨hexisting, Or.inr rfl⟩⟩
            · rename_i hnone
              cases h
              exact ⟨key, o, hkey, rfl, hmatch.1, hmatch.2.1, Or.inr ⟨hnone, rfl⟩⟩

/-- Nothing but the temporary object is gone. -/
theorem commitImmutable_keeps {objects objects' : Objects}
    {temporary workspaceId digest mediaType : JsString} {byteLength : Nat} {metadata : ObjectMetadata}
    (h : commitImmutable objects temporary workspaceId digest byteLength mediaType =
      .ok (metadata, objects')) {key : JsString} {o : StoredBytes} (hne : key ≠ temporary)
    (ho : objects key = some o) : objects' key = some o := by
  obtain ⟨-, key', o', -, -, -, -, hcases⟩ := commitImmutable_cases h
  obtain ⟨-, rfl | rfl⟩ | ⟨hnone, rfl⟩ := hcases
  · exact ho
  · rw [Objects.delete, Function.update_of_ne hne]
    exact ho
  · have hother : key ≠ key' := by
      rintro rfl
      rw [hnone] at ho
      cases ho
    rw [Objects.delete, Function.update_of_ne hne, Objects.set, Function.update_of_ne hother]
    exact ho

/-- No object is new but the canonical one. -/
theorem commitImmutable_new {objects objects' : Objects}
    {temporary workspaceId digest mediaType : JsString} {byteLength : Nat} {metadata : ObjectMetadata}
    (h : commitImmutable objects temporary workspaceId digest byteLength mediaType =
      .ok (metadata, objects')) {key : JsString} {o : StoredBytes}
    (hother : canonicalObjectKey workspaceId digest ≠ some key) (ho : objects' key = some o) :
    objects key = some o := by
  obtain ⟨-, key', o', hcanonical, -, -, -, hcases⟩ := commitImmutable_cases h
  have hdelete : ∀ objects : Objects, objects.delete temporary key = some o → objects key = some o := by
    intro objects hdelete
    by_cases hne : key = temporary
    · rw [hne, Objects.delete, Function.update_self] at hdelete
      cases hdelete
    · rw [Objects.delete, Function.update_of_ne hne] at hdelete
      exact hdelete
  obtain ⟨-, rfl | rfl⟩ | ⟨-, rfl⟩ := hcases
  · exact ho
  · exact hdelete _ ho
  · have hset := hdelete _ ho
    rw [Objects.set, Function.update_of_ne] at hset
    · exact hset
    · rintro rfl
      exact hother hcanonical

/-- The bytes are canonical, and nothing but a temporary object is gone. -/
theorem commitImmutable_eq_ok {objects objects' : Objects}
    {temporary workspaceId digest mediaType : JsString} {byteLength : Nat} {metadata : ObjectMetadata}
    (h : commitImmutable objects temporary workspaceId digest byteLength mediaType =
      .ok (metadata, objects')) :
    (∃ key o, canonicalObjectKey workspaceId digest = some key ∧ objects' key = some o ∧
      o.digest = digest ∧ o.body.length = byteLength) ∧
    ∀ key o, isTemporaryKey key = false → objects key = some o → objects' key = some o := by
  obtain ⟨htemp, key, o, hkey, -, hdigest, hlength, hcases⟩ := commitImmutable_cases h
  have hne : ∀ key, isTemporaryKey key = false → key ≠ temporary := by
    rintro key hkey rfl
    rw [htemp] at hkey
    cases hkey
  refine ⟨⟨key, o, hkey, ?_, hdigest, hlength⟩,
    fun key' o' hkey' ho' => commitImmutable_keeps h (hne key' hkey') ho'⟩
  have hcanonical := hne key (isTemporaryKey_canonicalObjectKey hkey)
  obtain ⟨ho, -⟩ | ⟨-, rfl⟩ := hcases
  · exact commitImmutable_keeps h hcanonical ho
  · rw [Objects.delete, Function.update_of_ne hcanonical, Objects.set, Function.update_self]

end TrustCore.ObjectStorage
