import TrustCore.MemoryStorage
import TrustCore.QuarantineScan

/-!
# Promotion of quarantined objects

`promoteQuarantineObject` is told the canonical place twice: as a locator, and by the workspace
and the digest from which the commit makes the key. It looks for an object at the locator, and
the commit writes to the key.
-/

namespace TrustCore.Promotion

open TrustCore.Utf TrustCore.Dynamic TrustCore.Sha256 TrustCore.ObjectStorage TrustCore.Multipart
open TrustCore.MemoryStorage TrustCore.QuarantineScan

structure PromoteQuarantineInput where
  workspaceId : JsString
  quarantine : JsString
  canonical : JsString
  digest : JsString
  byteLength : Int
  mediaType : JsString
  scanState : QuarantineScanState

/-- The declared length is that of an object by the time of the commit. -/
def promoteQuarantineObject (s : Storage) (input : PromoteQuarantineInput) :
    Except StorageError ObjectMetadata × Storage :=
  if input.scanState ≠ .accepted ∧ input.scanState ≠ .promotionPending then
    (.error (invalidRequest "Promotion requires an accepted quarantine scan state"), s)
  else if (s.objects input.canonical).isSome then
    match head s.objects input.canonical with
    | .error e => (.error e, s)
    | .ok existing =>
      if existing.byteLength = input.byteLength ∧ existing.digest = input.digest then
        (.ok existing, s)
      else (.error (conflict "Canonical destination already contains conflicting content"), s)
  else if (s.objects input.quarantine).isNone then
    (.error ⟨some "not_found", js "Quarantine object was not found"⟩, s)
  else
    match head s.objects input.quarantine with
    | .error e => (.error e, s)
    | .ok found =>
      if found.byteLength ≠ input.byteLength ∨ found.digest ≠ [] ∧ found.digest ≠ input.digest then
        (.error (invalidRequest
          "Quarantine object does not match promotion checksum declaration"), s)
      else if ¬ js "/temporary/" <:+: input.quarantine then
        (.error (invalidRequest "Promotion source must be a temporary quarantine locator"), s)
      else
        match s.commitImmutable ⟨input.quarantine, input.workspaceId, input.digest,
          input.byteLength.toNat, input.mediaType⟩ with
        | (.error e, s') => (.error e, s')
        | (.ok committed, s') =>
          if committed.digest = input.digest ∧ committed.byteLength = input.byteLength then
            (.ok committed, s')
          else
            (.error (conflict
              "Promotion destination does not match allocated canonical locator"), s')

/-! ## The commit -/

section Commit

variable {objects : Objects} {temporary workspaceId digest mediaType key : JsString}
  {byteLength : Nat} {o : StoredBytes}

/-- The commit of a temporary object to a key where nothing is in its way. -/
structure Committable (objects : Objects) (temporary digest mediaType : JsString) (byteLength : Nat)
    (o : StoredBytes) (key : JsString) : Prop where
  isTemporary : isTemporaryKey temporary = true
  digest_eq : o.digest = digest
  length_eq : o.body.length = byteLength
  mediaType_eq : o.mediaType = mediaType
  agrees : ∀ existing, objects key = some existing →
    existing.digest = digest ∧ existing.body.length = byteLength

theorem commitImmutable_of_committable (ho : objects temporary = some o)
    (hkey : canonicalObjectKey workspaceId digest = some key)
    (h : Committable objects temporary digest mediaType byteLength o key) :
    ∃ (metadata : ObjectMetadata) (objects' : Objects),
      commitImmutable objects temporary workspaceId digest byteLength mediaType =
        .ok (metadata, objects') := by
  have hmedia : trim mediaType ≠ [] := h.mediaType_eq ▸ o.media
  have hmatch : ¬ (o.digest ≠ digest ∨ o.body.length ≠ byteLength ∨ o.mediaType ≠ mediaType) := by
    simp [h.digest_eq, h.length_eq, h.mediaType_eq]
  rw [commitImmutable, h.isTemporary, if_neg (by simp), if_neg hmedia, hkey]
  simp only [ho, if_neg hmatch]
  cases hexisting : objects key with
  | none => exact ⟨_, _, rfl⟩
  | some existing =>
    obtain ⟨hdigest, hlength⟩ := h.agrees existing hexisting
    have hagrees : ¬ (existing.digest ≠ digest ∨ existing.body.length ≠ byteLength) := by
      simp [hdigest, hlength]
    simp only [if_neg hagrees]
    exact ⟨_, _, rfl⟩

theorem committable_of_commitImmutable {metadata : ObjectMetadata} {objects' : Objects}
    (ho : objects temporary = some o)
    (h : commitImmutable objects temporary workspaceId digest byteLength mediaType =
      .ok (metadata, objects')) :
    ∃ key, canonicalObjectKey workspaceId digest = some key ∧ metadata.key = key ∧
      Committable objects temporary digest mediaType byteLength o key := by
  obtain ⟨htemporary, key, o', hkey, rfl, hdigest, hlength, hcases⟩ := commitImmutable_cases h
  have hagrees : ∀ existing, objects key = some existing →
      existing.digest = digest ∧ existing.body.length = byteLength := by
    intro existing hexisting
    rcases hcases with ⟨hsome, -⟩ | ⟨hnone, -⟩
    · rw [hsome, Option.some.injEq] at hexisting
      exact hexisting ▸ ⟨hdigest, hlength⟩
    · rw [hnone] at hexisting
      cases hexisting
  have hmatch : ¬ (o.digest ≠ digest ∨ o.body.length ≠ byteLength ∨ o.mediaType ≠ mediaType) := by
    intro hwrong
    rw [commitImmutable, htemporary, if_neg (by simp), hkey] at h
    simp only [ho, if_pos hwrong] at h
    split at h
    · cases h
    · cases h
  simp only [not_or, not_not] at hmatch
  exact ⟨key, hkey, rfl, htemporary, hmatch.1, hmatch.2.1, hmatch.2.2, hagrees⟩

theorem storage_commitImmutable (s : Storage) (input : CommitInput) : s.commitImmutable input =
    match commitImmutable s.objects input.temporary input.workspaceId input.digest input.byteLength
      input.mediaType with
    | .ok (metadata, objects') => (.ok metadata, { s with objects := objects' })
    | .error e => (.error e, s) := by
  rw [Storage.commitImmutable, run_commitStatements]
  cases commitImmutable s.objects input.temporary input.workspaceId input.digest input.byteLength
    input.mediaType with
  | error e => rfl
  | ok answer => rfl

end Commit

/-! ## Temporary keys -/

theorem exists_of_splitAt {sep : UInt16} {s part next : JsString} {rest : List JsString}
    (h : splitAt sep s = part :: next :: rest) :
    ∃ tail, s = part ++ sep :: tail ∧ splitAt sep tail = next :: rest := by
  induction s generalizing part with
  | nil => cases h
  | cons u s ih =>
    rw [splitAt] at h
    by_cases hu : u = sep
    · rw [if_pos hu, List.cons.injEq] at h
      exact ⟨s, by rw [hu, ← h.1, List.nil_append], h.2⟩
    · rw [if_neg hu] at h
      cases hs : splitAt sep s with
      | nil =>
        rw [hs] at h
        cases h
      | cons first parts =>
        rw [hs, List.cons.injEq] at h
        obtain ⟨tail, rfl, htail⟩ := ih (hs.trans (congrArg (first :: ·) h.2))
        exact ⟨tail, by rw [← h.1, List.cons_append], htail⟩

/-- A key that the commit takes passes the test of the promotion. -/
theorem includes_temporary {key : JsString} (h : isTemporaryKey key = true) :
    js "/temporary/" <:+: key := by
  rw [isTemporaryKey] at h
  split at h
  · next top workspaceId area operationId hsplit =>
    simp only [Bool.and_eq_true, beq_iff_eq] at h
    obtain ⟨afterTop, rfl, hworkspace⟩ := exists_of_splitAt hsplit
    obtain ⟨afterWorkspace, rfl, harea⟩ := exists_of_splitAt hworkspace
    obtain ⟨afterArea, rfl, -⟩ := exists_of_splitAt harea
    refine ⟨top ++ 47 :: workspaceId, afterArea, ?_⟩
    simp [h.1.2, show js "/temporary/" = 47 :: js "temporary" ++ [47] from rfl]
  · cases h

/-! ## Promotions -/

/-- The commit that a promotion makes. -/
def PromoteQuarantineInput.commit (input : PromoteQuarantineInput) : CommitInput where
  temporary := input.quarantine
  workspaceId := input.workspaceId
  digest := input.digest
  byteLength := input.byteLength.toNat
  mediaType := input.mediaType

def PromoteQuarantineInput.Accepted (input : PromoteQuarantineInput) : Prop :=
  input.scanState = .accepted ∨ input.scanState = .promotionPending

/-- An object with the declared digest and length. -/
def PromoteQuarantineInput.Declares (input : PromoteQuarantineInput) (o : StoredBytes) : Prop :=
  o.digest = input.digest ∧ (o.body.length : Int) = input.byteLength

/-- The promotion commits, and not to the place that it was given. -/
structure Misplaced (s : Storage) (input : PromoteQuarantineInput) : Prop where
  accepted : input.Accepted
  free : s.objects input.canonical = none
  isTemporary : isTemporaryKey input.quarantine = true
  found : ∃ o, s.objects input.quarantine = some o ∧ input.Declares o ∧ o.mediaType = input.mediaType
  elsewhere : ∃ key, canonicalObjectKey input.workspaceId input.digest = some key ∧
    key ≠ input.canonical ∧ ∀ existing, s.objects key = some existing → input.Declares existing

/-- What a promotion is for. -/
structure Promotes (s : Storage) (input : PromoteQuarantineInput) : Prop where
  placed : ∀ metadata s', promoteQuarantineObject s input = (.ok metadata, s') →
    metadata.key = input.canonical ∧ ∃ o, s'.objects input.canonical = some o ∧ input.Declares o
  kept : ∀ e s', promoteQuarantineObject s input = (.error e, s') →
    ∀ workspaceId digest key, canonicalObjectKey workspaceId digest = some key →
      s'.objects key = s.objects key
  repeated : ∀ metadata s', promoteQuarantineObject s input = (.ok metadata, s') →
    (promoteQuarantineObject s' input).1 = .ok metadata

section Promotion

variable {s : Storage} {input : PromoteQuarantineInput} {o : StoredBytes}

theorem promote_found (haccepted : input.Accepted) (ho : s.objects input.canonical = some o)
    (hdeclared : input.Declares o) :
    promoteQuarantineObject s input = (.ok (o.metadata input.canonical), s) := by
  have hstate : ¬ (input.scanState ≠ .accepted ∧ input.scanState ≠ .promotionPending) :=
    fun h => haccepted.elim h.1 h.2
  rw [promoteQuarantineObject, if_neg hstate, if_pos (by simp [ho]), head, require, ho]
  exact if_pos ⟨hdeclared.2, hdeclared.1⟩

theorem promote_commits (haccepted : input.Accepted) (hfree : s.objects input.canonical = none)
    (ho : s.objects input.quarantine = some o) (hdeclared : input.Declares o)
    (htemporary : isTemporaryKey input.quarantine = true) {metadata : ObjectMetadata} {s' : Storage}
    (hcommit : s.commitImmutable input.commit = (.ok metadata, s'))
    (hdigest : metadata.digest = input.digest) (hlength : metadata.byteLength = input.byteLength) :
    promoteQuarantineObject s input = (.ok metadata, s') := by
  have hstate : ¬ (input.scanState ≠ .accepted ∧ input.scanState ≠ .promotionPending) :=
    fun h => haccepted.elim h.1 h.2
  have hmatch : ¬ ((o.metadata input.quarantine).byteLength ≠ input.byteLength ∨
      (o.metadata input.quarantine).digest ≠ [] ∧
        (o.metadata input.quarantine).digest ≠ input.digest) := by
    rintro (hlength | ⟨-, hdigest⟩)
    · exact hlength hdeclared.2
    · exact hdigest hdeclared.1
  rw [promoteQuarantineObject, if_neg hstate, if_neg (by simp [hfree]), if_neg (by simp [ho]), head,
    require, ho]
  change (if _ then _ else _) = _
  rw [if_neg hmatch, if_neg (not_not.mpr (includes_temporary htemporary))]
  change (match s.commitImmutable input.commit with | (.error e, s') => _ | (.ok committed, s') => _) = _
  rw [hcommit]
  exact if_pos ⟨hdigest, hlength⟩

/-- What a commit of the declared length returns is in its place. -/
theorem stored_commit {metadata : ObjectMetadata} {objects : Objects}
    (hlength : (o.body.length : Int) = input.byteLength)
    (hcommit : commitImmutable s.objects input.quarantine input.workspaceId input.digest
      input.byteLength.toNat input.mediaType = .ok (metadata, objects)) :
    ∃ o', objects metadata.key = some o' ∧ metadata = o'.metadata metadata.key ∧
      input.Declares o' := by
  obtain ⟨htemporary, key, o', hkey, rfl, hdigest, hlen, hcases⟩ := commitImmutable_cases hcommit
  have hne : key ≠ input.quarantine := by
    rintro rfl
    rw [isTemporaryKey_canonicalObjectKey hkey] at htemporary
    cases htemporary
  refine ⟨o', ?_, rfl, hdigest, by omega⟩
  rcases hcases with ⟨ho', -⟩ | ⟨-, rfl⟩
  · exact commitImmutable_keeps hcommit hne ho'
  · change ((s.objects.set key o').delete input.quarantine) key = some o'
    rw [Objects.delete, Function.update_of_ne hne, Objects.set, Function.update_self]

theorem declared_commit {metadata : ObjectMetadata} {objects : Objects}
    (hlength : (o.body.length : Int) = input.byteLength)
    (hcommit : commitImmutable s.objects input.quarantine input.workspaceId input.digest
      input.byteLength.toNat input.mediaType = .ok (metadata, objects)) :
    metadata.digest = input.digest ∧ (metadata.byteLength : Int) = input.byteLength := by
  obtain ⟨o', -, hmetadata, hdeclared⟩ := stored_commit hlength hcommit
  rw [hmetadata]
  exact hdeclared

/-- How a promotion ends. -/
inductive Ends (s : Storage) (input : PromoteQuarantineInput) :
    Except StorageError ObjectMetadata × Storage → Prop
  | refused (e : StorageError) : Ends s input (.error e, s)
  | found {o : StoredBytes} (haccepted : input.Accepted) (ho : s.objects input.canonical = some o)
      (hdeclared : input.Declares o) : Ends s input (.ok (o.metadata input.canonical), s)
  | committed {o : StoredBytes} {metadata : ObjectMetadata} {objects : Objects}
      (haccepted : input.Accepted) (hfree : s.objects input.canonical = none)
      (ho : s.objects input.quarantine = some o) (hlength : (o.body.length : Int) = input.byteLength)
      (hcommit : commitImmutable s.objects input.quarantine input.workspaceId input.digest
        input.byteLength.toNat input.mediaType = .ok (metadata, objects)) :
      Ends s input (.ok metadata, { s with objects := objects })

theorem promote_ends (s : Storage) (input : PromoteQuarantineInput) :
    Ends s input (promoteQuarantineObject s input) := by
  rw [promoteQuarantineObject]
  split
  · exact .refused _
  next hstate =>
  have haccepted : input.Accepted := by
    by_cases h : input.scanState = .accepted
    · exact .inl h
    · exact .inr (not_not.mp fun hpending => hstate ⟨h, hpending⟩)
  split
  · next hsome =>
    obtain ⟨o, ho⟩ := Option.isSome_iff_exists.mp hsome
    rw [head, require, ho]
    change Ends s input (if _ then _ else _)
    split
    · next hdeclared => exact .found haccepted ho ⟨hdeclared.2, hdeclared.1⟩
    · exact .refused _
  next hfree =>
  rw [Option.not_isSome_iff_eq_none] at hfree
  split
  · exact .refused _
  next hpresent =>
  obtain ⟨o, ho⟩ := Option.ne_none_iff_exists'.mp (mt Option.isNone_iff_eq_none.mpr hpresent)
  rw [head, require, ho]
  change Ends s input (if _ then _ else _)
  split
  · exact .refused _
  next hmatch =>
  split
  · exact .refused _
  rw [storage_commitImmutable]
  cases hcommit : commitImmutable s.objects input.quarantine input.workspaceId input.digest
    input.byteLength.toNat input.mediaType with
  | error e => exact .refused e
  | ok answer =>
    have hlength : (o.body.length : Int) = input.byteLength :=
      not_not.mp fun hne => hmatch (.inl hne)
    obtain ⟨hdigest, hcommitted⟩ := declared_commit hlength hcommit
    change Ends s input (if _ then _ else _)
    rw [if_pos ⟨hdigest, hcommitted⟩]
    exact .committed haccepted hfree ho hlength hcommit

theorem misplaced_of_commit {metadata : ObjectMetadata} {objects : Objects}
    (haccepted : input.Accepted) (hfree : s.objects input.canonical = none)
    (ho : s.objects input.quarantine = some o) (hlength : (o.body.length : Int) = input.byteLength)
    (hcommit : commitImmutable s.objects input.quarantine input.workspaceId input.digest
      input.byteLength.toNat input.mediaType = .ok (metadata, objects))
    (hne : metadata.key ≠ input.canonical) : Misplaced s input := by
  obtain ⟨key, hkey, rfl, hc⟩ := committable_of_commitImmutable ho hcommit
  refine ⟨haccepted, hfree, hc.isTemporary, ⟨o, ho, ⟨hc.digest_eq, hlength⟩, hc.mediaType_eq⟩,
    metadata.key, hkey, hne, ?_⟩
  intro existing hexisting
  obtain ⟨hdigest, hlen⟩ := hc.agrees existing hexisting
  refine ⟨hdigest, ?_⟩
  omega

theorem Misplaced.promotes_elsewhere (h : Misplaced s input) :
    ∃ metadata s', promoteQuarantineObject s input = (.ok metadata, s') ∧
      metadata.key ≠ input.canonical := by
  obtain ⟨o, ho, hdeclared, hmedia⟩ := h.found
  obtain ⟨key, hkey, hne, hagrees⟩ := h.elsewhere
  have hlength : o.body.length = input.byteLength.toNat := by
    have := hdeclared.2
    omega
  have hc : Committable s.objects input.quarantine input.digest input.mediaType
      input.byteLength.toNat o key := by
    refine ⟨h.isTemporary, hdeclared.1, hlength, hmedia, ?_⟩
    intro existing hexisting
    obtain ⟨hdigest, hlen⟩ := hagrees existing hexisting
    exact ⟨hdigest, by omega⟩
  obtain ⟨metadata, objects, hcommit⟩ := commitImmutable_of_committable ho hkey hc
  obtain ⟨key', hkey', hmetadata, -⟩ := committable_of_commitImmutable ho hcommit
  obtain ⟨hdigest, hcommitted⟩ := declared_commit hdeclared.2 hcommit
  have hstorage : s.commitImmutable input.commit = (.ok metadata, { s with objects := objects }) := by
    rw [storage_commitImmutable]
    simp only [PromoteQuarantineInput.commit, hcommit]
  refine ⟨metadata, _, promote_commits h.accepted h.free ho hdeclared h.isTemporary hstorage hdigest
    hcommitted, ?_⟩
  rw [hkey, Option.some.injEq] at hkey'
  rw [hmetadata, ← hkey']
  exact hne

theorem Misplaced.not_promotes (h : Misplaced s input) : ¬ Promotes s input := by
  intro hpromotes
  obtain ⟨metadata, s', hpromoted, hne⟩ := h.promotes_elsewhere
  exact hne (hpromotes.placed metadata s' hpromoted).1

/-- A promotion does what it is for exactly when it does not commit to another place than the one
it was given. -/
theorem promotes_iff_not_misplaced (s : Storage) (input : PromoteQuarantineInput) :
    Promotes s input ↔ ¬ Misplaced s input := by
  constructor
  · intro h hmisplaced
    exact hmisplaced.not_promotes h
  · intro hplaced
    have hends := promote_ends s input
    generalize hanswer : promoteQuarantineObject s input = answer at hends
    cases hends with
    | refused e =>
      constructor
      · intro metadata s' h
        rw [hanswer] at h
        cases h
      · intro e' s' h workspaceId digest key hkey
        rw [hanswer] at h
        cases h
        rfl
      · intro metadata s' h
        rw [hanswer] at h
        cases h
    | found haccepted ho hdeclared =>
      constructor
      · intro metadata s' h
        rw [hanswer] at h
        cases h
        exact ⟨rfl, _, ho, hdeclared⟩
      · intro e s' h
        rw [hanswer] at h
        cases h
      · intro metadata s' h
        rw [hanswer] at h
        cases h
        rw [hanswer]
    | @committed o metadata objects haccepted hfree ho hlength hcommit =>
      have hkey : metadata.key = input.canonical := by
        by_contra hne
        exact hplaced (misplaced_of_commit haccepted hfree ho hlength hcommit hne)
      obtain ⟨o', hstored, hmetadata, hdeclared⟩ := stored_commit hlength hcommit
      rw [hkey] at hstored
      constructor
      · intro metadata' s' h
        rw [hanswer] at h
        cases h
        exact ⟨hkey, o', hstored, hdeclared⟩
      · intro e s' h
        rw [hanswer] at h
        cases h
      · intro metadata' s' h
        rw [hanswer] at h
        cases h
        rw [promote_found haccepted hstored hdeclared, hmetadata, hkey]

end Promotion

section Samples

def sampleBody : Bytes := [104, 105]

def sampleObject : StoredBytes := .written sampleBody (js "text/plain") trim_textPlain

/-- One object, in quarantine. -/
def quarantined : Storage where
  objects := fun key => if key = js "workspaces/w/temporary/op" then some sampleObject else none
  multipart := fun _ => none

theorem quarantined_other {key : JsString} (h : key ≠ js "workspaces/w/temporary/op") :
    quarantined.objects key = none := if_neg h

/-- The canonical place is that of a tenant of an application. -/
def tenantPromotion : PromoteQuarantineInput where
  workspaceId := js "w"
  quarantine := js "workspaces/w/temporary/op"
  canonical := js "apps/a/tenants/t/objects/" ++ (sha256 sampleBody).take 2 ++ js "/" ++
    sha256 sampleBody
  digest := sha256 sampleBody
  byteLength := 2
  mediaType := js "text/plain"
  scanState := .accepted

theorem tenant_promotion_misplaced : ¬ Promotes quarantined tenantPromotion := by
  apply Misplaced.not_promotes
  have hkey : canonicalObjectKey (js "w") (sha256 sampleBody) = some (workspaceRoot (js "w") ++
      js "objects/" ++ (sha256 sampleBody).take 2 ++ js "/" ++ sha256 sampleBody) := by
    rw [canonicalObjectKey, if_pos]
    rw [isSha256_sha256]
    rfl
  constructor
  · exact .inl rfl
  · apply quarantined_other
    intro h
    have hhead := congrArg List.head? h
    cases hhead
  · decide
  · exact ⟨sampleObject, rfl, ⟨rfl, rfl⟩, rfl⟩
  · refine ⟨_, hkey, ?_, ?_⟩
    · intro h
      have hhead := congrArg List.head? h
      cases hhead
    · intro existing hexisting
      have hother := isTemporaryKey_canonicalObjectKey hkey
      rw [quarantined_other] at hexisting
      · cases hexisting
      · intro h
        rw [h] at hother
        revert hother
        decide

end Samples

end TrustCore.Promotion
