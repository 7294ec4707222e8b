import TrustCore.ObjectIngest
import TrustCore.Runs

/-!
# Where ingested blobs are

A blob is looked for in the storage of the binding it is recorded with. The calls of
one ingest may be routed differently, and one that finds the immutable commit stored
skips it: the blob is where its row says when such a call is routed to the binding
that the commit was made under.
-/

namespace TrustCore.ObjectIngest

open TrustCore.Utf TrustCore.Sha256 TrustCore.ObjectStorage TrustCore.Programs TrustCore.Runs

section Location

variable {κ : Type} (platform : κ) (storageOf : JsString → κ) (input : IngestInput)

/-- The storage of a binding; without one, the platform's. -/
def storageOfBinding : Option JsString → κ
  | none => platform
  | some bindingId => storageOf bindingId

/-- The routing fields name the storage of their binding. -/
def Routed (fields : RoutingFields κ) : Prop :=
  fields.storage.getD platform = storageOfBinding platform storageOf (bindingOf fields)

/-- What the router returns is so, when the profile it is given is the binding's. -/
theorem forIngest_routed {π : Type} {enabled : Bool} {createStorage : π → Option κ}
    {applicationId : Option JsString} {resolved : ResolveResult π} {fields : RoutingFields κ}
    (hprofile : ∀ bindingId profile storage, resolved.bindingId = some bindingId →
      resolved.profile = some profile → createStorage profile = some storage →
      storage = storageOf bindingId)
    (h : forIngest enabled platform createStorage applicationId resolved = .ok fields) :
    Routed platform storageOf fields := by
  rw [forIngest] at h
  split at h
  · cases h
    rfl
  · split at h
    · cases h
      rfl
    · split at h
      · rename_i u bindingId profile hbinding hresolved
        split at h
        · cases h
        · split at h
          · cases h
          · rename_i storage hstorage
            cases h
            exact hprofile _ _ _ hbinding hresolved hstorage
      · cases h
        rfl

/-- The canonical object of the bytes is in the storage. -/
def Holding (s : IngestState κ) (storage : κ) : Prop :=
  ∃ key o, canonicalObjectKey input.workspaceId (sha256 input.bytes) = some key ∧
    s.storages storage key = some o ∧ o.digest = sha256 input.bytes ∧
    o.body.length = input.bytes.length

def isBlob (row : BlobObject) : Bool := ofDigest input.workspaceId (sha256 input.bytes) row

def Catalogued (s : IngestState κ) : Prop := ∃ row ∈ s.blobs, isBlob input row = true

/-- Every blob of the bytes is in the storage of its binding. -/
def Located (s : IngestState κ) : Prop :=
  ∀ row ∈ s.blobs, isBlob input row = true →
    Holding input s (storageOfBinding platform storageOf row.storageBindingId)

def operationOf (s : IngestState κ) : Option IngestOperation :=
  s.operations.find? (ofKey input.workspaceId input.idempotencyKey)

/-- The immutable commit is among the stored checkpoints of the operation. -/
def CommitStored (s : IngestState κ) : Prop :=
  ∃ row, operationOf input s = some row ∧ .immutableObjectCommitted ∈ row.checkpoints

/-- What a call that works on `storage` keeps. -/
structure Sound (storage : κ) (s : IngestState κ) : Prop where
  located : Located platform storageOf input s
  committed : CommitStored input s → ¬ Catalogued input s → Holding input s storage

/-- The call has the stored operation before it, with the checkpoints it counts. -/
def Tracks (operationId : JsString) (p : Progress) (s : IngestState κ) : Prop :=
  ∃ row, operationOf input s = some row ∧ row.id = operationId ∧ row.checkpoints = p.completed

end Location

section Statements

variable {κ : Type} {platform : κ} {storageOf : JsString → κ} {input : IngestInput}
  {storage : κ} {s : IngestState κ} {operationId : JsString} {p : Progress}

/-- An update that leaves the keys of a row alone is an update of the operation. -/
theorem operationOf_update {set : IngestOperation → IngestOperation}
    (hset : ∀ row, (set row).workspaceId = row.workspaceId ∧
      (set row).idempotencyKey = row.idempotencyKey) :
    operationOf input
        { s with operations := updateOperation s.operations input.workspaceId operationId set } =
      (operationOf input s).map fun row =>
        if ofId input.workspaceId operationId row then set row else row := by
  simp only [operationOf, updateOperation]
  rw [List.find?_map]
  congr 2
  funext row
  simp only [Function.comp_apply]
  split
  · simp only [ofKey, hset]
  · rfl

theorem ofKey_operationOf {row : IngestOperation} (h : operationOf input s = some row) :
    row.workspaceId = input.workspaceId := by
  have hkey := List.find?_some h
  simp only [ofKey, Bool.and_eq_true, beq_iff_eq] at hkey
  exact hkey.1

/-- An update of the row that the call follows. -/
theorem Tracks.update {set : IngestOperation → IngestOperation} {completed : List IngestCheckpoint}
    (h : Tracks input operationId p s)
    (hset : ∀ row, (set row).workspaceId = row.workspaceId ∧
      (set row).idempotencyKey = row.idempotencyKey)
    (hid : ∀ row, (set row).id = row.id)
    (hcompleted : ∀ row, row.checkpoints = p.completed → (set row).checkpoints = completed)
    {p' : Progress} (hp' : p'.completed = completed) :
    Tracks input operationId p'
      { s with operations := updateOperation s.operations input.workspaceId operationId set } := by
  obtain ⟨row, hrow, hrowId, hcheckpoints⟩ := h
  refine ⟨set row, ?_, (hid row).trans hrowId, (hcompleted row hcheckpoints).trans hp'.symm⟩
  rw [operationOf_update hset, hrow, Option.map_some, if_pos]
  simp [ofId, ofKey_operationOf hrow, hrowId]

/-- An update that adds no immutable commit. -/
theorem Sound.update {set : IngestOperation → IngestOperation}
    (h : Sound platform storageOf input storage s)
    (hset : ∀ row, (set row).workspaceId = row.workspaceId ∧
      (set row).idempotencyKey = row.idempotencyKey)
    (hcommit : ∀ row, .immutableObjectCommitted ∈ (set row).checkpoints →
      .immutableObjectCommitted ∈ row.checkpoints ∨ Catalogued input s ∨ Holding input s storage) :
    Sound platform storageOf input storage
      { s with operations := updateOperation s.operations input.workspaceId operationId set } := by
  refine ⟨h.located, ?_⟩
  rintro ⟨row, hrow, hmem⟩ hcatalogued
  rw [operationOf_update hset] at hrow
  obtain ⟨old, hold, rfl⟩ := Option.map_eq_some_iff.mp hrow
  have hcases : .immutableObjectCommitted ∈ old.checkpoints ∨ Catalogued input s ∨
      Holding input s storage := by
    split at hmem
    · exact hcommit old hmem
    · exact Or.inl hmem
  rcases hcases with hstored | hcat | hholding
  · exact h.committed ⟨old, hold, hstored⟩ hcatalogued
  · exact absurd hcat hcatalogued
  · exact hholding

theorem setContext_keeps (context : IngestContext) (state : OperationState) (row : IngestOperation) :
    (setContext context state row).workspaceId = row.workspaceId ∧
      (setContext context state row).idempotencyKey = row.idempotencyKey := ⟨rfl, rfl⟩

theorem addCheckpoint_keeps (name : IngestCheckpoint) (row : IngestOperation) :
    (addCheckpoint name row).workspaceId = row.workspaceId ∧
      (addCheckpoint name row).idempotencyKey = row.idempotencyKey := by
  rw [addCheckpoint]
  split
  · exact ⟨rfl, rfl⟩
  · exact ⟨rfl, rfl⟩

theorem setFailed_keeps (error : JsString) (row : IngestOperation) :
    ((setFailed error row).workspaceId = row.workspaceId ∧
      (setFailed error row).idempotencyKey = row.idempotencyKey) ∧
      (setFailed error row).checkpoints = row.checkpoints := by
  rw [setFailed]
  split
  · exact ⟨⟨rfl, rfl⟩, rfl⟩
  · exact ⟨⟨rfl, rfl⟩, rfl⟩

/-- A change of the storages in which every canonical object stays. -/
theorem Sound.storages {storages : κ → Objects} (h : Sound platform storageOf input storage s)
    (hstays : ∀ k, Holding input s k → Holding input { s with storages } k) :
    Sound platform storageOf input storage { s with storages } :=
  ⟨fun row hrow hblob => hstays _ (h.located row hrow hblob),
    fun hcommit hcat => hstays _ (h.committed hcommit hcat)⟩

/-- A row recorded for a blob that is where its binding says. -/
theorem Sound.record {blob row : BlobObject} {blobs : List BlobObject}
    {auditEvents : AuditLog.Table} {outboxEvents : List OutboxEvent}
    (h : Sound platform storageOf input storage s) (hblob : isBlob input blob = true)
    (hholding : Holding input s (storageOfBinding platform storageOf blob.storageBindingId))
    (hrecord : recordBlob s.blobs blob = .ok (row, blobs)) :
    Sound platform storageOf input storage
      { s with
        blobs
        auditEvents
        outboxEvents } := by
  have hsame : ofDigest blob.workspaceId blob.sha256 = isBlob input := by
    funext r
    simp only [isBlob, ofDigest, Bool.and_eq_true, beq_iff_eq] at hblob ⊢
    rw [hblob.1, hblob.2]
  have hcatalogued : Located platform storageOf input { s with blobs } ∧
      Catalogued input { s with blobs } := by
    rw [recordBlob, hsame] at hrecord
    split at hrecord
    · rename_i old hold
      cases hrecord
      constructor
      · intro r hr hr'
        obtain ⟨r₀, hr₀, rfl⟩ := List.mem_map.mp hr
        split at hr'
        · rename_i hmatch
          rw [if_pos hmatch]
          cases hbinding : blob.storageBindingId with
          | none =>
            simp only [mergeBlob, hbinding, Option.orElse_eq_orElse, Option.orElse_none]
            exact h.located r₀ hr₀ hmatch
          | some bindingId =>
            simp only [mergeBlob, hbinding, Option.orElse_eq_orElse, Option.orElse_some]
            rw [hbinding] at hholding
            exact hholding
        · rename_i hmatch
          exact absurd hr' hmatch
      · have hfound : isBlob input old = true := List.find?_some hold
        refine ⟨_, List.mem_map.mpr ⟨old, List.mem_of_find?_eq_some hold, rfl⟩, ?_⟩
        rw [if_pos hfound]
        exact hfound
    · split at hrecord
      · cases hrecord
      · cases hrecord
        constructor
        · intro r hr hr'
          rcases List.mem_append.mp hr with hold | hnew
          · exact h.located r hold hr'
          · rw [List.mem_singleton.mp hnew]
            exact hholding
        · exact ⟨_, List.mem_append_right _ (List.mem_singleton_self _), hblob⟩
  exact ⟨hcatalogued.1, fun _ hnot => absurd hcatalogued.2 hnot⟩

variable [DecidableEq κ]

/-- One storage changes, and no object of it but temporary ones is lost. -/
theorem holding_update {objects : Objects} (target : κ)
    (hobjects : ∀ key o, isTemporaryKey key = false → s.storages target key = some o →
      objects key = some o) (k : κ) (h : Holding input s k) :
    Holding input { s with storages := Function.update s.storages target objects } k := by
  obtain ⟨key, o, hkey, ho, hdigest, hlength⟩ := h
  refine ⟨key, o, hkey, ?_, hdigest, hlength⟩
  by_cases hk : k = target
  · subst hk
    simp only [Function.update_self]
    exact hobjects key o (isTemporaryKey_canonicalObjectKey hkey) ho
  · simp only [Function.update_of_ne hk]
    exact ho

end Statements

section Calls

variable {κ : Type} [DecidableEq κ] {platform : κ} {storageOf : JsString → κ} {input : IngestInput}
  {storage : κ} {s : IngestState κ} {operationId : JsString} {p : Progress} {supplies : Supplies}

theorem along_required {value : Option JsString} {key : JsString} {I : IngestState κ → Prop}
    {Q : JsString → IngestState κ → Prop} (hs : I s) (hQ : ∀ a, Q a s) :
    (requiredContextString value key : IngestProg κ JsString).Along (performIngest supplies) I Q s := by
  rw [requiredContextString.eq_def]
  split
  · exact ⟨hs, hQ _⟩
  · exact hs

/-- The call stands where its operation says. -/
structure Stands (platform : κ) (storageOf : JsString → κ) (input : IngestInput) (storage : κ)
    (operationId : JsString) (p : Progress) (s : IngestState κ) : Prop where
  sound : Sound platform storageOf input storage s
  tracks : Tracks input operationId p s

/-- Saving the context changes nothing that the catalog and the storages say. -/
theorem along_saveContext {context : IngestContext} {state : OperationState} {p' : Progress}
    (hp' : p'.completed = p.completed)
    (h : Stands platform storageOf input storage operationId p s) :
    ((Prog.perform (Stmt.saveContext input.workspaceId operationId context state)).bind fun saved =>
      (Prog.ofExcept saved).bind fun _ => .pure p' : IngestProg κ Progress).Along
      (performIngest supplies) (Sound platform storageOf input storage)
      (fun q s' => q = p' ∧ Stands platform storageOf input storage operationId p' s' ∧
        ∃ operations, s' = { s with operations }) s := by
  have hset := setContext_keeps context state
  have hsaved : ∀ answer s', performIngest supplies
      (.saveContext input.workspaceId operationId context state) s = (answer, s') →
      Sound platform storageOf input storage s' ∧ (answer = .ok () →
        Tracks input operationId p' s' ∧ ∃ operations, s' = { s with operations }) := by
    intro answer s' hperform
    rw [performIngest, requireUpdated] at hperform
    split at hperform
    · cases hperform
      refine ⟨h.sound.update hset fun row hmem => Or.inl hmem, fun _ => ⟨?_, _, rfl⟩⟩
      exact h.tracks.update hset (fun _ => rfl) (fun _ hrow => hrow) hp'
    · cases hperform
      exact ⟨h.sound, fun hanswer => by cases hanswer⟩
  obtain ⟨hs', hanswer⟩ := hsaved _ _ rfl
  refine ⟨h.sound, ?_⟩
  apply Prog.Along.bind (Prog.along_ofExcept (Q := fun _ s' => Tracks input operationId p' s' ∧
    ∃ operations, s' = { s with operations }) hs' fun _ ha => hanswer ha)
  exact fun _ s₁ hs₁ h₁ => ⟨hs₁, rfl, ⟨hs₁, h₁.1⟩, h₁.2⟩

/-- A checkpoint keeps what its effect keeps and does not read the operations; the
immutable commit is only marked when the object is there. -/
theorem along_checkpoint {name : IngestCheckpoint} {effect : Progress → IngestProg κ Progress}
    {B : IngestState κ → Prop} (hB : ∀ s operations, B s → B { s with operations })
    (h : Stands platform storageOf input storage operationId p s)
    (hdone : name ∈ p.completed → B s)
    (hcommit : name = .immutableObjectCommitted → ∀ s', B s' →
      Catalogued input s' ∨ Holding input s' storage)
    (heffect : (effect p).Along (performIngest supplies) (Sound platform storageOf input storage)
      (fun p' s' => Stands platform storageOf input storage operationId p' s' ∧ B s' ∧
        p'.completed = p.completed) s) :
    (checkpoint input.workspaceId operationId name effect p).Along (performIngest supplies)
      (Sound platform storageOf input storage)
      (fun p' s' => Stands platform storageOf input storage operationId p' s' ∧ B s') s := by
  rw [checkpoint]
  split
  · rename_i hmem
    exact ⟨h.sound, h, hdone hmem⟩
  · rename_i hnew
    apply Prog.Along.bind heffect
    rintro p' s' - ⟨h', hs', hcompleted⟩
    rw [← hcompleted] at hnew
    have hset := addCheckpoint_keeps name
    have hadd : ∀ row : IngestOperation, row.checkpoints = p'.completed →
        (addCheckpoint name row).checkpoints = p'.completed ++ [name] := by
      intro row hrow
      rw [addCheckpoint, hrow, if_neg hnew]
    have hid : ∀ row, (addCheckpoint name row).id = row.id := by
      intro row
      rw [addCheckpoint]
      split
      · rfl
      · rfl
    have hmark : Sound platform storageOf input storage
        (performIngest supplies (.markCheckpoint input.workspaceId operationId name) s').2 := by
      apply h'.sound.update hset
      intro row hmem
      rw [addCheckpoint] at hmem
      split at hmem
      · exact Or.inl hmem
      · rcases List.mem_append.mp hmem with hmem | hmem
        · exact Or.inl hmem
        · exact Or.inr (hcommit (List.mem_singleton.mp hmem).symm s' hs')
    refine ⟨h'.sound, hmark, ⟨hmark, ?_⟩, hB _ _ hs'⟩
    exact h'.tracks.update hset hid hadd rfl

omit [DecidableEq κ] in
theorem Stands.progress {p' : Progress} (hp' : p'.completed = p.completed)
    (h : Stands platform storageOf input storage operationId p s) :
    Stands platform storageOf input storage operationId p' s := by
  obtain ⟨row, hrow, hid, hcheckpoints⟩ := h.tracks
  exact ⟨h.sound, row, hrow, hid, hcheckpoints.trans hp'.symm⟩

theorem along_authorise {Q : Progress → IngestState κ → Prop}
    (hs : Sound platform storageOf input storage s) (hQ : Q p s) :
    (authorise input p : IngestProg κ Progress).Along (performIngest supplies)
      (Sound platform storageOf input storage) Q s := by
  rw [authorise]
  split
  · exact hs
  · exact ⟨hs, hQ⟩

theorem along_createTemporary (h : Stands platform storageOf input storage operationId p s)
    (hcat : ¬ Catalogued input s) :
    (createTemporary storage input operationId p).Along (performIngest supplies)
      (Sound platform storageOf input storage)
      (fun p' s' => Stands platform storageOf input storage operationId p' s' ∧
        ¬ Catalogued input s' ∧ p'.completed = p.completed) s := by
  have hupload : (Prog.perform (Stmt.createTemporaryUpload storage input.workspaceId operationId) :
      IngestProg κ _).Along (performIngest supplies) (Sound platform storageOf input storage)
      (fun _ s' => s = s') s := by
    have hsame : (performIngest supplies (.createTemporaryUpload storage input.workspaceId
        operationId) s).2 = s := by
      rw [performIngest]
      split
      · rfl
      · rfl
    exact Prog.along_perform h.sound (by rw [hsame]; exact h.sound) hsame.symm
  rw [createTemporary]
  apply Prog.Along.bind hupload
  rintro answer s' - rfl
  apply Prog.Along.bind (Prog.along_ofExcept (Q := fun _ s' => s = s') h.sound fun _ _ => rfl)
  rintro key s' - rfl
  refine Prog.Along.mono (along_saveContext ?_ h) ?_
  · rfl
  · rintro q s' ⟨rfl, h', operations, rfl⟩
    exact ⟨h', hcat, rfl⟩

theorem along_receiveBytes (h : Stands platform storageOf input storage operationId p s)
    (hcat : ¬ Catalogued input s) :
    (receiveBytes storage input p).Along (performIngest supplies)
      (Sound platform storageOf input storage)
      (fun p' s' => Stands platform storageOf input storage operationId p' s' ∧
        ¬ Catalogued input s' ∧ p'.completed = p.completed) s := by
  have hwrite : ∀ key answer s', performIngest supplies
      (.writeTemporary storage key input.bytes input.mediaType) s = (answer, s') →
      Stands platform storageOf input storage operationId p s' ∧ ¬ Catalogued input s' := by
    intro key answer s' hperform
    rw [performIngest] at hperform
    cases hw : writeTemporary (s.storages storage) key input.bytes input.mediaType with
    | error e =>
      rw [hw, onStorage] at hperform
      cases hperform
      exact ⟨h, hcat⟩
    | ok result =>
      obtain ⟨htemp, o, -, ho⟩ := writeTemporary_eq_ok hw
      rw [hw, onStorage] at hperform
      cases hperform
      refine ⟨⟨h.sound.storages (holding_update storage ?_), h.tracks⟩, hcat⟩
      intro key' o' hkey' ho'
      have hne : key' ≠ key := by
        rintro rfl
        rw [htemp] at hkey'
        cases hkey'
      rw [ho, Objects.set, Function.update_of_ne hne]
      exact ho'
  rw [receiveBytes]
  apply Prog.Along.bind (along_required (Q := fun _ s' => s = s') h.sound fun _ => rfl)
  rintro key s' - rfl
  obtain ⟨h', hcat'⟩ := hwrite key _ _ rfl
  refine ⟨h.sound, ?_⟩
  apply Prog.Along.bind (Prog.along_ofExcept (Q := fun _ s' =>
    Stands platform storageOf input storage operationId p s' ∧ ¬ Catalogued input s') h'.sound
      fun _ _ => ⟨h', hcat'⟩)
  rintro received s' hs' ⟨h', hcat'⟩
  split
  · exact hs'
  · exact ⟨hs', h', hcat', rfl⟩

theorem along_verifyHash (h : Stands platform storageOf input storage operationId p s)
    (hcat : ¬ Catalogued input s) :
    (verifyHash input operationId p : IngestProg κ Progress).Along (performIngest supplies)
      (Sound platform storageOf input storage)
      (fun p' s' => Stands platform storageOf input storage operationId p' s' ∧
        ¬ Catalogued input s' ∧ p'.completed = p.completed) s := by
  rw [verifyHash]
  refine Prog.Along.mono (along_saveContext ?_ h) ?_
  · rfl
  · rintro q s' ⟨rfl, h', operations, rfl⟩
    exact ⟨h', hcat, rfl⟩

theorem along_commitObject (h : Stands platform storageOf input storage operationId p s) :
    (commitObject storage input operationId p).Along (performIngest supplies)
      (Sound platform storageOf input storage)
      (fun p' s' => Stands platform storageOf input storage operationId p' s' ∧
        Holding input s' storage ∧ p'.completed = p.completed) s := by
  have hcommit : ∀ key answer s', performIngest supplies (.commitImmutable storage key
      input.workspaceId (sha256 input.bytes) input.bytes.length input.mediaType) s = (answer, s') →
      Stands platform storageOf input storage operationId p s' ∧ ∀ stored, answer = .ok stored →
        Holding input s' storage := by
    intro key answer s' hperform
    rw [performIngest] at hperform
    cases hc : commitImmutable (s.storages storage) key input.workspaceId (sha256 input.bytes)
        input.bytes.length input.mediaType with
    | error e =>
      rw [hc, onStorage] at hperform
      cases hperform
      exact ⟨h, fun stored ha => by cases ha⟩
    | ok result =>
      obtain ⟨⟨canonical, o, hkey, ho, hdigest, hlength⟩, hstays⟩ := commitImmutable_eq_ok hc
      rw [hc, onStorage] at hperform
      cases hperform
      refine ⟨⟨h.sound.storages (holding_update storage hstays), h.tracks⟩, fun _ _ => ?_⟩
      refine ⟨canonical, o, hkey, ?_, hdigest, hlength⟩
      simp only [Function.update_self]
      exact ho
  rw [commitObject]
  apply Prog.Along.bind (along_required (Q := fun _ s' => s = s') h.sound fun _ => rfl)
  rintro key s' - rfl
  obtain ⟨h', hstored⟩ := hcommit key _ _ rfl
  refine ⟨h.sound, ?_⟩
  apply Prog.Along.bind (Prog.along_ofExcept (Q := fun _ s' =>
    Stands platform storageOf input storage operationId p s' ∧ Holding input s' storage) h'.sound
      fun stored ha => ⟨h', hstored stored ha⟩)
  rintro stored s₁ hs₁ ⟨h₁, hholding₁⟩
  split
  · exact hs₁
  · refine Prog.Along.mono (along_saveContext ?_ h₁) ?_
    · rfl
    · rintro q s₂ ⟨rfl, h₂, operations, rfl⟩
      exact ⟨h₂, hholding₁, rfl⟩

/-- A row is recorded for a blob that is where its binding says. -/
theorem along_commitVerifiedIngest {blob : BlobObject} {id actorId : JsString}
    {actorType : AuditChain.ActorType} {occurredAt : Columns.Instant} (hblob : isBlob input blob = true)
    (hholding : Holding input s (storageOfBinding platform storageOf blob.storageBindingId))
    (h : Stands platform storageOf input storage operationId p s) :
    ((Prog.perform (Stmt.commitVerifiedIngest blob id actorId actorType occurredAt)).bind fun answer =>
      (Prog.ofExcept answer).bind fun row => .pure { p with blob := some row } :
        IngestProg κ Progress).Along (performIngest supplies)
      (Sound platform storageOf input storage)
      (fun p' s' => Stands platform storageOf input storage operationId p' s' ∧ True ∧
        p'.completed = p.completed) s := by
  have hrecord : ∀ answer s', performIngest supplies
      (.commitVerifiedIngest blob id actorId actorType occurredAt) s = (answer, s') →
      Stands platform storageOf input storage operationId p s' := by
    intro answer s' hperform
    rw [performIngest] at hperform
    cases hr : commitVerifiedIngest s blob id actorId actorType occurredAt with
    | error e =>
      rw [hr] at hperform
      cases hperform
      exact h
    | ok result =>
      rw [hr] at hperform
      cases hperform
      obtain ⟨blobs, auditEvents, hrecord, -, hstate⟩ := commitVerifiedIngest_eq_ok hr
      rw [hstate]
      exact ⟨h.sound.record hblob hholding hrecord, h.tracks⟩
  have h' := hrecord _ _ rfl
  refine ⟨h.sound, ?_⟩
  apply Prog.Along.bind (Prog.along_ofExcept (Q := fun _ s' =>
    Stands platform storageOf input storage operationId p s') h'.sound fun _ _ => h')
  exact fun row s₁ hs₁ h₁ => ⟨hs₁, h₁.progress (by rfl), trivial, rfl⟩

/-- A checkpoint without an effect. -/
theorem along_mark {name : IngestCheckpoint} {B : IngestState κ → Prop}
    (hB : ∀ s operations, B s → B { s with operations })
    (h : Stands platform storageOf input storage operationId p s) (hs : B s)
    (hcommit : name = .immutableObjectCommitted → ∀ s', B s' →
      Catalogued input s' ∨ Holding input s' storage) :
    (checkpoint input.workspaceId operationId name Prog.pure p).Along (performIngest supplies)
      (Sound platform storageOf input storage)
      (fun p' s' => Stands platform storageOf input storage operationId p' s' ∧ B s') s := by
  apply along_checkpoint hB h (fun _ => hs) hcommit
  exact ⟨h.sound, h, hs, rfl⟩

theorem along_deduplicate {existing : BlobObject} (hblob : isBlob input existing = true)
    (hmem : existing ∈ s.blobs) (h : Stands platform storageOf input storage operationId p s) :
    (deduplicate input operationId existing p).Along (performIngest supplies)
      (Sound platform storageOf input storage)
      (fun p' s' => Stands platform storageOf input storage operationId p' s' ∧ True) s := by
  have hlocated : Catalogued input s ∧
      Holding input s (storageOfBinding platform storageOf existing.storageBindingId) :=
    ⟨⟨existing, hmem, hblob⟩, h.sound.located existing hmem hblob⟩
  have hB : ∀ (s : IngestState κ) operations, Catalogued input s ∧
      Holding input s (storageOfBinding platform storageOf existing.storageBindingId) →
      Catalogued input { s with operations } ∧ Holding input { s with operations }
        (storageOfBinding platform storageOf existing.storageBindingId) := fun _ _ h => h
  have hfirst : Stands platform storageOf input storage operationId
      { p with blob := some existing, deduplicated := true } s := h.progress (by rfl)
  rw [deduplicate]
  refine Prog.Along.bind (along_mark hB hfirst hlocated (by nofun)) ?_
  rintro p₁ s₁ - ⟨h₁, hlocated₁⟩
  refine Prog.Along.bind (along_mark hB h₁ hlocated₁ (by nofun)) ?_
  rintro p₂ s₂ - ⟨h₂, hlocated₂⟩
  refine Prog.Along.bind (along_mark hB h₂ hlocated₂ (by nofun)) ?_
  rintro p₃ s₃ - ⟨h₃, hlocated₃⟩
  refine Prog.Along.bind (along_mark hB h₃ hlocated₃ fun _ s' hs' => Or.inl hs'.1) ?_
  rintro p₄ s₄ - ⟨h₄, hlocated₄⟩
  have hcommit : (commitExisting input operationId existing p₄).Along (performIngest supplies)
      (Sound platform storageOf input storage)
      (fun p' s' => Stands platform storageOf input storage operationId p' s' ∧ True ∧
        p'.completed = p₄.completed) s₄ :=
    ⟨h₄.sound, along_commitVerifiedIngest hblob hlocated₄.2 h₄⟩
  refine Prog.Along.bind (along_checkpoint (fun _ _ _ => trivial) h₄ (fun _ => trivial) (by nofun) hcommit) ?_
  rintro p₅ s₅ - ⟨h₅, -⟩
  exact along_mark (fun _ _ _ => trivial) h₅ trivial (by nofun)

theorem along_commitMetadata {provider : JsString} {fields : RoutingFields κ}
    (hrouted : storage = storageOfBinding platform storageOf (bindingOf fields))
    (hholding : Holding input s storage)
    (h : Stands platform storageOf input storage operationId p s) :
    (commitMetadata provider input fields operationId p).Along (performIngest supplies)
      (Sound platform storageOf input storage)
      (fun p' s' => Stands platform storageOf input storage operationId p' s' ∧ True ∧
        p'.completed = p.completed) s := by
  refine ⟨h.sound, ?_⟩
  apply Prog.Along.bind (along_required (Q := fun _ s' => s = s') h.sound fun _ => rfl)
  rintro storageKey s' - rfl
  refine ⟨h.sound, ?_⟩
  apply along_commitVerifiedIngest
  · simp [isBlob, ofDigest]
  · rw [← hrouted]
    exact hholding
  · exact h

theorem along_store {provider : JsString} {fields : RoutingFields κ}
    (hrouted : storage = storageOfBinding platform storageOf (bindingOf fields))
    (hcat : ¬ Catalogued input s) (h : Stands platform storageOf input storage operationId p s) :
    (store provider storage input fields operationId p).Along (performIngest supplies)
      (Sound platform storageOf input storage)
      (fun p' s' => Stands platform storageOf input storage operationId p' s' ∧ True) s := by
  have hB : ∀ (s : IngestState κ) operations, ¬ Catalogued input s →
      ¬ Catalogued input { s with operations } := fun _ _ h => h
  rw [store]
  refine Prog.Along.bind (along_checkpoint hB h (fun _ => hcat) (by nofun) (along_createTemporary h hcat)) ?_
  rintro p₁ s₁ - ⟨h₁, hcat₁⟩
  refine Prog.Along.bind
    (along_checkpoint hB h₁ (fun _ => hcat₁) (by nofun) (along_receiveBytes h₁ hcat₁)) ?_
  rintro p₂ s₂ - ⟨h₂, hcat₂⟩
  refine Prog.Along.bind (along_checkpoint hB h₂ (fun _ => hcat₂) (by nofun) (along_verifyHash h₂ hcat₂)) ?_
  rintro p₃ s₃ - ⟨h₃, hcat₃⟩
  have hstored : .immutableObjectCommitted ∈ p₃.completed → Holding input s₃ storage := by
    intro hmem
    obtain ⟨row, hrow, -, hcheckpoints⟩ := h₃.tracks
    exact h₃.sound.committed ⟨row, hrow, hcheckpoints ▸ hmem⟩ hcat₃
  refine Prog.Along.bind (along_checkpoint (fun _ _ h => h) h₃ hstored (fun _ _ => Or.inr)
    (along_commitObject h₃)) ?_
  rintro p₄ s₄ - ⟨h₄, hholding⟩
  refine Prog.Along.bind (along_checkpoint (fun _ _ _ => trivial) h₄ (fun _ => trivial) (by nofun)
    (along_commitMetadata hrouted hholding h₄)) ?_
  rintro p₅ s₅ - ⟨h₅, -⟩
  exact along_mark (fun _ _ _ => trivial) h₅ trivial (by nofun)

/-- The last checkpoint and the result of the operation. -/
theorem along_complete {blob : BlobObject}
    (h : Stands platform storageOf input storage operationId p s) :
    ((Prog.perform (Stmt.complete input.workspaceId operationId blob p.deduplicated)).bind
      fun answer => (Prog.ofExcept answer).bind fun _ => .pure p : IngestProg κ Progress).Along
      (performIngest supplies) (Sound platform storageOf input storage)
      (fun p' s' => Stands platform storageOf input storage operationId p' s' ∧ True ∧
        p'.completed = p.completed) s := by
  have hset : ∀ row, (setResult blob p.deduplicated row).workspaceId = row.workspaceId ∧
      (setResult blob p.deduplicated row).idempotencyKey = row.idempotencyKey :=
    fun _ => ⟨rfl, rfl⟩
  have hupdate : ∀ answer s', performIngest supplies
      (.complete input.workspaceId operationId blob p.deduplicated) s = (answer, s') →
      Stands platform storageOf input storage operationId p s' := by
    intro answer s' hperform
    rw [performIngest, requireUpdated] at hperform
    split at hperform
    · cases hperform
      refine ⟨h.sound.update hset fun row hmem => Or.inl hmem, ?_⟩
      exact h.tracks.update hset (fun _ => rfl) (fun _ hrow => hrow) rfl
    · cases hperform
      exact h
  have h' := hupdate _ _ rfl
  refine ⟨h.sound, ?_⟩
  apply Prog.Along.bind (Prog.along_ofExcept (Q := fun _ s' =>
    Stands platform storageOf input storage operationId p s') h'.sound fun _ _ => h')
  exact fun _ s₁ hs₁ h₁ => ⟨hs₁, h₁, trivial, rfl⟩

theorem along_runIngest {provider : JsString} {fields : RoutingFields κ}
    {operation : IngestOperation}
    (hrouted : storage = storageOfBinding platform storageOf (bindingOf fields))
    (h : Stands platform storageOf input storage operation.id p s) :
    (runIngest provider storage input fields operation p).Along (performIngest supplies)
      (Sound platform storageOf input storage) (fun _ _ => True) s := by
  rw [runIngest]
  refine Prog.Along.bind (along_checkpoint (B := fun _ => True) (fun _ _ _ => trivial) h
    (fun _ => trivial) (by nofun) (along_authorise h.sound ⟨h, trivial, rfl⟩)) ?_
  rintro p₁ s₁ - ⟨h₁, -⟩
  refine ⟨h₁.sound, ?_⟩
  refine Prog.Along.bind (Q := fun p' s' =>
    Stands platform storageOf input storage operation.id p' s' ∧ True) ?_ ?_
  · simp only [performIngest]
    split
    · rename_i existing hfind
      exact along_deduplicate (List.find?_some hfind) (List.mem_of_find?_eq_some hfind) h₁
    · rename_i hfind
      have hcat : ¬ Catalogued input s₁ := by
        rintro ⟨row, hmem, hrow⟩
        exact List.find?_eq_none.mp hfind row hmem hrow
      exact along_store hrouted hcat h₁
  · rintro p₂ s₂ - ⟨h₂, -⟩
    split
    · exact h₂.sound
    · refine Prog.Along.bind (along_checkpoint (fun _ _ _ => trivial) h₂ (fun _ => trivial)
        (by nofun) (along_complete h₂)) ?_
      rintro p₃ s₃ hs₃ -
      exact ⟨hs₃, trivial⟩

/-- A call that is routed to the storage that holds what its operation has committed
keeps every blob where its row says. -/
theorem along_ingest {provider : JsString} {fields : RoutingFields κ}
    (hrouted : Routed platform storageOf fields)
    (hs : Sound platform storageOf input (fields.storage.getD platform) s) :
    (ingest platform provider input fields).Along (performIngest supplies)
      (Sound platform storageOf input (fields.storage.getD platform)) (fun _ _ => True) s := by
  have hbegin : ∀ answer s', performIngest supplies (.begin input.workspaceId input.idempotencyKey
      input.actorId (requestHashOf input)) s = (answer, s') →
      Sound platform storageOf input (fields.storage.getD platform) s' ∧
        ∀ operation, answer = .ok operation → operationOf input s' = some operation := by
    intro answer s' hperform
    rw [performIngest, begin] at hperform
    cases hfind : s.operations.find? (ofKey input.workspaceId input.idempotencyKey) with
    | some row =>
      simp only [hfind] at hperform
      cases hperform
      refine ⟨hs, ?_⟩
      rintro operation ⟨rfl⟩
      exact hfind
    | none =>
      simp only [hfind] at hperform
      by_cases hid : s.operations.any (fun row => row.id == supplies.operationId) = true
      · rw [if_pos hid] at hperform
        cases hperform
        exact ⟨hs, fun operation ha => by cases ha⟩
      · rw [if_neg hid] at hperform
        simp only at hperform
        cases hperform
        refine ⟨⟨hs.located, ?_⟩, ?_⟩
        · rintro ⟨row, hrow, hmem⟩
          rw [operationOf, List.find?_append, hfind, Option.none_or,
            List.find?_cons_of_pos (by simp [ofKey]), Option.some.injEq] at hrow
          rw [← hrow] at hmem
          cases hmem
        · rintro operation ⟨rfl⟩
          rw [operationOf, List.find?_append, hfind, Option.none_or,
            List.find?_cons_of_pos (by simp [ofKey])]
  obtain ⟨hs', hoperation⟩ := hbegin _ _ rfl
  rw [ingest]
  refine ⟨hs, ?_⟩
  apply Prog.Along.bind (Prog.along_ofExcept (Q := fun operation s' =>
    operationOf input s' = some operation) hs' hoperation)
  intro operation s₁ hs₁ hrow
  split
  · exact hs₁
  · refine Prog.Along.catchError (along_runIngest hrouted ⟨hs₁, operation, hrow, rfl, rfl⟩) ?_
    intro e s₂ hs₂
    have hfail : Sound platform storageOf input (fields.storage.getD platform)
        (performIngest supplies (.fail input.workspaceId operation.id e.message) s₂).2 := by
      rw [performIngest, requireUpdated]
      split
      · apply hs₂.update fun row => (setFailed_keeps e.message row).1
        intro row hmem
        rw [(setFailed_keeps e.message row).2] at hmem
        exact Or.inl hmem
      · exact hs₂
    exact ⟨hs₂, hfail⟩

/-- Rows of the catalog are never taken away. -/
theorem catalogued_performIngest (st : Stmt κ) (h : Catalogued input s) :
    Catalogued input (performIngest supplies st s).2 := by
  have hsame : ∀ s' : IngestState κ, s'.blobs = s.blobs → Catalogued input s' := by
    intro s' hs'
    rw [Catalogued, hs']
    exact h
  cases st with
  | commitVerifiedIngest blob operationId actorId actorType occurredAt =>
    rw [performIngest]
    cases hcommit : commitVerifiedIngest s blob operationId actorId actorType occurredAt with
    | error e => exact h
    | ok result =>
      obtain ⟨recorded, s'⟩ := result
      obtain ⟨blobs, auditEvents, hrecord, -, hstate⟩ := commitVerifiedIngest_eq_ok hcommit
      obtain ⟨row, hmem, hrow⟩ := h
      simp only [hstate]
      rw [recordBlob] at hrecord
      split at hrecord
      · cases hrecord
        refine ⟨_, List.mem_map.mpr ⟨row, hmem, rfl⟩, ?_⟩
        split
        · exact hrow
        · exact hrow
      · split at hrecord
        · cases hrecord
        · cases hrecord
          exact ⟨row, List.mem_append_left _ hmem, hrow⟩
  | begin workspaceId idempotencyKey actorId requestHash =>
    apply hsame
    rw [performIngest]
    split
    · rfl
    · rfl
  | createTemporaryUpload storage workspaceId operationId =>
    apply hsame
    rw [performIngest]
    split
    · rfl
    · rfl
  | writeTemporary storage key body mediaType =>
    apply hsame
    rw [performIngest]
    cases writeTemporary (s.storages storage) key body mediaType with
    | ok result => rfl
    | error e => rfl
  | commitImmutable storage temporary workspaceId digest byteLength mediaType =>
    apply hsame
    rw [performIngest]
    cases commitImmutable (s.storages storage) temporary workspaceId digest byteLength mediaType with
    | ok result => rfl
    | error e => rfl
  | saveContext workspaceId operationId context state =>
    apply hsame
    rw [performIngest, requireUpdated]
    split
    · rfl
    · rfl
  | complete workspaceId operationId blob deduplicated =>
    apply hsame
    rw [performIngest, requireUpdated]
    split
    · rfl
    · rfl
  | fail workspaceId operationId error =>
    apply hsame
    rw [performIngest, requireUpdated]
    split
    · rfl
    · rfl
  | markCheckpoint workspaceId operationId name => exact hsame _ rfl
  | findByHash workspaceId digest => exact hsame _ rfl
  | now => exact hsame _ rfl
  | nextId => exact hsame _ rfl

end Calls

section Runs

variable {κ : Type} [DecidableEq κ]

/-- One call of the ingest: its route, who makes it, what it draws, and the number of
statements after which it is interrupted. -/
structure Attempt (κ : Type) where
  fields : RoutingFields κ
  actorId : JsString
  supplies : Supplies
  stop : Nat

/-- The state between two calls, and the binding of the last call that began without
the immutable commit among the stored checkpoints. -/
structure IngestRun (κ : Type) where
  state : IngestState κ
  storedUnder : Option JsString

def attempted (platform : κ) (provider : JsString) (input : IngestInput) (a : Attempt κ)
    (s : IngestState κ) : IngestState κ :=
  (ingest platform provider { input with actorId := a.actorId } a.fields).runFor
    (performIngest a.supplies) a.stop s

/-- The calls of one operation, one after the other. -/
def ingestMachine (platform : κ) (storageOf : JsString → κ) (provider : JsString)
    (input : IngestInput) : Machine (IngestRun κ) (Attempt κ) where
  init r := operationOf input r.state = none ∧ Located platform storageOf input r.state
  step r a r' := Routed platform storageOf a.fields ∧
    r'.state = attempted platform provider input a r.state ∧
    (CommitStored input r.state → r'.storedUnder = r.storedUnder) ∧
    (¬ CommitStored input r.state → r'.storedUnder = bindingOf a.fields)

/-- A call that finds the immutable commit stored and the blob not catalogued has the
binding that the commit was stored under. -/
def SameBinding (input : IngestInput) (r : IngestRun κ) (a : Attempt κ) : Prop :=
  CommitStored input r.state → ¬ Catalogued input r.state → bindingOf a.fields = r.storedUnder

variable {platform : κ} {storageOf : JsString → κ} {provider : JsString} {input : IngestInput}

theorem sound_step {r r' : IngestRun κ} {a : Attempt κ}
    (h : Sound platform storageOf input (storageOfBinding platform storageOf r.storedUnder) r.state)
    (hsame : SameBinding input r a)
    (hstep : (ingestMachine platform storageOf provider input).step r a r') :
    Sound platform storageOf input (storageOfBinding platform storageOf r'.storedUnder)
      r'.state := by
  obtain ⟨hrouted, hstate, hstored, hfresh⟩ := hstep
  have hstart : Sound platform storageOf input (a.fields.storage.getD platform) r.state := by
    refine ⟨h.located, fun hcommit hcat => ?_⟩
    rw [hrouted, hsame hcommit hcat]
    exact h.committed hcommit hcat
  have hend : Sound platform storageOf input (a.fields.storage.getD platform) r'.state := by
    have hactor : Sound platform storageOf { input with actorId := a.actorId }
        (a.fields.storage.getD platform) r.state := ⟨hstart.located, hstart.committed⟩
    have hafter : Sound platform storageOf { input with actorId := a.actorId }
        (a.fields.storage.getD platform) (attempted platform provider input a r.state) :=
      (along_ingest hrouted hactor).runFor a.stop
    rw [hstate]
    exact ⟨hafter.located, hafter.committed⟩
  refine ⟨hend.located, fun hcommit hcat => ?_⟩
  have hholding := hend.committed hcommit hcat
  rw [hrouted] at hholding
  by_cases hbefore : CommitStored input r.state
  · have hcat₀ : ¬ Catalogued input r.state := by
      intro hcat₀
      apply hcat
      rw [hstate]
      exact Prog.Along.runFor (Prog.along_of_step (fun st s => catalogued_performIngest st) _ hcat₀)
        a.stop
    rw [hstored hbefore, ← hsame hbefore hcat₀]
    exact hholding
  · rw [hfresh hbefore]
    exact hholding

/-- In every run in which a call that finds the immutable commit stored is routed to
the binding it was stored under, a blob is in the storage of the binding it is
recorded with. -/
theorem blob_located_of_sameBinding {r : IngestRun κ}
    (h : (ingestMachine platform storageOf provider input).Reaches (SameBinding input) r) :
    Located platform storageOf input r.state := by
  have hsound : Sound platform storageOf input
      (storageOfBinding platform storageOf r.storedUnder) r.state := by
    induction h with
    | init hinit =>
      obtain ⟨hnone, hlocated⟩ := hinit
      refine ⟨hlocated, ?_⟩
      rintro ⟨row, hrow, -⟩
      rw [hnone] at hrow
      cases hrow
    | step _ hsame hstep ih => exact sound_step ih hsame hstep
  exact hsound.located

/-- A call is possible in every state. -/
theorem exists_step {r : IngestRun κ} {a : Attempt κ} (hrouted : Routed platform storageOf a.fields) :
    ∃ storedUnder, (ingestMachine platform storageOf provider input).step r a
      ⟨attempted platform provider input a r.state, storedUnder⟩ ∧
      (¬ CommitStored input r.state → storedUnder = bindingOf a.fields) := by
  by_cases hcommit : CommitStored input r.state
  · exact ⟨r.storedUnder, ⟨hrouted, rfl, fun _ => rfl, fun h => absurd hcommit h⟩,
      fun h => absurd hcommit h⟩
  · exact ⟨bindingOf a.fields, ⟨hrouted, rfl, fun h => absurd h hcommit, fun _ => rfl⟩,
      fun _ => rfl⟩

end Runs

section Sample

def noBytes : IngestInput := ⟨js "w", js "u", .user, js "k", [], js "m"⟩

def noState : IngestState Bool := ⟨fun _ _ => none, [], [], [], []⟩

/-- The router of one binding, whose storage is `true`; the platform's is `false`. -/
def sampleRoute (resolved : ResolveResult Unit) : Except IngestError (RoutingFields Bool) :=
  forIngest true false (fun _ => some true) (some (js "app")) resolved

def onPlatform : RoutingFields Bool := ⟨some false, none, none⟩

def onBinding : RoutingFields Bool := ⟨some true, some (js "b"), some 1⟩

theorem sampleRoute_routed {resolved : ResolveResult Unit} {fields : RoutingFields Bool}
    (h : sampleRoute resolved = .ok fields) : Routed false (fun _ => true) fields := by
  apply forIngest_routed false _ _ h
  rintro bindingId profile storage - - ⟨rfl⟩
  rfl

theorem onPlatform_routed : Routed false (fun _ => true) onPlatform := by
  have hroute : sampleRoute ⟨true, none, none, none, true, none⟩ = .ok onPlatform := rfl
  exact sampleRoute_routed hroute

theorem onBinding_routed : Routed false (fun _ => true) onBinding := by
  have hroute : sampleRoute ⟨false, some (js "b"), some 1, some (), true, none⟩ = .ok onBinding := rfl
  exact sampleRoute_routed hroute

def sampleAttempt (fields : RoutingFields Bool) (stop : Nat) : Attempt Bool :=
  ⟨fields, js "u", ⟨⟨0, Columns.epoch_bound⟩, js "i", js "o"⟩, stop⟩

/-- A call that is interrupted right after the immutable commit is stored, and the
call after it. -/
def twice (first second : RoutingFields Bool) : IngestState Bool :=
  attempted false (js "p") noBytes (sampleAttempt second 20)
    (attempted false (js "p") noBytes (sampleAttempt first 13) noState)

def hasBlob (s : IngestState Bool) (bindingId : Option JsString) : Bool :=
  s.blobs.any fun row => isBlob noBytes row && row.storageBindingId == bindingId

abbrev sampleMachine : Machine (IngestRun Bool) (Attempt Bool) :=
  ingestMachine false (fun _ => true) (js "p") noBytes

theorem noState_init : sampleMachine.init ⟨noState, none⟩ := ⟨rfl, fun _ h => by cases h⟩

theorem noState_not_stored : ¬ CommitStored noBytes noState := by
  rintro ⟨row, hrow, -⟩
  cases hrow

/-- The run of both calls. -/
theorem twice_reaches {guard : IngestRun Bool → Attempt Bool → Prop} {first second : RoutingFields Bool}
    (hfirst : Routed false (fun _ => true) first) (hsecond : Routed false (fun _ => true) second)
    (hguard₁ : guard ⟨noState, none⟩ (sampleAttempt first 13))
    (hguard₂ : ∀ s, guard ⟨s, bindingOf first⟩ (sampleAttempt second 20)) :
    ∃ u, sampleMachine.Reaches guard ⟨twice first second, u⟩ := by
  obtain ⟨u, hstep₁, hu⟩ : ∃ u, sampleMachine.step ⟨noState, none⟩ (sampleAttempt first 13)
      ⟨attempted false (js "p") noBytes (sampleAttempt first 13) noState, u⟩ ∧
      (¬ CommitStored noBytes noState → u = bindingOf first) := exists_step hfirst
  obtain ⟨v, hstep₂, -⟩ : ∃ v, sampleMachine.step ⟨attempted false (js "p") noBytes
      (sampleAttempt first 13) noState, u⟩ (sampleAttempt second 20) ⟨twice first second, v⟩ ∧
      (¬ CommitStored noBytes _ → v = bindingOf second) := exists_step hsecond
  refine ⟨v, .step (.step (.init noState_init) hguard₁ hstep₁) ?_ hstep₂⟩
  rw [hu noState_not_stored]
  exact hguard₂ _

/-- Both calls go to the binding, and the blob is there. -/
theorem blob_located_same_binding : ∃ r, sampleMachine.Reaches (SameBinding noBytes) r ∧
    hasBlob r.state (some (js "b")) = true ∧ Located false (fun _ => true) noBytes r.state := by
  have hblob : hasBlob (twice onBinding onBinding) (some (js "b")) = true := by decide +kernel
  obtain ⟨u, hreach⟩ : ∃ u, sampleMachine.Reaches (SameBinding noBytes)
      ⟨twice onBinding onBinding, u⟩ :=
    twice_reaches onBinding_routed onBinding_routed (fun h => absurd h noState_not_stored)
      fun _ _ _ => rfl
  exact ⟨_, hreach, hblob, blob_located_of_sameBinding hreach⟩

/-- The binding is connected between the two calls: the bytes are in the platform's
storage, and the blob is recorded with the binding. -/
theorem rerouted_blob_not_located : ∃ r, sampleMachine.Reachable r ∧
    ¬ Located false (fun _ => true) noBytes r.state := by
  have hblob : hasBlob (twice onPlatform onBinding) (some (js "b")) = true ∧
      (canonicalObjectKey (js "w") (sha256 [])).all
        (fun key => ((twice onPlatform onBinding).storages true key).isNone) = true := by
    decide +kernel
  obtain ⟨u, hreach⟩ : ∃ u, sampleMachine.Reachable ⟨twice onPlatform onBinding, u⟩ :=
    twice_reaches onPlatform_routed onBinding_routed trivial fun _ => trivial
  refine ⟨_, hreach, ?_⟩
  intro hlocated
  obtain ⟨row, hmem, hrow⟩ := List.any_eq_true.mp hblob.1
  rw [Bool.and_eq_true, beq_iff_eq] at hrow
  obtain ⟨key, o, hkey, ho, -⟩ := hlocated row hmem hrow.1
  rw [hrow.2] at ho
  have habsent := hblob.2
  rw [show canonicalObjectKey (js "w") (sha256 []) = some key from hkey, Option.all_some,
    show (twice onPlatform onBinding).storages true key = some o from ho] at habsent
  cases habsent

end Sample

end TrustCore.ObjectIngest
