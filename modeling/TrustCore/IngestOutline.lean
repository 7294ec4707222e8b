import TrustCore.IngestSteps

/-!
# The outline of an ingest

Along a call of `ingest`, whatever other calls do in between: the checkpoints come in
their order, each of them with what it stands for, and a call that returns has left its
result with the operation.
-/

namespace TrustCore.ObjectIngest

open TrustCore.Utf TrustCore.Sha256 TrustCore.ObjectStorage TrustCore.Programs TrustCore.Outlines

section Checkpoints

variable {κ : Type} [DecidableEq κ] {S : Setting κ} {input : IngestInput} {operationId : JsString}
  {p : Progress}

abbrev Setting.Outline {α : Type} (S : Setting κ) (A : IngestState κ → Prop) (p : IngestProg κ α)
    (Q : α → IngestState κ → Prop) : Prop :=
  S.growth.Outline (fun s st r s' => S.guard s st ∧ ingestExec S.ids s st r s') A p Q

/-- The call has passed `n` checkpoints, and not the last one. -/
structure At (n : Nat) (p : Progress) : Prop where
  ordered : p.completed <+: ingestCheckpoints
  least : n ≤ p.completed.length
  most : p.completed.length ≤ 7

theorem At.length_eq {n : Nat} (h : At n p) {name : IngestCheckpoint}
    (hname : ingestCheckpoints[n]? = some name) (hnew : name ∉ p.completed) :
    p.completed.length = n := by
  by_contra hne
  have hlt : n < p.completed.length := lt_of_le_of_ne h.least (Ne.symm hne)
  exact hnew (mem_of_length h.ordered hname hlt)

theorem At.congr {n : Nat} (h : At n p) {p' : Progress} (hp : p'.completed = p.completed) : At n p' := by
  obtain ⟨hordered, hleast, hmost⟩ := h
  rw [← hp] at hordered hleast hmost
  exact ⟨hordered, hleast, hmost⟩

/-- The effect of a checkpoint, unless it is stored, and its mark. -/
theorem Setting.outline_checkpoint (hd : S.Distinct) (hinput : input ∈ S.inputs) {n : Nat}
    {name : IngestCheckpoint} (hname : ingestCheckpoints[n]? = some name) (hn : n < 7) (hp : At n p)
    {effect : Progress → IngestProg κ Progress} {A : IngestState κ → Prop}
    {B : Progress → IngestState κ → Prop} (hB : ∀ p, S.growth.Upward (B p))
    (hcompleted : ∀ p s, B p s → B { p with completed := p.completed ++ [name] } s)
    (hskip : name ∈ p.completed → ∀ s, S.Inv s → A s → Working input operationId p s ∧ B p s)
    (heffect : name ∉ p.completed → S.Outline A (effect p) fun p' s =>
      p'.completed = p.completed ∧ Working input operationId p' s ∧
        S.ReadyAt input operationId name s ∧ B p' s) :
    S.Outline A (checkpoint input.workspaceId operationId name effect p) fun p' s =>
      At (n + 1) p' ∧ Working input operationId p' s ∧ B p' s := by
  rw [checkpoint]
  split
  · rename_i hmem
    intro s hs hA
    obtain ⟨hwork, hB'⟩ := hskip hmem s hs hA
    exact ⟨⟨hp.ordered, length_of_mem hp.ordered hname hmem, hp.most⟩, hwork, hB'⟩
  · rename_i hnew
    refine (heffect hnew).bind fun p' => ?_
    have hlength := hp.length_eq hname hnew
    refine Growth.Outline.bind (Q := fun _ s => p'.completed = p.completed ∧
      Working input operationId { p' with completed := p'.completed ++ [name] } s ∧ B p' s) ?_ ?_
    · apply Growth.Outline.perform
      · exact fun _ => (Growth.upward_const _).and (Setting.upward_working.and (hB p'))
      · rintro s r s' hs ⟨hsame, hwork, hready, hB'⟩ ⟨-, supplies, -, hx⟩
        have hname' : ingestCheckpoints[p'.completed.length]? = some name := by
          rw [hsame, hlength]
          exact hname
        obtain ⟨hinv, hle, hworking⟩ := hs.markCheckpoint hd hinput hwork hready hname' hx
        exact ⟨hinv, hle, hsame, hworking, hB p' s s' hs hle hB'⟩
    · rintro _ s - ⟨hsame, hworking, hB'⟩
      refine ⟨⟨?_, ?_, ?_⟩, hworking, hcompleted p' s hB'⟩
      · rw [hsame]
        apply ordered_concat _ hp.ordered
        rw [hlength]
        exact hname
      · simp only [List.length_append, List.length_singleton, hsame, hlength]
        exact le_refl _
      · simp only [List.length_append, List.length_singleton, hsame, hlength]
        omega

/-- A checkpoint without an effect. -/
theorem Setting.outline_mark (hd : S.Distinct) (hinput : input ∈ S.inputs) {n : Nat}
    {name : IngestCheckpoint} (hname : ingestCheckpoints[n]? = some name) (hn : n < 7) (hp : At n p)
    {B : Progress → IngestState κ → Prop} (hB : ∀ p, S.growth.Upward (B p))
    (hcompleted : ∀ p s, B p s → B { p with completed := p.completed ++ [name] } s)
    (hready : ∀ s, S.Inv s → Working input operationId p s → B p s →
      S.ReadyAt input operationId name s) :
    S.Outline (fun s => Working input operationId p s ∧ B p s)
      (checkpoint input.workspaceId operationId name Prog.pure p) fun p' s =>
      At (n + 1) p' ∧ Working input operationId p' s ∧ B p' s := by
  apply Setting.outline_checkpoint hd hinput hname hn hp hB hcompleted
  · exact fun _ s _ h => h
  · exact fun _ s hs h => ⟨rfl, h.1, hready s hs h.1 h.2, h.2⟩

end Checkpoints

section Branches

variable {κ : Type} [DecidableEq κ] {S : Setting κ} {input : IngestInput} {operationId : JsString}
  {p : Progress}

omit [DecidableEq κ] in
theorem Working.exists_row {s : IngestState κ} (h : Working input operationId p s) :
    ∃ row ∈ s.operations, row.id = operationId ∧ Requests input row := by
  obtain ⟨row, hrow, hid, hr, -⟩ := h.row
  exact ⟨row, hrow, hid, hr⟩

/-- A statement that only reads or draws. -/
theorem Setting.outline_read {A : IngestState κ → Prop} (hA : S.growth.Upward A) {st : Stmt κ}
    {P : st.Result → Prop}
    (hx : ∀ supplies s, supplies.nextId ∈ S.ids →
      (performIngest supplies st s).2 = s ∧ P (performIngest supplies st s).1) :
    S.Outline A (Prog.perform st) fun r s => A s ∧ P r := by
  apply Growth.Outline.perform
  · exact fun r => hA.and (Growth.upward_const (P r))
  · rintro s r s' hs hA' ⟨-, supplies, hids, hperform⟩
    obtain ⟨hsame, hP⟩ := hx supplies s hids.2
    rw [hperform] at hsame hP
    simp only at hsame hP
    subst hsame
    exact ⟨hs, .refl s', hA', hP⟩

/-- A context with a temporary key is saved, and what it makes ready. -/
theorem Setting.outline_saveContext (hd : S.Distinct) (hinput : input ∈ S.inputs)
    {context : IngestContext} {name : IngestCheckpoint} (hname : name ≠ .completed)
    {A : IngestState κ → Prop} (hA : S.growth.Upward A) {key : JsString}
    (htemporary : context.temporaryKey = some key)
    (hkey : temporaryObjectKey input.workspaceId operationId = some key)
    (hstorage : ∀ key, context.storageKey = some key →
      canonicalObjectKey input.workspaceId (sha256 input.bytes) = some key)
    (hready : ∀ s row, A s → row.context = context → S.Ready s input row name) :
    S.Outline (fun s => Working input operationId p s ∧ A s)
      ((Prog.perform (Stmt.saveContext input.workspaceId operationId context (.reached name))).bind
        fun saved => (Prog.ofExcept saved).bind fun _ => .pure { p with context })
      fun p' s => p' = { p with context } ∧ Working input operationId p' s ∧
        S.ReadyAt input operationId name s ∧ A s := by
  refine Growth.Outline.bind (Q := fun answer s => Working input operationId { p with context } s ∧
    (answer = .ok () → S.ReadyAt input operationId name s) ∧ A s) ?_ ?_
  · apply Growth.Outline.perform
    · intro answer
      exact Setting.upward_working.and
        ((Growth.Upward.imp fun _ => Setting.upward_readyAt hinput name).and hA)
    · rintro s answer s' hs ⟨hwork, hA'⟩ ⟨hguard, supplies, -, hx⟩
      obtain ⟨hinv, hle, hanswer⟩ := hs.saveContext hd hinput hwork.exists_row hname htemporary hkey
        hstorage hguard hx
      have hA₁ := hA s s' hs hle hA'
      have hwork' := Setting.upward_working s s' hs hle hwork
      refine ⟨hinv, hle, ⟨hwork'.row, ?_, hstorage, hwork'.blob⟩, fun hok => ?_, hA₁⟩
      · intro key' hkey'
        rw [show context.temporaryKey = some key' from hkey'] at htemporary
        cases htemporary
        exact hkey
      · obtain ⟨row, hrow, hid, hr, hcontext⟩ := hanswer hok
        exact ⟨row, hrow, hid, hr, hready s' row hA₁ hcontext⟩
  · intro answer
    refine Growth.Outline.bind (Q := fun _ s => Working input operationId { p with context } s ∧
      S.ReadyAt input operationId name s ∧ A s) ?_ ?_
    · apply Growth.Outline.ofExcept
      intro _ hok s _ h
      exact ⟨h.1, h.2.1 hok, h.2.2⟩
    · exact fun _ s _ h => ⟨rfl, h⟩

theorem Setting.outline_required {A : IngestState κ → Prop} {value : Option JsString}
    {name : JsString} :
    S.Outline A (requiredContextString value name) fun key s => A s ∧ value = some key := by
  rw [requiredContextString.eq_def]
  split
  · exact fun s _ hA => ⟨hA, rfl⟩
  · trivial

theorem Setting.outline_createTemporary (hd : S.Distinct) (hinput : input ∈ S.inputs) :
    S.Outline (Working input operationId p) (createTemporary S.storage input operationId p)
      fun p' s => p'.completed = p.completed ∧ Working input operationId p' s ∧
        S.ReadyAt input operationId .temporaryUploadCreated s ∧
        ∃ key, p'.context.temporaryKey = some key := by
  rw [createTemporary]
  refine Growth.Outline.bind (Setting.outline_read Setting.upward_working (P := fun answer :
    Except IngestError JsString => ∀ key, answer = .ok key → temporaryObjectKey input.workspaceId operationId = some key) ?_) ?_
  · intro supplies s _
    rw [performIngest]
    split
    · rename_i key hkey
      exact ⟨rfl, fun key' hok => by cases hok; exact hkey⟩
    · exact ⟨rfl, fun key' hok => by cases hok⟩
  · intro answer
    refine Growth.Outline.bind (Q := fun key s => Working input operationId p s ∧
      temporaryObjectKey input.workspaceId operationId = some key) ?_ ?_
    · apply Growth.Outline.ofExcept
      exact fun key hok s _ h => ⟨h.1, h.2 key hok⟩
    · intro key
      refine Growth.Outline.fact (fun s _ h => h.2) fun hkey => ?_
      refine Growth.Outline.fact (fun s _ h => h.1.storageKey) fun hstorage => ?_
      refine Growth.Outline.post (Growth.Outline.pre (Setting.outline_saveContext hd hinput
        (by decide) (Growth.upward_const True) rfl hkey hstorage ?_) ?_) ?_
      · intro s row _ hcontext
        refine Or.inr ?_
        rw [hcontext]
        rfl
      · exact fun s _ h => ⟨h.1, trivial⟩
      · rintro p' s - ⟨rfl, hwork, hready, -⟩
        exact ⟨rfl, hwork, hready, key, rfl⟩

/-- The call has a temporary key. -/
def HasTemporaryKey (p : Progress) (_ : IngestState κ) : Prop :=
  ∃ key, p.context.temporaryKey = some key

omit [DecidableEq κ] in
theorem Setting.upward_hasTemporaryKey : S.growth.Upward (HasTemporaryKey p) :=
  fun _ _ _ _ h => h

theorem Setting.outline_receiveBytes (hd : S.Distinct) (hinput : input ∈ S.inputs) :
    S.Outline (Working input operationId p) (receiveBytes S.storage input p)
      fun p' s => p'.completed = p.completed ∧ Working input operationId p' s ∧
        S.ReadyAt input operationId .bytesReceived s ∧ HasTemporaryKey p' s := by
  rw [receiveBytes]
  refine Growth.Outline.bind Setting.outline_required fun key => ?_
  refine Growth.Outline.fact (fun s _ h => h.2) fun htemporary => ?_
  refine Growth.Outline.bind (Q := fun answer s => Working input operationId p s ∧
    (∀ metadata, answer = .ok metadata → S.ReadyAt input operationId .bytesReceived s)) ?_ ?_
  · apply Growth.Outline.perform
    · intro answer
      refine Setting.upward_working.and fun s s' hs hle h metadata hok => ?_
      exact Setting.upward_readyAt hinput _ s s' hs hle (h metadata hok)
    · rintro s answer s' hs ⟨hwork, -⟩ ⟨-, supplies, -, hx⟩
      obtain ⟨hinv, hle, hanswer⟩ := hs.writeTemporary hd hinput hwork.exists_row
        (hwork.temporaryKey key htemporary) hx
      have hwork' := Setting.upward_working s s' hs hle hwork
      refine ⟨hinv, hle, hwork', fun metadata hok => ?_⟩
      obtain ⟨row, hrow, hid, hr⟩ := hwork'.exists_row
      refine ⟨row, hrow, hid, hr, ?_⟩
      rw [Setting.Ready, hid]
      exact hanswer metadata hok
  · intro answer
    refine Growth.Outline.bind (Q := fun _ s => Working input operationId p s ∧
      S.ReadyAt input operationId .bytesReceived s) ?_ ?_
    · apply Growth.Outline.ofExcept
      exact fun metadata hok s _ h => ⟨h.1, h.2 metadata hok⟩
    · intro metadata
      split
      · trivial
      · exact fun s _ h => ⟨rfl, h.1, h.2, key, htemporary⟩

theorem Setting.outline_verifyHash (hd : S.Distinct) (hinput : input ∈ S.inputs) :
    S.Outline (fun s => Working input operationId p s ∧ HasTemporaryKey p s)
      (verifyHash input operationId p) fun p' s => p'.completed = p.completed ∧
        Working input operationId p' s ∧ S.ReadyAt input operationId .hashVerified s ∧
        HasTemporaryKey p' s := by
  refine Growth.Outline.fact (fun s _ h => h.2) ?_
  rintro ⟨key, htemporary⟩
  refine Growth.Outline.fact (fun s _ h => h.1.temporaryKey key htemporary) fun hkey => ?_
  refine Growth.Outline.fact (fun s _ h => h.1.storageKey) fun hstorage => ?_
  rw [verifyHash]
  refine Growth.Outline.post (Growth.Outline.pre (Setting.outline_saveContext hd hinput
    (by decide) (Growth.upward_const True) htemporary hkey hstorage ?_) ?_) ?_
  · exact fun s row _ _ => trivial
  · exact fun s _ h => ⟨h.1, trivial⟩
  · rintro p' s - ⟨rfl, hwork, hready, -⟩
    exact ⟨rfl, hwork, hready, key, htemporary⟩

theorem Setting.outline_commitObject (hd : S.Distinct) (hinput : input ∈ S.inputs) :
    S.Outline (Working input operationId p) (commitObject S.storage input operationId p)
      fun p' s => p'.completed = p.completed ∧ Working input operationId p' s ∧
        S.ReadyAt input operationId .immutableObjectCommitted s ∧ Holding input s S.storage := by
  rw [commitObject]
  refine Growth.Outline.bind Setting.outline_required fun key => ?_
  refine Growth.Outline.fact (fun s _ h => h.2) fun htemporary => ?_
  refine Growth.Outline.fact (fun s _ h => h.1.temporaryKey key htemporary) fun hkey => ?_
  refine Growth.Outline.bind (Q := fun answer s => Working input operationId p s ∧
    (∀ stored, answer = .ok stored → Holding input s S.storage ∧
      canonicalObjectKey input.workspaceId (sha256 input.bytes) = some stored.key)) ?_ ?_
  · apply Growth.Outline.perform
    · intro answer
      refine Setting.upward_working.and fun s s' hs hle h stored hok => ?_
      exact ⟨hle.holding (h stored hok).1, (h stored hok).2⟩
    · rintro s answer s' hs ⟨hwork, -⟩ ⟨-, supplies, -, hx⟩
      obtain ⟨hinv, hle, hanswer⟩ := hs.commitImmutable hd hinput hwork.exists_row hkey hx
      exact ⟨hinv, hle, Setting.upward_working s s' hs hle hwork, hanswer⟩
  · intro answer
    refine Growth.Outline.bind (Q := fun stored s => Working input operationId p s ∧
      Holding input s S.storage ∧
      canonicalObjectKey input.workspaceId (sha256 input.bytes) = some stored.key) ?_ ?_
    · apply Growth.Outline.ofExcept
      exact fun stored hok s _ h => ⟨h.1, h.2 stored hok⟩
    · intro stored
      split
      · trivial
      · refine Growth.Outline.fact (fun s _ h => h.2.2) fun hcanonical => ?_
        refine Growth.Outline.post (Growth.Outline.pre (Setting.outline_saveContext hd hinput
          (A := fun s => Holding input s S.storage) (by decide) Setting.upward_holding htemporary hkey
          ?_ ?_) ?_) ?_
        · rintro key' ⟨rfl⟩
          exact hcanonical
        · intro s row hholding hcontext
          refine ⟨hholding, fun _ => Or.inr ?_⟩
          rw [hcontext]
          rfl
        · exact fun s _ h => ⟨h.1, h.2.1⟩
        · rintro p' s - ⟨rfl, hwork, hready, hholding⟩
          exact ⟨rfl, hwork, hready, hholding⟩

/-- A blob is recorded whose canonical object is there. -/
theorem Setting.outline_commitVerifiedIngest (hd : S.Distinct) (hinput : input ∈ S.inputs)
    {blob : BlobObject} (hblobId : blob.id ∈ S.ids) (hblob : isBlob input blob = true)
    (hlength : blob.byteLength = input.bytes.length)
    (hkey : canonicalObjectKey input.workspaceId (sha256 input.bytes) = some blob.storageKey)
    {actorId : JsString} {actorType : AuditChain.ActorType} {occurredAt : Columns.Instant} :
    S.Outline (fun s => Working input operationId p s ∧ Holding input s S.storage)
      ((Prog.perform (Stmt.commitVerifiedIngest blob operationId actorId actorType occurredAt)).bind
        fun answer => (Prog.ofExcept answer).bind fun row => .pure { p with blob := some row })
      fun p' s => (p'.completed = p.completed ∧ p'.deduplicated = p.deduplicated) ∧
        Working input operationId p' s ∧ S.ReadyAt input operationId .metadataCommitted s := by
  refine Growth.Outline.bind (Q := fun answer s => Working input operationId p s ∧
    (∀ row, answer = .ok row → S.ReadyAt input operationId .metadataCommitted s ∧
      Known s input row)) ?_ ?_
  · apply Growth.Outline.perform
    · intro answer
      refine Setting.upward_working.and fun s s' hs hle h row hok => ?_
      exact ⟨Setting.upward_readyAt hinput _ s s' hs hle (h row hok).1, hle.known (h row hok).2⟩
    · rintro s answer s' hs ⟨hwork, hholding⟩ ⟨-, supplies, -, hx⟩
      obtain ⟨row, hrow, hid, hr⟩ := hwork.exists_row
      have hdrawn : operationId ∈ S.ids := hid ▸ (hs.rows row hrow).drawn
      obtain ⟨hinv, hle, hanswer⟩ := hs.commitVerifiedIngest hd hinput hdrawn hblobId hblob hlength
        hkey hholding hx
      have hwork' := Setting.upward_working s s' hs hle hwork
      refine ⟨hinv, hle, hwork', fun recorded hok => ⟨?_, (hanswer recorded hok).2⟩⟩
      obtain ⟨row', hrow', hid', hr'⟩ := hwork'.exists_row
      obtain ⟨haudited, entry, hentry, hisBlob, -⟩ := hanswer recorded hok
      refine ⟨row', hrow', hid', hr', ?_, entry, hentry, hisBlob⟩
      rw [hid']
      exact haudited
  · intro answer
    refine Growth.Outline.bind (Q := fun row s => Working input operationId p s ∧
      S.ReadyAt input operationId .metadataCommitted s ∧ Known s input row) ?_ ?_
    · apply Growth.Outline.ofExcept
      exact fun row hok s _ h => ⟨h.1, h.2 row hok⟩
    · rintro row s - ⟨hwork, hready, hknown⟩
      refine ⟨⟨rfl, rfl⟩, ⟨hwork.row, hwork.temporaryKey, hwork.storageKey, ?_⟩, hready⟩
      rintro blob ⟨rfl⟩
      exact hknown

theorem Setting.outline_commitMetadata (hd : S.Distinct) (hinput : input ∈ S.inputs)
    {provider : JsString} {fields : RoutingFields κ} :
    S.Outline (fun s => Working input operationId p s ∧ Holding input s S.storage)
      (commitMetadata provider input fields operationId p)
      fun p' s => p'.completed = p.completed ∧ Working input operationId p' s ∧
        S.ReadyAt input operationId .metadataCommitted s ∧ True := by
  rw [commitMetadata]
  have hup : S.growth.Upward fun s => Working input operationId p s ∧ Holding input s S.storage :=
    Setting.upward_working.and Setting.upward_holding
  refine Growth.Outline.bind (Setting.outline_read hup (P := fun id : JsString => id ∈ S.ids)
    fun _ _ hid => ⟨rfl, hid⟩) fun id => ?_
  refine Growth.Outline.bind Setting.outline_required fun storageKey => ?_
  refine Growth.Outline.fact (fun s _ h => h.1.2) fun hid => ?_
  refine Growth.Outline.fact (fun s _ h => h.1.1.1.storageKey storageKey h.2) fun hcanonical => ?_
  refine Growth.Outline.bind (Growth.Outline.pre (Setting.outline_read hup (P := fun _ => True)
    fun _ _ _ => ⟨rfl, trivial⟩) fun s _ h => h.1.1) fun createdAt => ?_
  refine Growth.Outline.post (Growth.Outline.pre (Setting.outline_commitVerifiedIngest hd hinput
    hid ?_ rfl hcanonical) fun s _ h => h.1) ?_
  · simp [isBlob, ofDigest]
  · exact fun p' s _ h => ⟨h.1.1, h.2.1, h.2.2, trivial⟩

/-- The bytes are catalogued and canonical. -/
def Shared (S : Setting κ) (input : IngestInput) (p : Progress) (s : IngestState κ) : Prop :=
  (Catalogued input s ∧ Holding input s S.storage) ∧ p.deduplicated = true

omit [DecidableEq κ] in
theorem Setting.upward_shared : S.growth.Upward (Shared S input p) :=
  (Setting.upward_catalogued.and Setting.upward_holding).and (Growth.upward_const _)

theorem Setting.outline_deduplicate (hd : S.Distinct) (hinput : input ∈ S.inputs)
    {existing : BlobObject} (hblobId : existing.id ∈ S.ids) (hblob : isBlob input existing = true)
    (hlength : existing.byteLength = input.bytes.length)
    (hkey : canonicalObjectKey input.workspaceId (sha256 input.bytes) = some existing.storageKey)
    (hp : At 1 p) :
    S.Outline (fun s => Working input operationId p s ∧ Known s input existing ∧
      Catalogued input s ∧ Holding input s S.storage)
      (deduplicate input operationId existing p)
      fun p' s => At 7 p' ∧ Working input operationId p' s := by
  have hup : ∀ p, S.growth.Upward (Shared S input p) := fun _ => Setting.upward_shared
  have hcompleted : ∀ name (p : Progress) s, Shared S input p s →
      Shared S input { p with completed := p.completed ++ [name] } s := fun _ _ _ h => h
  have hready : ∀ {p : Progress} {name} s, (∀ row, Shared S input p s → S.Ready s input row name) →
      Working input operationId p s → Shared S input p s → S.ReadyAt input operationId name s := by
    intro p name s hname hwork hshared
    obtain ⟨row, hrow, hid, hr⟩ := hwork.exists_row
    exact ⟨row, hrow, hid, hr, hname row hshared⟩
  have hp₀ : At 1 { p with
      blob := some existing
      deduplicated := true } := hp.congr rfl
  rw [deduplicate]
  refine Growth.Outline.bind (Growth.Outline.pre (Setting.outline_mark hd hinput (n := 1) rfl
    (by decide) hp₀ hup (hcompleted _) ?_) ?_) fun p₁ => ?_
  · exact fun s _ => hready s fun row h => Or.inl h.1.1
  · rintro s - ⟨hwork, hknown, hcatalogued, hholding⟩
    refine ⟨⟨hwork.row, hwork.temporaryKey, hwork.storageKey, ?_⟩, ⟨hcatalogued, hholding⟩, rfl⟩
    rintro blob ⟨rfl⟩
    exact hknown
  refine Growth.Outline.fact (fun s _ h => h.1) fun hp₁ => ?_
  refine Growth.Outline.bind (Growth.Outline.pre (Setting.outline_mark hd hinput (n := 2) rfl
    (by decide) hp₁ hup (hcompleted _) ?_) fun s _ h => h.2) fun p₂ => ?_
  · exact fun s _ => hready s fun row h => Or.inl h.1.2
  refine Growth.Outline.fact (fun s _ h => h.1) fun hp₂ => ?_
  refine Growth.Outline.bind (Growth.Outline.pre (Setting.outline_mark hd hinput (n := 3) rfl
    (by decide) hp₂ hup (hcompleted _) ?_) fun s _ h => h.2) fun p₃ => ?_
  · exact fun s _ => hready s fun row _ => trivial
  refine Growth.Outline.fact (fun s _ h => h.1) fun hp₃ => ?_
  refine Growth.Outline.bind (Growth.Outline.pre (Setting.outline_mark hd hinput (n := 4) rfl
    (by decide) hp₃ hup (hcompleted _) ?_) fun s _ h => h.2) fun p₄ => ?_
  · exact fun s _ => hready s fun row h => ⟨h.1.2, fun _ => Or.inl h.1.1⟩
  refine Growth.Outline.fact (fun s _ h => h.1) fun hp₄ => ?_
  have hcommit : S.Outline (fun s => Working input operationId p₄ s ∧ Shared S input p₄ s)
      (commitExisting input operationId existing p₄) fun p' s => p'.completed = p₄.completed ∧
        Working input operationId p' s ∧ S.ReadyAt input operationId .metadataCommitted s ∧ True := by
    rw [commitExisting]
    refine Growth.Outline.bind (Setting.outline_read (Setting.upward_working.and Setting.upward_shared)
      (P := fun _ => True) fun _ _ _ => ⟨rfl, trivial⟩) fun occurredAt => ?_
    refine Growth.Outline.post (Growth.Outline.pre (Setting.outline_commitVerifiedIngest hd hinput
      hblobId hblob hlength hkey) fun s _ h => ⟨h.1.1, h.1.2.1.2⟩) ?_
    exact fun p' s _ h => ⟨h.1.1, h.2.1, h.2.2, trivial⟩
  refine Growth.Outline.bind (Growth.Outline.pre (Setting.outline_checkpoint hd hinput (n := 5) rfl
    (by decide) hp₄ (B := fun _ _ => True) (fun _ => Growth.upward_const True) (fun _ _ h => h)
    (fun _ s _ h => ⟨h.1, trivial⟩) fun _ => hcommit) fun s _ h => h.2) fun p₅ => ?_
  refine Growth.Outline.fact (fun s _ h => h.1) fun hp₅ => ?_
  refine Growth.Outline.post (Growth.Outline.pre (Setting.outline_mark hd hinput (n := 6) rfl
    (by decide) hp₅ (B := fun _ _ => True) (fun _ => Growth.upward_const True) (fun _ _ h => h)
    fun s _ hwork _ => ?_) fun s _ h => h.2) fun p' s _ h => ⟨h.1, h.2.1⟩
  obtain ⟨row, hrow, hid, hr⟩ := hwork.exists_row
  exact ⟨row, hrow, hid, hr, trivial⟩

/-- The call has what the checkpoints it skips have left in the context. -/
theorem Setting.outline_store (hd : S.Distinct) (hinput : input ∈ S.inputs) {provider : JsString}
    {fields : RoutingFields κ} (hp : At 1 p)
    (hcreated : .temporaryUploadCreated ∈ p.completed → ∃ key, p.context.temporaryKey = some key) :
    S.Outline (Working input operationId p) (store provider S.storage input fields operationId p)
      fun p' s => At 7 p' ∧ Working input operationId p' s := by
  have hup : ∀ p, S.growth.Upward (HasTemporaryKey p) := fun _ => Setting.upward_hasTemporaryKey
  have hcompleted : ∀ name (p : Progress) (s : IngestState κ), HasTemporaryKey p s →
      HasTemporaryKey { p with completed := p.completed ++ [name] } s := fun _ _ _ h => h
  rw [store]
  refine Growth.Outline.bind (Setting.outline_checkpoint hd hinput (n := 1) rfl (by decide) hp hup
    (hcompleted _) (fun hmem s _ h => ⟨h, hcreated hmem⟩)
    fun _ => Setting.outline_createTemporary hd hinput) fun p₁ => ?_
  refine Growth.Outline.fact (fun s _ h => h.1) fun hp₁ => ?_
  refine Growth.Outline.bind (Growth.Outline.pre (Setting.outline_checkpoint hd hinput (n := 2) rfl
    (by decide) hp₁ hup (hcompleted _) (fun _ s _ h => h)
    fun _ => (Setting.outline_receiveBytes hd hinput).pre fun s _ h => h.1)
    fun s _ h => h.2) fun p₂ => ?_
  refine Growth.Outline.fact (fun s _ h => h.1) fun hp₂ => ?_
  refine Growth.Outline.bind (Growth.Outline.pre (Setting.outline_checkpoint hd hinput (n := 3) rfl
    (by decide) hp₂ hup (hcompleted _) (fun _ s _ h => h) fun _ => Setting.outline_verifyHash hd hinput)
    fun s _ h => h.2) fun p₃ => ?_
  refine Growth.Outline.fact (fun s _ h => h.1) fun hp₃ => ?_
  have hheld : .immutableObjectCommitted ∈ p₃.completed → ∀ s, S.Inv s →
      Working input operationId p₃ s → Holding input s S.storage := by
    intro hmem s hs hwork
    obtain ⟨row, hrow, -, hr, hinitial⟩ := hwork.row
    exact ((hs.rows row hrow).ready _ (hinitial.subset hmem) input hinput hr).1
  refine Growth.Outline.bind (Growth.Outline.pre (Setting.outline_checkpoint hd hinput (n := 4) rfl
    (by decide) hp₃ (B := fun _ s => Holding input s S.storage) (fun _ => Setting.upward_holding)
    (fun _ _ h => h) (fun hmem s hs h => ⟨h, hheld hmem s hs h⟩)
    fun _ => Setting.outline_commitObject hd hinput) fun s _ h => h.2.1) fun p₄ => ?_
  refine Growth.Outline.fact (fun s _ h => h.1) fun hp₄ => ?_
  refine Growth.Outline.bind (Growth.Outline.pre (Setting.outline_checkpoint hd hinput (n := 5) rfl
    (by decide) hp₄ (B := fun _ _ => True) (fun _ => Growth.upward_const True) (fun _ _ h => h)
    (fun _ s _ h => ⟨h.1, trivial⟩) fun _ => Setting.outline_commitMetadata hd hinput)
    fun s _ h => h.2) fun p₅ => ?_
  refine Growth.Outline.fact (fun s _ h => h.1) fun hp₅ => ?_
  refine Growth.Outline.post (Growth.Outline.pre (Setting.outline_mark hd hinput (n := 6) rfl
    (by decide) hp₅ (B := fun _ _ => True) (fun _ => Growth.upward_const True) (fun _ _ h => h)
    fun s _ hwork _ => ?_) fun s _ h => h.2) fun p' s _ h => ⟨h.1, h.2.1⟩
  obtain ⟨row, hrow, hid, hr⟩ := hwork.exists_row
  exact ⟨row, hrow, hid, hr, trivial⟩

/-- What a call starts with. -/
def IngestOperation.progress (operation : IngestOperation) : Progress :=
  { completed := operation.checkpoints, context := operation.context,
    blob := operation.result.map Prod.fst,
    deduplicated := (operation.result.map Prod.snd).getD false }

/-- A returned result is the one of the operation. -/
def Setting.Returned (S : Setting κ) (a : ObjectIngestResult) (s : IngestState κ) : Prop :=
  S.keepsCompleted → Answered a.operationId a.blob a.deduplicated s

omit [DecidableEq κ] in
theorem Setting.upward_returned (a : ObjectIngestResult) : S.growth.Upward (S.Returned a) :=
  Growth.Upward.imp fun hkeeps => Setting.upward_answered hkeeps

omit [DecidableEq κ] in
/-- A row of the catalog, for the input whose bytes it is of. -/
theorem Setting.Inv.stored_input (hd : S.Distinct) (hinput : input ∈ S.inputs) {s : IngestState κ}
    (hs : S.Inv s) {blob : BlobObject} (hmem : blob ∈ s.blobs) (hblob : isBlob input blob = true) :
    blob.id ∈ S.ids ∧ blob.byteLength = input.bytes.length ∧
      canonicalObjectKey input.workspaceId (sha256 input.bytes) = some blob.storageKey ∧
      Holding input s S.storage := by
  obtain ⟨hid, other, hother, hblob', hlength, hkey, hholding⟩ := hs.stored blob hmem
  simp only [isBlob, ofDigest, Bool.and_eq_true, beq_iff_eq] at hblob hblob'
  have hworkspace : other.workspaceId = input.workspaceId := hblob'.1.symm.trans hblob.1
  have hbytes : other.bytes = input.bytes :=
    hd.bytes ⟨other, hother, rfl⟩ ⟨input, hinput, rfl⟩ (hblob'.2.symm.trans hblob.2)
  rw [hbytes] at hlength hkey
  rw [hworkspace] at hkey
  exact ⟨hid, hlength, hkey, (holding_congr hworkspace hbytes).mp hholding⟩

/-- The search for the bytes, and what it says of the catalog. -/
theorem Setting.outline_findByHash (hd : S.Distinct) (hinput : input ∈ S.inputs)
    {A : IngestState κ → Prop} (hA : S.growth.Upward A) {B : BlobObject → IngestState κ → Prop}
    (hB : ∀ blob, S.growth.Upward (B blob)) {P : Prop} (hfound : ∀ s blob, S.Inv s → A s →
      blob ∈ s.blobs → isBlob input blob = true → B blob s)
    (hnone : ∀ s, S.Inv s → A s → ¬ Catalogued input s → P) :
    S.Outline A (Prog.perform (Stmt.findByHash input.workspaceId (sha256 input.bytes)))
      fun (existing : Option BlobObject) s => A s ∧ (existing = none → P) ∧
        ∀ blob, existing = some blob → (blob.id ∈ S.ids ∧ isBlob input blob = true ∧
          blob.byteLength = input.bytes.length ∧
          canonicalObjectKey input.workspaceId (sha256 input.bytes) = some blob.storageKey) ∧
          (Known s input blob ∧ Catalogued input s ∧ Holding input s S.storage) ∧ B blob s := by
  apply Growth.Outline.perform
  · rintro existing s s' hs hle ⟨hA', hP, hexisting⟩
    refine ⟨hA s s' hs hle hA', hP, fun blob hblob => ?_⟩
    obtain ⟨hpure, ⟨hknown, hcatalogued, hholding⟩, hB'⟩ := hexisting blob hblob
    exact ⟨hpure, ⟨hle.known hknown, hle.catalogued hcatalogued, hle.holding hholding⟩,
      hB blob s s' hs hle hB'⟩
  · rintro s existing s' hs hA' ⟨-, supplies, -, hx⟩
    rw [performIngest] at hx
    cases hx
    refine ⟨hs, .refl s, hA', fun hfind => ?_, fun blob hfind => ?_⟩
    · apply hnone s hs hA'
      rintro ⟨row, hmem, hrow⟩
      exact List.find?_eq_none.mp hfind row hmem hrow
    · have hmem := List.mem_of_find?_eq_some hfind
      have hblob : isBlob input blob = true := List.find?_some hfind
      obtain ⟨hid, hlength, hkey, hholding⟩ := hs.stored_input hd hinput hmem hblob
      exact ⟨⟨hid, hblob, hlength, hkey⟩,
        ⟨⟨blob, hmem, hblob, rfl⟩, ⟨blob, hmem, hblob⟩, hholding⟩, hfound s blob hs hA' hmem hblob⟩

/-- The last checkpoint, and the result of the operation. -/
theorem Setting.outline_complete (hd : S.Distinct) (hinput : input ∈ S.inputs) {blob : BlobObject}
    (hblob : p.blob = some blob) (hp : At 7 p) {resumed : Bool} :
    S.Outline (Working input operationId p)
      ((checkpoint input.workspaceId operationId .completed (fun p =>
        (Prog.perform (Stmt.complete input.workspaceId operationId blob p.deduplicated)).bind
          fun answer => (Prog.ofExcept answer).bind fun _ => .pure p) p).bind fun p =>
        .pure { operationId, blob, deduplicated := p.deduplicated, resumed } :
          IngestProg κ ObjectIngestResult) S.Returned := by
  have hseven : p.completed.length = 7 := le_antisymm hp.most hp.least
  have hnew : IngestCheckpoint.completed ∉ p.completed := by
    intro hmem
    have hlength := length_of_mem hp.ordered (n := 7) rfl hmem
    omega
  have haudit : IngestCheckpoint.auditCommitted ∈ p.completed := by
    apply mem_of_length hp.ordered (n := 6) rfl
    omega
  rw [checkpoint, if_neg hnew]
  refine Growth.Outline.bind (Q := fun p' s => p'.deduplicated = p.deduplicated ∧
    (S.keepsCompleted → Answered operationId blob p.deduplicated s)) ?_ ?_
  · refine Growth.Outline.bind (Q := fun p' s => p' = p ∧ Working input operationId p s ∧
      S.ReadyAt input operationId .completed s ∧
      (S.keepsCompleted → Answered operationId blob p.deduplicated s)) ?_ ?_
    · refine Growth.Outline.bind (Q := fun answer s => Working input operationId p s ∧
        (answer = .ok () → S.ReadyAt input operationId .completed s ∧
          (S.keepsCompleted → Answered operationId blob p.deduplicated s))) ?_ ?_
      · apply Growth.Outline.perform
        · intro answer
          refine Setting.upward_working.and (Growth.Upward.imp fun _ => ?_)
          exact (Setting.upward_readyAt hinput _).and
            (Growth.Upward.imp fun hkeeps => Setting.upward_answered hkeeps)
        · rintro s answer s' hs hwork ⟨hguard, supplies, -, hx⟩
          obtain ⟨hinv, hle, hanswer⟩ := hs.complete hd hinput hwork haudit (hwork.blob blob hblob)
            hguard hx
          exact ⟨hinv, hle, Setting.upward_working s s' hs hle hwork,
            fun hok => ⟨(hanswer hok).1, fun _ => (hanswer hok).2⟩⟩
      · intro answer
        refine Growth.Outline.bind (Q := fun _ s => Working input operationId p s ∧
          S.ReadyAt input operationId .completed s ∧
          (S.keepsCompleted → Answered operationId blob p.deduplicated s)) ?_ ?_
        · apply Growth.Outline.ofExcept
          exact fun _ hok s _ h => ⟨h.1, h.2 hok⟩
        · exact fun _ s _ h => ⟨rfl, h⟩
    · intro p'
      refine Growth.Outline.fact (fun s _ h => h.1) ?_
      rintro rfl
      refine Growth.Outline.bind (Q := fun _ s => S.keepsCompleted →
        Answered operationId blob p'.deduplicated s) ?_ ?_
      · apply Growth.Outline.perform
        · exact fun _ => Growth.Upward.imp fun hkeeps => Setting.upward_answered hkeeps
        · rintro s _ s' hs ⟨-, hwork, hready, hanswered⟩ ⟨-, supplies, -, hx⟩
          have hname : ingestCheckpoints[p'.completed.length]? = some .completed := by
            rw [hseven]
            rfl
          obtain ⟨hinv, hle, -⟩ := hs.markCheckpoint hd hinput hwork hready hname hx
          exact ⟨hinv, hle, fun hkeeps =>
            Setting.upward_answered hkeeps s s' hs hle (hanswered hkeeps)⟩
      · exact fun _ s _ h => ⟨rfl, h⟩
  · rintro p' s - ⟨hflag, hanswered⟩ hkeeps
    rw [hflag]
    exact hanswered hkeeps

/-- A call of an operation whose last checkpoint is not stored. -/
theorem Setting.outline_runIngest (hd : S.Distinct) (hinput : input ∈ S.inputs) {provider : JsString}
    {fields : RoutingFields κ} {operation : IngestOperation}
    (hnew : .completed ∉ operation.checkpoints) :
    S.Outline (S.Started input operation)
      (runIngest provider S.storage input fields operation operation.progress) S.Returned := by
  refine Growth.Outline.fact (P := operation.checkpoints <+: ingestCheckpoints) ?_ fun hordered => ?_
  · intro s hs h
    obtain ⟨row, hrow, -, -, hinitial⟩ := h.working.row
    exact hinitial.trans (hs.rows row hrow).ordered
  have hp : At 0 operation.progress := by
    refine ⟨hordered, Nat.zero_le _, ?_⟩
    by_contra hlong
    exact hnew (mem_of_length hordered (n := 7) rfl (not_le.mp hlong))
  rw [runIngest]
  refine Growth.Outline.bind (Setting.outline_checkpoint hd hinput
    (n := 0) rfl (by decide) hp (B := fun p s => p.context = operation.context ∧
      (.temporaryUploadCreated ∈ p.completed →
        Catalogued input s ∨ operation.context.temporaryKey.isSome = true)) ?_ ?_ ?_ ?_) fun p₁ => ?_
  · refine fun p => (Growth.upward_const _).and (Growth.Upward.imp fun _ => ?_)
    exact fun s s' _ hle h => h.imp_left hle.catalogued
  · rintro p s ⟨hcontext, hcreated⟩
    refine ⟨hcontext, fun hmem => hcreated ?_⟩
    simpa using hmem
  · exact fun _ s _ h => ⟨h.working, rfl, h.created⟩
  · intro _
    rw [authorise]
    split
    · trivial
    · intro s _ h
      obtain ⟨row, hrow, hid, hr⟩ := h.working.exists_row
      exact ⟨rfl, h.working, ⟨row, hrow, hid, hr, trivial⟩, rfl, h.created⟩
  refine Growth.Outline.fact (fun s _ h => h.1) fun hp₁ => ?_
  refine Growth.Outline.bind (Growth.Outline.pre (Setting.outline_findByHash hd hinput
    (A := fun s => Working input operation.id p₁ s ∧ p₁.context = operation.context ∧
      (.temporaryUploadCreated ∈ p₁.completed →
        Catalogued input s ∨ operation.context.temporaryKey.isSome = true))
    (B := fun _ _ => True) (P := .temporaryUploadCreated ∈ p₁.completed →
      ∃ key, p₁.context.temporaryKey = some key) ?_ (fun _ => Growth.upward_const True)
    (fun _ _ _ _ _ _ => trivial) ?_) fun s _ h => h.2) fun existing => ?_
  · refine Setting.upward_working.and ((Growth.upward_const _).and (Growth.Upward.imp fun _ => ?_))
    exact fun s s' _ hle h => h.imp_left hle.catalogued
  · rintro s - ⟨-, hcontext, hcreated⟩ hnone hmem
    obtain hcatalogued | hkey := hcreated hmem
    · exact absurd hcatalogued hnone
    · rw [hcontext]
      exact Option.isSome_iff_exists.mp hkey
  refine Growth.Outline.bind (Q := fun p' s => At 7 p' ∧ Working input operation.id p' s) ?_ ?_
  · cases existing with
    | some existing =>
      refine Growth.Outline.fact (fun s _ h => (h.2.2 existing rfl).1) ?_
      rintro ⟨hid, hblob, hlength, hkey⟩
      exact (Setting.outline_deduplicate hd hinput hid hblob hlength hkey hp₁).pre
        fun s _ h => ⟨h.1.1, (h.2.2 existing rfl).2.1⟩
    | none =>
      refine Growth.Outline.fact (fun s _ h => h.2.1 rfl) fun hcreated => ?_
      exact (Setting.outline_store hd hinput hp₁ hcreated).pre fun s _ h => h.1.1
  · intro p₂
    refine Growth.Outline.fact (fun s _ h => h.1) fun hp₂ => ?_
    split
    · trivial
    · rename_i blob hblob
      exact (Setting.outline_complete hd hinput hblob hp₂).pre fun s _ h => h.2

/-- A call of an operation whose last checkpoint is stored answers from the catalog. -/
theorem Setting.outline_replay (hd : S.Distinct) (hinput : input ∈ S.inputs) {provider : JsString}
    {fields : RoutingFields κ} {operation : IngestOperation}
    (hlast : .completed ∈ operation.checkpoints) :
    S.Outline (S.Started input operation)
      (runIngest provider S.storage input fields operation operation.progress) S.Returned := by
  refine Growth.Outline.fact (P := operation.checkpoints = ingestCheckpoints) ?_ fun hall => ?_
  · intro s hs h
    obtain ⟨row, hrow, -, -, hinitial⟩ := h.working.row
    have hordered := hinitial.trans (hs.rows row hrow).ordered
    apply hordered.eq_of_length_le
    have hlength := length_of_mem hordered (n := 7) rfl hlast
    exact hlength
  have hskip : ∀ name (effect : Progress → IngestProg κ Progress) (p : Progress),
      p.completed = ingestCheckpoints →
      checkpoint input.workspaceId operation.id name effect p = .pure p := by
    intro name effect p hp
    rw [checkpoint, if_pos]
    rw [hp]
    cases name <;> decide
  have hdone : operation.progress.completed = ingestCheckpoints := hall
  rw [runIngest, hskip _ _ _ hdone, Prog.bind]
  refine Growth.Outline.bind (Setting.outline_findByHash hd hinput Setting.upward_started
    (B := fun blob s => S.keepsCompleted → Answered operation.id blob true s) (P := False)
    (fun _ => Growth.Upward.imp fun hkeeps => Setting.upward_answered hkeeps) ?_ ?_) fun existing => ?_
  · intro s blob hs h hmem hblob hkeeps
    obtain ⟨answer, ⟨known, hknown, hknownBlob, hknownId⟩, row, hrow, hid, hstate, stored, hresult,
      hstored⟩ := (h.replayed hlast).2 hkeeps
    have hone : blob = known := by
      apply List.inj_on_of_nodup_map hs.digests hmem hknown
      simp only [isBlob, ofDigest, Bool.and_eq_true, beq_iff_eq] at hblob hknownBlob
      rw [hblob.1, hblob.2, hknownBlob.1, hknownBlob.2]
    refine ⟨row, hrow, hid, hstate, stored, hresult, ?_⟩
    rw [hstored, ← hknownId, hone]
  · exact fun s _ h hnone => hnone (h.replayed hlast).1
  · cases existing with
    | none => exact Growth.Outline.unreached fun s _ h => h.2.1 rfl
    | some existing =>
      have hskip' := fun name effect => hskip name effect { operation.progress with
        blob := some existing
        deduplicated := true } hdone
      simp only [deduplicate, hskip', Prog.bind]
      exact fun s _ h => (h.2.2 existing rfl).2.2

/-- Every call of the service has an outline. -/
theorem Setting.outline_ingest (hd : S.Distinct) (hinput : input ∈ S.inputs) {platform : κ}
    {provider : JsString} {fields : RoutingFields κ} (hstorage : fields.storage.getD platform = S.storage) :
    S.Outline (fun _ => True) (ingest platform provider input fields) S.Returned := by
  rw [ingest, hstorage]
  refine Growth.Outline.bind (Q := fun answer s => ∀ operation, answer = .ok operation →
    operation.requestHash = requestHashOf input → S.Started input operation s) ?_ fun answer => ?_
  · apply Growth.Outline.perform
    · intro answer s s' hs hle h operation hok hhash
      exact Setting.upward_started s s' hs hle (h operation hok hhash)
    · rintro s answer s' hs - ⟨hguard, supplies, hids, hx⟩
      exact hs.begin hinput hids.1 hguard hx
  refine Growth.Outline.bind (Q := fun operation s => operation.requestHash = requestHashOf input →
    S.Started input operation s) ?_ fun operation => ?_
  · apply Growth.Outline.ofExcept
    exact fun operation hok s _ h => h operation hok
  split
  · trivial
  · rename_i hhash
    refine Growth.Outline.catchError ?_ fun e => ?_
    · refine Growth.Outline.pre (A := S.Started input operation) ?_ fun s _ h => h (not_not.mp hhash)
      by_cases hlast : .completed ∈ operation.checkpoints
      · exact Setting.outline_replay hd hinput hlast
      · exact Setting.outline_runIngest hd hinput hlast
    · refine Growth.Outline.bind (Q := fun _ _ => True) ?_ fun _ => trivial
      apply Growth.Outline.perform
      · exact fun _ => Growth.upward_const True
      · rintro s _ s' hs - ⟨-, supplies, -, hx⟩
        obtain ⟨hinv, hle⟩ := hs.fail hx
        exact ⟨hinv, hle, trivial⟩

end Branches

end TrustCore.ObjectIngest
