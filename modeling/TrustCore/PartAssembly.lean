import TrustCore.PartUploads

/-!
# The bytes of a completed upload

`MemoryObjectStorage` keeps the parts of an upload twice, as a list and as a map of their bodies,
and a call that waits for its body may go on after an abort or a completion. A log of the bodies
of the calls that returned runs beside the storage; an abort empties it. A completion writes the
first body of each number in the log, in the order of the numbers.
-/

namespace TrustCore.PartAssembly

open TrustCore.Utf TrustCore.Sha256 TrustCore.ObjectStorage TrustCore.Multipart
open TrustCore.MemoryStorage TrustCore.MultipartRuns TrustCore.PartUploads TrustCore.Runs

/-! ## The log -/

/-- The number and the body of every call of one upload that returned since its last abort. -/
abbrev AcceptedParts := List (Nat × Bytes)

structure LoggedState where
  run : RunState
  log : JsString → AcceptedParts

section Machine

variable (relaxMultipartLimits : Bool) (md5 : Bytes → JsString)

/-- The log after an event. -/
def logAfter (s : LoggedState) : MemoryEvent → JsString → AcceptedParts
  | .finishPart input body =>
    match (s.run.storage.finishPart md5 input body).1 with
    | .ok _ => Function.update s.log input.uploadId (s.log input.uploadId ++ [(input.partNumber, body)])
    | .error _ => s.log
  | .abort target =>
    match (s.run.storage.abortMultipartUpload target).1 with
    | .ok _ => Function.update s.log target.uploadId []
    | .error _ => s.log
  | _ => s.log

def loggedMachine : Machine LoggedState MemoryEvent where
  init s := s.run = ⟨.empty, []⟩ ∧ s.log = fun _ => []
  step s e s' := (memoryMachine relaxMultipartLimits md5).step s.run e s'.run ∧
    s'.log = logAfter md5 s e

/-- Every run of the storage has its log. -/
theorem logged_of_reachable {r : RunState}
    (h : (memoryMachine relaxMultipartLimits md5).Reachable r) :
    ∃ log, (loggedMachine relaxMultipartLimits md5).Reachable ⟨r, log⟩ := by
  induction h with
  | init h => exact ⟨fun _ => [], .init ⟨h, rfl⟩⟩
  | @step r r' e _ _ hstep ih =>
    obtain ⟨log, hlog⟩ := ih
    exact ⟨logAfter md5 ⟨r, log⟩ e, hlog.step ⟨hstep, rfl⟩⟩

end Machine

/-! ## What reconciled parts are -/

section Reconcile

variable {recorded declared : List UploadedPart}

theorem numbers_orderedParts (parts : List UploadedPart) :
    (orderedParts parts).map (·.partNumber) =
      (parts.map (·.partNumber)).insertionSort (· ≤ ·) := by
  apply List.map_insertionSort
  intro a _ b _
  exact Iff.rfl

theorem mem_of_isRecorded {part : UploadedPart} (h : isRecorded recorded part = true) :
    part ∈ recorded := by
  rw [isRecorded, Option.any_eq_true] at h
  obtain ⟨found, hfound, hsame⟩ := h
  have hmem := List.mem_reverse.mp (List.mem_of_find?_eq_some hfound)
  have hnumber := List.find?_some hfound
  simp only [Bool.and_eq_true, beq_iff_eq] at hsame hnumber
  obtain rfl : found = part := by
    cases found
    cases part
    simp_all
  exact hmem

structure Reconciled (recorded declared : List UploadedPart) : Prop where
  perm : declared.Perm recorded
  numbers : (orderedParts declared).map (·.partNumber) =
    (List.range declared.length).map (· + 1)

theorem reconciled_of_ok (h : reconcileParts recorded declared = .ok ()) :
    Reconciled recorded declared := by
  rw [reconcileParts] at h
  split at h
  · cases h
  next hlength =>
  split at h
  · cases h
  next hrecorded =>
  split at h
  · cases h
  next hnumbers =>
  rw [not_not] at hlength hnumbers
  rw [← numbers_orderedParts] at hnumbers
  have hsubset : declared ⊆ recorded := by
    intro part hpart
    have hall : declared.all (isRecorded recorded) = true := by simpa using hrecorded
    exact mem_of_isRecorded (List.all_eq_true.mp hall part hpart)
  have hnodup : declared.Nodup := by
    have hnumbered : ((orderedParts declared).map (·.partNumber)).Nodup := by
      rw [hnumbers]
      exact List.nodup_range.map (Nat.succ_injective)
    exact (List.perm_insertionSort _ declared).nodup_iff.mp hnumbered.of_map
  exact ⟨(hnodup.subperm hsubset).perm_of_length_le hlength.le, hnumbers⟩

end Reconcile

/-! ## One upload and its log -/

/-- An upload with distinct parts, whose bodies are the first ones of the log. -/
structure Kept (upload : MemoryUpload) (accepted : AcceptedParts) : Prop where
  distinct : (upload.session.parts.map (·.partNumber)).Nodup
  bodies : ∀ n, upload.partBodies n = accepted.lookup n
  recorded : ∀ n, n ∈ upload.session.parts.map (·.partNumber) ↔ (accepted.lookup n).isSome

section Kept

variable {upload : MemoryUpload} {accepted : AcceptedParts} {n : Nat} {body : Bytes}

theorem lookup_concat : (accepted ++ [(n, body)]).lookup n = some ((accepted.lookup n).getD body) := by
  rw [List.lookup_append]
  cases accepted.lookup n with
  | none => simp
  | some first => simp

theorem lookup_concat_of_ne {m : Nat} (h : m ≠ n) :
    (accepted ++ [(n, body)]).lookup m = accepted.lookup m := by
  have hne : (m == n) = false := beq_false_of_ne h
  rw [List.lookup_append]
  simp [List.lookup_cons, hne]

theorem Kept.lookup_none (h : Kept upload accepted) (hfree : upload.session.findPart n = none) :
    accepted.lookup n = none := by
  rw [findPart_eq_none, h.recorded] at hfree
  exact Option.not_isSome_iff_eq_none.mp hfree

/-- A part that is there already changes nothing. -/
theorem Kept.repeated (h : Kept upload accepted) {part : UploadedPart}
    (hfound : upload.session.findPart n = some part) : Kept upload (accepted ++ [(n, body)]) := by
  have hsome : (accepted.lookup n).isSome := by
    obtain ⟨hmem, hnumber⟩ := mem_of_findPart hfound
    exact (h.recorded n).mp (hnumber ▸ List.mem_map_of_mem hmem)
  have hlookup : ∀ m, (accepted ++ [(n, body)]).lookup m = accepted.lookup m := by
    intro m
    by_cases hm : m = n
    · obtain ⟨first, hfirst⟩ := Option.isSome_iff_exists.mp hsome
      rw [hm, lookup_concat, hfirst, Option.getD_some]
    · exact lookup_concat_of_ne hm
  constructor
  · exact h.distinct
  · intro m
    rw [hlookup, h.bodies]
  · intro m
    rw [hlookup, h.recorded]

theorem Kept.recordPart (h : Kept upload accepted) {part : UploadedPart}
    (hfree : upload.session.findPart part.partNumber = none) :
    Kept (upload.recordPart part body) (accepted ++ [(part.partNumber, body)]) := by
  have hlookup := h.lookup_none hfree
  constructor
  · exact distinct_recordPart h.distinct hfree
  · intro m
    by_cases hm : m = part.partNumber
    · rw [hm, lookup_concat, hlookup]
      exact Function.update_self _ _ _
    · rw [lookup_concat_of_ne hm, ← h.bodies]
      exact Function.update_of_ne hm _ _
  · intro m
    have hmem : m ∈ (upload.recordPart part body).session.parts.map (·.partNumber) ↔
        m ∈ upload.session.parts.map (·.partNumber) ∨ m = part.partNumber := by
      change m ∈ (upload.session.recordPart part).parts.map _ ↔ _
      rw [(perm_recordPart.map _).mem_iff, List.map_append, List.mem_append, List.map_singleton,
        List.mem_singleton]
    rw [hmem, h.recorded]
    by_cases hm : m = part.partNumber
    · simp [hm, lookup_concat]
    · simp [hm, lookup_concat_of_ne hm]

theorem Kept.abort (upload : MemoryUpload) : Kept upload.abort [] := by
  constructor
  · exact List.nodup_nil
  · intro n
    rfl
  · intro n
    simp [MemoryUpload.abort, UploadSession.abort]

theorem Kept.complete (h : Kept upload accepted) {declared : List UploadedPart}
    (hperm : declared.Perm upload.session.parts) :
    Kept (upload.complete (orderedParts declared)) accepted := by
  have hnumbers : ((orderedParts declared).map (·.partNumber)).Perm
      (upload.session.parts.map (·.partNumber)) :=
    ((List.perm_insertionSort _ declared).trans hperm).map _
  constructor
  · exact hnumbers.nodup_iff.mpr h.distinct
  · exact h.bodies
  · intro n
    exact hnumbers.mem_iff.trans (h.recorded n)

end Kept

/-! ## A completion -/

/-- The declared parts are the recorded ones, numbered from one, and the object has their first
bodies in the order of the numbers. -/
structure Assembled (accepted : AcceptedParts) (upload : MemoryUpload) (input : CompleteInput)
    (metadata : ObjectMetadata) (s' : Storage) : Prop where
  recorded : input.parts.Perm upload.session.parts
  numbered : (input.parts.map (·.partNumber)).Perm ((List.range input.parts.length).map (· + 1))
  stored : ∃ (o : StoredBytes) (bodies : List Bytes), s'.objects input.key = some o ∧
    metadata = o.metadata input.key ∧ o.body = bodies.flatten ∧
    bodies.map some = (List.range input.parts.length).map (fun i => accepted.lookup (i + 1)) ∧
    o.body.length = input.expectedByteLength ∧ o.digest = input.expectedSha256

section Complete

variable {s s' : Storage} {input : CompleteInput} {upload : MemoryUpload} {accepted : AcceptedParts}

theorem map_some_of_mapM {parts : List UploadedPart} {buffers : List Bytes}
    (h : parts.mapM (Storage.partBody upload) = .ok buffers) :
    buffers.map some = parts.map fun part => upload.partBodies part.partNumber := by
  induction parts generalizing buffers with
  | nil =>
    cases h
    rfl
  | cons part parts ih =>
    rw [List.mapM_cons] at h
    cases hbody : upload.partBodies part.partNumber with
    | none =>
      rw [Storage.partBody, hbody] at h
      cases h
    | some body =>
      rw [Storage.partBody, hbody] at h
      cases hrest : parts.mapM (Storage.partBody upload) with
      | error e =>
        rw [hrest] at h
        cases h
      | ok rest =>
        rw [hrest] at h
        cases h
        rw [List.map_cons, List.map_cons, ih hrest, hbody]

theorem assembledBody_eq_ok {body : Bytes} (h : Storage.assembledBody upload input = .ok body) :
    Reconciled upload.session.parts input.parts ∧
    ∃ buffers, (orderedParts input.parts).mapM (Storage.partBody upload) = .ok buffers ∧
      body = buffers.flatten ∧ body.length = input.expectedByteLength ∧
      sha256 body = input.expectedSha256 := by
  rw [Storage.assembledBody] at h
  cases hreconcile : reconcileParts upload.session.parts input.parts with
  | error e =>
    rw [hreconcile] at h
    cases h
  | ok u =>
    cases hbuffers : (orderedParts input.parts).mapM (Storage.partBody upload) with
    | error e =>
      rw [hreconcile, hbuffers] at h
      cases h
    | ok buffers =>
      rw [hreconcile, hbuffers] at h
      change (if _ then _ else _) = _ at h
      split at h
      · cases h
      · next hmatch =>
        rw [not_or, not_not, not_not] at hmatch
        cases h
        exact ⟨reconciled_of_ok hreconcile, buffers, rfl, rfl, hmatch.1, hmatch.2⟩

/-- What a completion does to an upload: nothing, or it assembles an object. -/
theorem complete_cases (s : Storage) (input : CompleteInput) :
    (s.completeMultipartUpload input).2 = s ∧
      (∀ upload, s.multipart input.uploadId = some upload → upload.session.status ≠ .completed →
        ∃ e, (s.completeMultipartUpload input).1 = .error e) ∨
    ∃ upload body, s.multipart input.uploadId = some upload ∧
      Storage.assembledBody upload input = .ok body ∧
      s.completeMultipartUpload input = (.ok ((upload.assemble body).metadata input.key),
        Storage.setUpload { s with objects := s.objects.set input.key (upload.assemble body) }
          input.uploadId (upload.complete (orderedParts input.parts))) := by
  rw [Storage.completeMultipartUpload]
  split
  · exact .inl ⟨rfl, fun _ _ _ => ⟨_, rfl⟩⟩
  next upload hrequire =>
  obtain ⟨hupload, -⟩ := Storage.requireMultipart_eq_ok hrequire
  split
  · exact .inl ⟨rfl, fun _ _ _ => ⟨_, rfl⟩⟩
  split
  · next hcompleted =>
    refine .inl ⟨rfl, fun upload' hupload' hopen => absurd ?_ hopen⟩
    rw [hupload, Option.some.injEq] at hupload'
    exact hupload' ▸ hcompleted
  split
  · exact .inl ⟨rfl, fun _ _ _ => ⟨_, rfl⟩⟩
  · next body hbody => exact .inr ⟨upload, body, hupload, hbody, rfl⟩

theorem Kept.assembled (h : Kept upload accepted) {body : Bytes}
    (hbody : Storage.assembledBody upload input = .ok body)
    (ho : s'.objects input.key = some (upload.assemble body)) :
    Assembled accepted upload input ((upload.assemble body).metadata input.key) s' := by
  obtain ⟨hreconciled, buffers, hbuffers, hflatten, hlength, hdigest⟩ := assembledBody_eq_ok hbody
  constructor
  · exact hreconciled.perm
  · rw [← hreconciled.numbers]
    exact ((List.perm_insertionSort _ input.parts).map _).symm
  · refine ⟨upload.assemble body, buffers, ho, rfl, hflatten, ?_, hlength, hdigest⟩
    calc buffers.map some
        = ((orderedParts input.parts).map (·.partNumber)).map upload.partBodies := by
          rw [map_some_of_mapM hbuffers, List.map_map]
          rfl
      _ = ((List.range input.parts.length).map (· + 1)).map (accepted.lookup ·) := by
          rw [hreconciled.numbers]
          exact List.map_congr_left fun n _ => h.bodies n
      _ = (List.range input.parts.length).map fun i => accepted.lookup (i + 1) := by
          rw [List.map_map]
          rfl

end Complete

/-! ## Runs -/

/-- Every upload is kept with its log, and what is no upload has none. -/
def Consistent (s : LoggedState) : Prop :=
  ∀ uploadId, match s.run.storage.multipart uploadId with
    | none => s.log uploadId = []
    | some upload => Kept upload (s.log uploadId)

section Runs

variable {relaxMultipartLimits : Bool} {md5 : Bytes → JsString} {s s' : LoggedState}

theorem Consistent.kept (h : Consistent s) {uploadId : JsString} {upload : MemoryUpload}
    (hupload : s.run.storage.multipart uploadId = some upload) : Kept upload (s.log uploadId) := by
  have hid := h uploadId
  rw [hupload] at hid
  exact hid

theorem Consistent.same (h : Consistent s) (hrun : s'.run.storage.multipart = s.run.storage.multipart)
    (hlog : s'.log = s.log) : Consistent s' := by
  intro uploadId
  rw [hrun, hlog]
  exact h uploadId

/-- One upload changes, and its log. -/
theorem Consistent.update (h : Consistent s) {uploadId : JsString} {upload : MemoryUpload}
    {accepted : AcceptedParts} (hkept : Kept upload accepted)
    (hrun : s'.run.storage.multipart =
      Function.update s.run.storage.multipart uploadId (some upload))
    (hlog : s'.log = Function.update s.log uploadId accepted) : Consistent s' := by
  intro other
  rw [hrun, hlog]
  by_cases hother : other = uploadId
  · rw [hother, Function.update_self, Function.update_self]
    exact hkept
  · rw [Function.update_of_ne hother, Function.update_of_ne hother]
    exact h other

theorem Consistent.initiate (h : Consistent s) (draw : Storage.SessionDraw) (input : InitiateInput) :
    Consistent ⟨{ s.run with storage :=
      (Storage.initiateMultipartUpload relaxMultipartLimits draw input s.run.storage).2 }, s.log⟩ := by
  rw [Storage.initiateMultipartUpload]
  split
  · exact h
  · split
    · exact h
    · next hfree =>
      have hlog : s.log input.uploadId = [] := by
        have hid := h input.uploadId
        rw [hfree] at hid
        exact hid
      have hsame : s.log = Function.update s.log input.uploadId [] :=
        (Function.update_eq_self_iff.mpr hlog.symm).symm
      refine h.update ?_ rfl hsame
      exact ⟨List.nodup_nil, fun _ => rfl, fun _ => by simp [newSession]⟩

theorem Consistent.finishPart (h : Consistent s) (input : PartInput) (body : Bytes)
    (suspended : List Suspended) : Consistent ⟨⟨(s.run.storage.finishPart md5 input body).2, suspended⟩,
      logAfter md5 s (.finishPart input body)⟩ := by
  rw [logAfter, Storage.finishPart]
  split
  · exact h
  next upload hupload =>
  have hkept := h.kept hupload
  split
  · exact h
  split
  · exact h
  split
  · next existing hfound =>
    split
    · exact h
    · refine h.update (hkept.repeated hfound) ?_ rfl
      exact (Function.update_eq_self_iff.mpr hupload.symm).symm
  · next hfree => exact h.update (hkept.recordPart hfree) rfl rfl

theorem Consistent.abort (h : Consistent s) (target : UploadTarget) :
    Consistent ⟨{ s.run with storage := (s.run.storage.abortMultipartUpload target).2 },
      logAfter md5 s (.abort target)⟩ := by
  rw [logAfter, Storage.abortMultipartUpload]
  split
  · next hnone =>
    have hlog : s.log target.uploadId = [] := by
      have hid := h target.uploadId
      rw [hnone] at hid
      exact hid
    exact h.same rfl (Function.update_eq_self_iff.mpr hlog.symm)
  next upload hupload =>
  split
  · exact h
  · exact h.update (Kept.abort upload) rfl rfl

theorem Consistent.complete (h : Consistent s) (input : CompleteInput) :
    Consistent ⟨{ s.run with storage := (s.run.storage.completeMultipartUpload input).2 }, s.log⟩ := by
  rcases complete_cases s.run.storage input with ⟨hsame, -⟩ | ⟨upload, body, hupload, hbody, hassembled⟩
  · rw [hsame]
    exact h
  · rw [hassembled]
    refine h.update ((h.kept hupload).complete (assembledBody_eq_ok hbody).1.perm) rfl ?_
    exact (Function.update_eq_self_iff.mpr rfl).symm

theorem consistent_step {e : MemoryEvent} (h : Consistent s)
    (hstep : (loggedMachine relaxMultipartLimits md5).step s e s') : Consistent s' := by
  obtain ⟨run', log'⟩ := s'
  obtain ⟨hrun, hlog⟩ := hstep
  obtain rfl : log' = logAfter md5 s e := hlog
  have hevent : Step relaxMultipartLimits md5 s.run e run' := hrun
  cases hevent with
  | startWrite key mediaType call _ => exact h.same rfl rfl
  | finishWrite before after call body _ => exact h.same rfl rfl
  | commit input => exact h.same rfl rfl
  | deleteTemporary key =>
    refine h.same ?_ rfl
    dsimp only
    rw [Storage.deleteTemporary]
    split
    · rfl
    · rfl
  | initiate draw input => exact h.initiate draw input
  | startPart input _ => exact h.same rfl rfl
  | finishPart before after input body _ => exact h.finishPart input body _
  | complete input => exact h.complete input
  | abort target => exact h.abort target
  | bodyFails before after call _ => exact h.same rfl rfl

theorem consistent_of_reachable (h : (loggedMachine relaxMultipartLimits md5).Reachable s) :
    Consistent s := by
  refine h.invariant ?_ fun s e s' hs => consistent_step hs
  rintro ⟨run, log⟩ ⟨rfl, rfl⟩
  intro uploadId
  rfl

/-- In every run, a completion that returns on an upload that is not completed has assembled the
first bodies of its log, and one that throws changes nothing. -/
theorem complete_assembles (hs : (loggedMachine relaxMultipartLimits md5).Reachable s)
    (input : CompleteInput) :
    (∀ upload metadata storage, s.run.storage.multipart input.uploadId = some upload →
      upload.session.status ≠ .completed →
      s.run.storage.completeMultipartUpload input = (.ok metadata, storage) →
      Assembled (s.log input.uploadId) upload input metadata storage) ∧
    ∀ e storage, s.run.storage.completeMultipartUpload input = (.error e, storage) →
      storage = s.run.storage := by
  have hconsistent := consistent_of_reachable hs
  rcases complete_cases s.run.storage input with ⟨hsame, hthrows⟩ | ⟨upload, body, hupload, hbody, hdone⟩
  · constructor
    · intro upload metadata storage hupload hopen hreturned
      obtain ⟨e, he⟩ := hthrows upload hupload hopen
      rw [hreturned] at he
      cases he
    · intro e storage hthrown
      rw [hthrown] at hsame
      exact hsame
  · constructor
    · intro upload' metadata storage hupload' _ hreturned
      rw [hupload, Option.some.injEq] at hupload'
      subst hupload'
      rw [hdone, Prod.mk.injEq, Except.ok.injEq] at hreturned
      obtain ⟨rfl, rfl⟩ := hreturned
      exact (hconsistent.kept hupload).assembled hbody (Function.update_self _ _ _)
    · intro e storage hthrown
      rw [hdone] at hthrown
      cases hthrown

end Runs

section Samples

def samplePart (n : Nat) : PartInput := { latePart with partNumber := n }

/-- The second part comes before the first one. -/
def sampleUploaded : Storage :=
  ((lateStarted.finishPart lateMd5 (samplePart 2) [105]).2.finishPart lateMd5 (samplePart 1) [104]).2

def sampleCompletion : CompleteInput where
  toUploadTarget := latePart.toUploadTarget
  parts := [⟨2, js "\"0cc1\"", 1⟩, ⟨1, js "\"0cc1\"", 1⟩]
  expectedByteLength := 2
  expectedSha256 := sha256 [104, 105]

theorem sampleUploaded_reachable : (memoryMachine false lateMd5).Reachable ⟨sampleUploaded, []⟩ := by
  have hempty : (memoryMachine false lateMd5).Reachable ⟨.empty, []⟩ := .init rfl
  have hinitiated : (memoryMachine false lateMd5).Reachable ⟨lateStarted, []⟩ :=
    hempty.step (.initiate lateDraw lateInitiate)
  have hwaiting : (memoryMachine false lateMd5).Reachable
      ⟨lateStarted, [.part (samplePart 1), .part (samplePart 2)]⟩ :=
    (hinitiated.step (.startPart (samplePart 2) rfl)).step (.startPart (samplePart 1) rfl)
  have hsecond := hwaiting.step
    (.finishPart [.part (samplePart 1)] [] (samplePart 2) [105] rfl)
  exact hsecond.step (.finishPart [] [] (samplePart 1) [104] rfl)

theorem complete_assembles_sample : ∃ log upload metadata storage,
    (loggedMachine false lateMd5).Reachable ⟨⟨sampleUploaded, []⟩, log⟩ ∧
    Assembled (log (js "u")) upload sampleCompletion metadata storage := by
  obtain ⟨log, hlog⟩ := logged_of_reachable false lateMd5 sampleUploaded_reachable
  obtain ⟨upload, hrequire, hstatus, hbody⟩ : ∃ upload,
      sampleUploaded.requireMultipart sampleCompletion.toUploadTarget = .ok upload ∧
      upload.session.status = .uploading ∧
      Storage.assembledBody upload sampleCompletion = .ok [104, 105] := by
    refine ⟨_, rfl, rfl, ?_⟩
    change (if ([104, 105] : Bytes).length ≠ 2 ∨ sha256 [104, 105] ≠ sha256 [104, 105] then _ else _) = _
    exact if_neg (by simp)
  obtain ⟨hupload, -⟩ := Storage.requireMultipart_eq_ok hrequire
  have hreturned : ∃ metadata storage,
      sampleUploaded.completeMultipartUpload sampleCompletion = (.ok metadata, storage) := by
    rw [Storage.completeMultipartUpload, hrequire]
    simp only [hstatus, hbody]
    exact ⟨_, _, rfl⟩
  obtain ⟨metadata, storage, hreturned⟩ := hreturned
  have hopen : upload.session.status ≠ .completed := by
    rw [hstatus]
    decide
  exact ⟨log, upload, metadata, storage, hlog,
    (complete_assembles hlog sampleCompletion).1 upload metadata storage hupload hopen hreturned⟩

end Samples

end TrustCore.PartAssembly
