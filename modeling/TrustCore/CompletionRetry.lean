import TrustCore.S3Multipart

/-!
# A completion that fails once

`completeMultipartUpload` of `S3MultipartController` asks the provider to complete the upload,
reads the object back and only then marks the session. One request of a call goes wrong, and the
same call is made again. An upload that the provider has completed is not there any more, so the
second call gets to the object only where the session was marked before the first one.
-/

namespace TrustCore.CompletionRetry

open TrustCore.Utf TrustCore.Dynamic TrustCore.Sha256 TrustCore.ObjectStorage
open TrustCore.Multipart TrustCore.Programs TrustCore.S3Multipart
open TrustCore.S3Storage (ProviderError Thrown octetStream)

/-! ## The call in pieces -/

section Pieces

variable (redactSensitive : JsString → JsString) (input : CompleteInput)

abbrev ObjectReply := Except ProviderError (Option (Except ProviderError Bytes))

/-- What `verifyCompleted` makes of the answer. -/
def readBack : ObjectReply → Except Thrown ObjectMetadata
  | .error error => .error (.storage
      (mapProviderError redactSensitive (js "Failed to open object stream") (.provider error)))
  | .ok none => .error (.storage
      ⟨some "permanent", js "Storage adapter received a non-Node stream"⟩)
  | .ok (some (.error error)) => .error (.provider error)
  | .ok (some (.ok body)) =>
    if body.length ≠ input.expectedByteLength ∨ sha256 body ≠ input.expectedSha256 then
      .error (.storage
        (invalidRequest "Multipart assembly does not match expected size or checksum"))
    else .ok ⟨input.key, body.length, octetStream, sha256 body⟩

theorem verifyCompleted_eq : verifyCompleted redactSensitive input =
    .stmt (.request (.getObject input.key)) fun reply =>
      .ofExcept (readBack redactSensitive input reply) := by
  refine congrArg (Prog.stmt _) (funext fun reply => ?_)
  match reply with
  | .error error => rfl
  | .ok none => rfl
  | .ok (some (.error error)) => rfl
  | .ok (some (.ok body)) =>
    change (if _ then _ else _) = Prog.ofExcept (if _ then _ else _)
    split
    · rfl
    · rfl

/-- The call from where the object has been read back. -/
def markCompleted (record : Nat) (reply : ObjectReply) : ControllerProg ObjectMetadata :=
  match readBack redactSensitive input reply with
  | .error error => .throw error
  | .ok metadata =>
    .stmt (.update record (.complete (orderedParts input.parts))) fun _ => .pure metadata

/-- The call from where the provider has answered. -/
def completionAnswered (record : Nat) : Except ProviderError Unit → ControllerProg ObjectMetadata
  | .error error => failWith
      (mapProviderError redactSensitive (js "Failed to complete multipart upload") (.provider error))
  | .ok _ => .stmt (.request (.getObject input.key)) (markCompleted redactSensitive input record)

variable {redactSensitive input} in
theorem markCompleted_of_error {record : Nat} {reply : ObjectReply} {error : Thrown}
    (h : readBack redactSensitive input reply = .error error) :
    markCompleted redactSensitive input record reply = .throw error := by
  unfold markCompleted
  rw [h]

variable {redactSensitive input} in
theorem markCompleted_of_ok {record : Nat} {reply : ObjectReply} {metadata : ObjectMetadata}
    (h : readBack redactSensitive input reply = .ok metadata) :
    markCompleted redactSensitive input record reply =
      .stmt (.update record (.complete (orderedParts input.parts))) fun _ => .pure metadata := by
  unfold markCompleted
  rw [h]

theorem markCompleted_eq (record : Nat) :
    ((verifyCompleted redactSensitive input).bind fun verified =>
      (Prog.perform (.update record (.complete (orderedParts input.parts)))).bind fun _ =>
        .pure verified) =
      .stmt (.request (.getObject input.key)) (markCompleted redactSensitive input record) := by
  rw [verifyCompleted_eq]
  refine congrArg (Prog.stmt _) (funext fun reply => ?_)
  change (Prog.ofExcept (readBack redactSensitive input reply)).bind _ = _
  cases hread : readBack redactSensitive input reply with
  | error error => exact (markCompleted_of_error hread).symm
  | ok metadata => exact (markCompleted_of_ok hread).symm

def completion : Request :=
  .completeMultipartUpload input.key input.providerUploadRef (orderedParts input.parts)

/-- The call from where its session has been looked up. -/
def completeFound : Option (Nat × UploadSession) → ControllerProg ObjectMetadata
  | none => failWith ⟨some "not_found", js "Multipart upload was not found"⟩
  | some (record, session) =>
    if session.isTarget input.toUploadTarget then
      if session.status = .aborted then
        failWith (invalidRequest "Cannot complete an aborted multipart upload")
      else if session.status = .completed then verifyCompleted redactSensitive input
      else
        match reconcileParts session.parts input.parts with
        | .error error => failWith error
        | .ok () =>
          .stmt (.request (completion input)) (completionAnswered redactSensitive input record)
    else failWith (conflict "Multipart upload reference mismatch")

theorem completeMultipartUpload_eq : completeMultipartUpload redactSensitive input =
    .stmt (.lookup input.uploadId) (completeFound redactSensitive input) := by
  refine congrArg (Prog.stmt _) (funext fun found => ?_)
  match found with
  | none => rfl
  | some (record, session) =>
    change Prog.bind (if _ then _ else _) _ = if _ then _ else _
    split
    · refine ite_congr rfl (fun _ => rfl) fun _ => ite_congr rfl (fun _ => rfl) fun _ => ?_
      cases reconcileParts session.parts input.parts with
      | error error => rfl
      | ok _ =>
        refine congrArg (Prog.stmt _) (funext fun reply => ?_)
        match reply with
        | .error error => rfl
        | .ok _ => exact markCompleted_eq redactSensitive input record
    · rfl

end Pieces

/-! ## One mishap -/

/-- What goes wrong with a request. -/
inductive Mishap where
  /-- It does not reach the provider. -/
  | refused
  /-- The provider serves it and the answer is lost. -/
  | unanswered
  /-- The stream of the object fails. -/
  | broken

section Calls

variable {uploadIdOf : Nat → JsString} {etagOf : Nat → Bytes → JsString}

/-- The answers to a request that goes wrong, and the states that it leaves. -/
inductive Mishap.Strikes (uploadIdOf : Nat → JsString) (etagOf : Nat → Bytes → JsString) :
    Mishap → (statement : Statement) → Shared → statement.Result → Shared → Prop
  | refused (request : Request) (s : Shared) (error : ProviderError) :
      Strikes uploadIdOf etagOf .refused (.request request) s (.error error) s
  | unanswered (request : Request) (s : Shared) (error : ProviderError) :
      Strikes uploadIdOf etagOf .unanswered (.request request) s (.error error)
        (Statement.exec uploadIdOf etagOf (.request request) s).2
  | broken (key : JsString) (s : Shared) (error : ProviderError) :
      Strikes uploadIdOf etagOf .broken (.request (.getObject key)) s (.ok (some (.error error))) s

def IsCompletion : Statement → Prop
  | .request (.completeMultipartUpload _ _ _) => True
  | _ => False

/-- The session of the call is marked already. -/
def MarkedCompleted (s : Shared) (input : CompleteInput) : Prop :=
  ∃ record session, s.controller.lookup input.uploadId = some (record, session) ∧
    session.status = .completed

variable {redactSensitive : JsString → JsString} {input : CompleteInput} {s s' : Shared}
  {mishap : Mishap} {failed : Statement}

theorem exec_getObject (key : JsString) :
    (Statement.exec uploadIdOf etagOf (.request (.getObject key)) s).2 = s := by
  simp only [Statement.exec, Provider.serve]
  cases s.provider.objects key with
  | none => rfl
  | some body => rfl

/-- A request for the object that goes wrong leaves all as it is, and nothing is read back. -/
theorem Mishap.Strikes.getObject (redactSensitive : JsString → JsString) (input : CompleteInput)
    {key : JsString} {reply : ObjectReply}
    (h : mishap.Strikes uploadIdOf etagOf (.request (.getObject key)) s reply s') :
    s' = s ∧ ∃ error, readBack redactSensitive input reply = .error error := by
  cases h with
  | refused _ _ error => exact ⟨rfl, _, rfl⟩
  | unanswered _ _ error => exact ⟨exec_getObject key, _, rfl⟩
  | broken _ _ error => exact ⟨rfl, _, rfl⟩

theorem run_ofExcept {α : Type} (result : Except Thrown α) :
    (Prog.ofExcept result : ControllerProg α).run (Statement.exec uploadIdOf etagOf) s =
      (result, s) := by
  cases result with
  | ok a => rfl
  | error e => rfl

theorem not_faulted_ofExcept {α : Type} {fault : (st : Statement) → Shared → st.Result → Shared → Prop}
    {result : Except Thrown α} {answer : Except Thrown α × Shared} :
    ¬ (Prog.ofExcept result : ControllerProg α).Faulted (Statement.exec uploadIdOf etagOf) fault s
      failed answer := by
  cases result with
  | ok a => exact Prog.not_faulted_pure
  | error e => exact Prog.not_faulted_throw

theorem run_complete :
    (completeMultipartUpload redactSensitive input).run (Statement.exec uploadIdOf etagOf) s =
      (completeFound redactSensitive input (s.controller.lookup input.uploadId)).run
        (Statement.exec uploadIdOf etagOf) s := by
  rw [completeMultipartUpload_eq]
  rfl

/-- Nothing goes wrong where the session is looked up. -/
theorem faulted_complete {answer : Except Thrown ObjectMetadata × Shared}
    (h : (completeMultipartUpload redactSensitive input).Faulted (Statement.exec uploadIdOf etagOf)
      (mishap.Strikes uploadIdOf etagOf) s failed answer) :
    (completeFound redactSensitive input (s.controller.lookup input.uploadId)).Faulted
      (Statement.exec uploadIdOf etagOf) (mishap.Strikes uploadIdOf etagOf) s failed answer := by
  rw [completeMultipartUpload_eq] at h
  rcases Prog.faulted_stmt.mp h with ⟨_, _, hstrikes, _⟩ | hlater
  · cases hstrikes
  · exact hlater

/-- A call that returns has only the object to read, or the upload to complete. -/
theorem completeFound_of_returns {metadata : ObjectMetadata}
    (h : (completeFound redactSensitive input (s.controller.lookup input.uploadId)).run
      (Statement.exec uploadIdOf etagOf) s = (.ok metadata, s')) :
    (MarkedCompleted s input ∧
      completeFound redactSensitive input (s.controller.lookup input.uploadId) =
        verifyCompleted redactSensitive input) ∨
    (¬ MarkedCompleted s input ∧
      ∃ record, completeFound redactSensitive input (s.controller.lookup input.uploadId) =
        .stmt (.request (completion input)) (completionAnswered redactSensitive input record)) := by
  cases hfound : s.controller.lookup input.uploadId with
  | none =>
    rw [hfound] at h
    cases h
  | some found =>
    obtain ⟨record, session⟩ := found
    rw [hfound] at h
    rw [completeFound] at h ⊢
    by_cases htarget : session.isTarget input.toUploadTarget = true
    case neg =>
      rw [if_neg htarget] at h
      cases h
    rw [if_pos htarget] at h ⊢
    by_cases haborted : session.status = .aborted
    case pos =>
      rw [if_pos haborted] at h
      cases h
    rw [if_neg haborted] at h ⊢
    by_cases hcompleted : session.status = .completed
    case pos =>
      rw [if_pos hcompleted]
      exact .inl ⟨⟨record, session, hfound, hcompleted⟩, rfl⟩
    rw [if_neg hcompleted] at h ⊢
    refine .inr ⟨?_, record, ?_⟩
    · rintro ⟨record', session', hfound', hcompleted'⟩
      rw [hfound, Option.some.injEq, Prod.mk.injEq] at hfound'
      exact hcompleted (hfound'.2 ▸ hcompleted')
    · cases hreconcile : reconcileParts session.parts input.parts with
      | error error =>
        rw [hreconcile] at h
        cases h
      | ok _ => rfl

theorem findUpload_removed {uploads : JsString → Option ProviderUpload}
    {objects : JsString → Option Bytes} {served : Nat} {key uploadRef : JsString} :
    Provider.findUpload ⟨Function.update uploads uploadRef none, objects, served⟩ key uploadRef =
      none := by
  simp [Provider.findUpload]

/-- An upload that the provider has completed is not there any more. -/
theorem exec_completion
    (h : (Statement.exec uploadIdOf etagOf (.request (completion input)) s).1 = .ok ()) :
    (Statement.exec uploadIdOf etagOf (.request (completion input)) s).2.controller = s.controller ∧
    (Statement.exec uploadIdOf etagOf (.request (completion input))
      (Statement.exec uploadIdOf etagOf (.request (completion input)) s).2).1 = .error missing := by
  simp only [Statement.exec, completion, Provider.serve] at h ⊢
  cases hupload : s.provider.findUpload input.key input.providerUploadRef with
  | none =>
    rw [hupload] at h
    cases h
  | some upload =>
    simp only [hupload] at h ⊢
    split at h
    case isFalse => cases h
    case isTrue haccepted =>
      rw [if_pos haccepted]
      refine ⟨trivial, ?_⟩
      rw [findUpload_removed]

/-- The call made again over an upload that the provider has completed. -/
theorem run_complete_missing {record : Nat}
    (hopen : completeFound redactSensitive input (s.controller.lookup input.uploadId) =
      .stmt (.request (completion input)) (completionAnswered redactSensitive input record))
    (hmissing : (Statement.exec uploadIdOf etagOf (.request (completion input)) s).1 =
      .error missing) :
    ((completeMultipartUpload redactSensitive input).run (Statement.exec uploadIdOf etagOf) s).1 =
      .error (.storage ⟨some "not_found", js "Object was not found"⟩) := by
  rw [run_complete, hopen]
  change ((completionAnswered redactSensitive input record
    (Statement.exec uploadIdOf etagOf (.request (completion input)) s).1).run _ _).1 = _
  rw [hmissing]
  rfl

/-- What is left after the answer of the provider fails only where the object is read. -/
theorem faulted_answered {record : Nat} {answer : Except Thrown ObjectMetadata × Shared}
    (h : (completionAnswered redactSensitive input record (.ok ())).Faulted
      (Statement.exec uploadIdOf etagOf) (mishap.Strikes uploadIdOf etagOf) s failed answer) :
    answer.2 = s ∧ ¬ IsCompletion failed := by
  rcases Prog.faulted_stmt.mp h with ⟨reply, s', hstrikes, rfl, rfl⟩ | hlater
  · obtain ⟨rfl, error, herror⟩ := hstrikes.getObject redactSensitive input
    rw [markCompleted_of_error herror]
    exact ⟨rfl, id⟩
  · cases hread : readBack redactSensitive input
        (Statement.exec uploadIdOf etagOf (.request (.getObject input.key)) s).1 with
    | error error =>
      rw [markCompleted_of_error hread] at hlater
      exact absurd hlater Prog.not_faulted_throw
    | ok metadata =>
      rw [markCompleted_of_ok hread] at hlater
      rcases Prog.faulted_stmt.mp hlater with ⟨_, _, hstrikes, _⟩ | hend
      · cases hstrikes
      · exact absurd hend Prog.not_faulted_pure

theorem faulted_verify {answer : Except Thrown ObjectMetadata × Shared}
    (h : (verifyCompleted redactSensitive input).Faulted (Statement.exec uploadIdOf etagOf)
      (mishap.Strikes uploadIdOf etagOf) s failed answer) : answer.2 = s := by
  rw [verifyCompleted_eq] at h
  rcases Prog.faulted_stmt.mp h with ⟨reply, s', hstrikes, rfl, rfl⟩ | hlater
  · obtain ⟨rfl, -⟩ := hstrikes.getObject redactSensitive input
    rw [run_ofExcept]
  · exact absurd hlater not_faulted_ofExcept

/-- The same call returns the same metadata where the session was marked before the mishap, or
where the request to complete the upload did not reach the provider; and nowhere else. -/
theorem retry_completes_iff {metadata : ObjectMetadata} {answer : Except Thrown ObjectMetadata × Shared}
    (hcall : (completeMultipartUpload redactSensitive input).run
      (Statement.exec uploadIdOf etagOf) s = (.ok metadata, s'))
    (hfault : (completeMultipartUpload redactSensitive input).Faulted
      (Statement.exec uploadIdOf etagOf) (mishap.Strikes uploadIdOf etagOf) s failed answer) :
    ((completeMultipartUpload redactSensitive input).run (Statement.exec uploadIdOf etagOf)
      answer.2).1 = .ok metadata ↔
      MarkedCompleted s input ∨ (mishap = .refused ∧ IsCompletion failed) := by
  have hretry : answer.2 = s → ((completeMultipartUpload redactSensitive input).run
      (Statement.exec uploadIdOf etagOf) answer.2).1 = .ok metadata := by
    intro hsame
    rw [hsame, hcall]
  have hfault' := faulted_complete hfault
  rw [run_complete] at hcall
  rcases completeFound_of_returns hcall with ⟨hmarked, hfound⟩ | ⟨hmarked, record, hopen⟩
  · rw [hfound] at hfault'
    exact iff_of_true (hretry (faulted_verify hfault')) (.inl hmarked)
  rw [hopen] at hcall hfault'
  -- The provider takes the completion in the call that nothing disturbs.
  have hserved : (Statement.exec uploadIdOf etagOf (.request (completion input)) s).1 = .ok () := by
    change (completionAnswered redactSensitive input record
      (Statement.exec uploadIdOf etagOf (.request (completion input)) s).1).run _ _ = _ at hcall
    cases hreply : (Statement.exec uploadIdOf etagOf (.request (completion input)) s).1 with
    | error error =>
      rw [hreply] at hcall
      cases hcall
    | ok _ => rfl
  obtain ⟨hcontroller, hmissing⟩ := exec_completion hserved
  have happlied : answer.2 = (Statement.exec uploadIdOf etagOf (.request (completion input)) s).2 →
      ((completeMultipartUpload redactSensitive input).run (Statement.exec uploadIdOf etagOf)
        answer.2).1 ≠ .ok metadata := by
    intro hsame
    have hopen' := hopen
    rw [← hcontroller] at hopen'
    rw [hsame, run_complete_missing hopen' hmissing]
    nofun
  rcases Prog.faulted_stmt.mp hfault' with ⟨reply, s'', hstrikes, rfl, rfl⟩ | hlater
  · cases hstrikes with
    | refused _ _ error => exact iff_of_true (hretry rfl) (.inr ⟨rfl, trivial⟩)
    | unanswered _ _ error =>
      exact iff_of_false (happlied rfl) (by rintro (h | ⟨h, -⟩); exacts [hmarked h, by cases h])
  · rw [hserved] at hlater
    obtain ⟨hsame, hread⟩ := faulted_answered hlater
    exact iff_of_false (happlied hsame)
      (by rintro (h | ⟨-, h⟩); exacts [hmarked h, hread h])

end Calls

section Example

/-- An upload of one part, recorded and not yet completed. -/
def retryTarget : UploadTarget := ⟨js "u", js "workspaces/w/temporary/o", js "ref"⟩

def retryInitiate : InitiateInput where
  uploadId := js "u"
  key := js "workspaces/w/temporary/o"
  mediaType := js "text/plain"
  partSize := minPartSize
  expectedByteLength := none
  expectedSha256 := none
  expiresAt := none

def retryInput : CompleteInput := ⟨retryTarget, [⟨1, js "one", 1⟩], 1, sha256 [1]⟩

def retryMetadata : ObjectMetadata := ⟨js "workspaces/w/temporary/o", 1, octetStream, sha256 [1]⟩

abbrev retryExec : (statement : Statement) → Shared → statement.Result × Shared :=
  Statement.exec (fun _ => js "ref") fun _ _ => js "one"

def retryInitiated : Shared :=
  ((initiateMultipartUpload id ⟨js "2026-01-01", js "2026-01-02"⟩ retryInitiate).run retryExec
    ⟨.empty, fun _ => none, fun _ => none, 0⟩).2

def retryRecorded : Shared :=
  ((uploadMultipartPart id ⟨retryTarget, 1, 1⟩ [1]).run retryExec retryInitiated).2

theorem retryRecorded_readBack :
    readBack id retryInput (.ok (some (.ok [1]))) = .ok retryMetadata :=
  if_neg (by simp [retryInput])

theorem retryRecorded_completes :
    (completeMultipartUpload id retryInput).run retryExec retryRecorded =
      (.ok retryMetadata,
        { (retryExec (.request (completion retryInput)) retryRecorded).2 with
          controller := retryRecorded.controller.update 0
            (.complete (orderedParts retryInput.parts)) }) := by
  rw [run_complete]
  change (markCompleted id retryInput 0 (.ok (some (.ok [1])))).run retryExec
    (retryExec (.request (completion retryInput)) retryRecorded).2 = _
  rw [markCompleted_of_ok retryRecorded_readBack]
  rfl

theorem retryRecorded_faulted (answer : Except Thrown ObjectMetadata × Shared)
    (mishap : Mishap) (failed : Statement)
    (h : (completionAnswered id retryInput 0
        (retryExec (.request (completion retryInput)) retryRecorded).1).Faulted retryExec
      (mishap.Strikes (fun _ => js "ref") fun _ _ => js "one")
      (retryExec (.request (completion retryInput)) retryRecorded).2 failed answer) :
    (completeMultipartUpload id retryInput).Faulted retryExec
      (mishap.Strikes (fun _ => js "ref") fun _ _ => js "one") retryRecorded failed answer := by
  rw [completeMultipartUpload_eq]
  exact .later (.later h)

/-- The provider has completed the upload, the object cannot be read once, and the second call
finds no upload. -/
theorem completed_upload_not_found :
    ((completeMultipartUpload id retryInput).run retryExec retryRecorded).1 = .ok retryMetadata ∧
    ∃ answer, (completeMultipartUpload id retryInput).Faulted retryExec
        (Mishap.refused.Strikes (fun _ => js "ref") fun _ _ => js "one") retryRecorded
        (.request (.getObject (js "workspaces/w/temporary/o"))) answer ∧
      answer.1 = .error (.storage
        ⟨some "transient", js "Storage provider is temporarily unavailable"⟩) ∧
      ((completeMultipartUpload id retryInput).run retryExec answer.2).1 =
        .error (.storage ⟨some "not_found", js "Object was not found"⟩) := by
  rw [retryRecorded_completes]
  refine ⟨rfl, _, retryRecorded_faulted _ .refused _ (.here (.refused _ _ ⟨some 503, none, none⟩)),
    rfl, ?_⟩
  rfl

/-- A request that the provider has not seen is sent again. -/
theorem retry_completes_iff_refused :
    ∃ answer, (completeMultipartUpload id retryInput).Faulted retryExec
        (Mishap.refused.Strikes (fun _ => js "ref") fun _ _ => js "one") retryRecorded
        (.request (completion retryInput)) answer ∧
      ((completeMultipartUpload id retryInput).run retryExec answer.2).1 = .ok retryMetadata := by
  obtain ⟨answer, hfault⟩ : ∃ answer, (completeMultipartUpload id retryInput).Faulted retryExec
      (Mishap.refused.Strikes (fun _ => js "ref") fun _ _ => js "one") retryRecorded
      (.request (completion retryInput)) answer := by
    rw [completeMultipartUpload_eq]
    exact ⟨_, .later (.here (.refused _ _ ⟨some 503, none, none⟩))⟩
  exact ⟨answer, hfault,
    (retry_completes_iff retryRecorded_completes hfault).mpr (.inr ⟨rfl, trivial⟩)⟩

end Example

end TrustCore.CompletionRetry
