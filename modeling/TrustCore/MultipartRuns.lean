import TrustCore.MemoryStorage
import TrustCore.S3Multipart

/-!
# The end of an upload

A session that is completed or aborted should stay as it is. Both storages ask for the status
before they suspend and write after it, and an abort does not ask. The steps that go wrong are
exactly those that write into a session that has ended in the meantime.
-/

namespace TrustCore.MultipartRuns

open TrustCore.Utf TrustCore.Multipart TrustCore.Runs TrustCore.Programs TrustCore.MemoryStorage

/-- What a session that has ended keeps. -/
def SameEnd (before after : UploadSession) : Prop :=
  after.status = before.status ∧ after.parts = before.parts

theorem SameEnd.refl (session : UploadSession) : SameEnd session session := ⟨rfl, rfl⟩

theorem SameEnd.trans {a b c : UploadSession} (h : SameEnd a b) (h' : SameEnd b c) : SameEnd a c :=
  ⟨h'.1.trans h.1, h'.2.trans h.2⟩

theorem SameEnd.terminal {a b : UploadSession} (h : SameEnd a b) (ha : a.Terminal) : b.Terminal := by
  rw [UploadSession.Terminal, h.1]
  exact ha

/-- A session that is aborted has no parts. -/
def EmptyWhenAborted (session : UploadSession) : Prop :=
  session.status = .aborted → session.parts = []

theorem terminal_recordPart {session : UploadSession} {part : UploadedPart} :
    ¬ (session.recordPart part).Terminal := by
  simp [UploadSession.Terminal, UploadSession.recordPart]

theorem sameEnd_abort {session : UploadSession} (hempty : EmptyWhenAborted session)
    (h : session.status = .aborted) : SameEnd session session.abort :=
  ⟨h.symm, (hempty h).symm⟩

theorem emptyWhenAborted_recordPart {session : UploadSession} {part : UploadedPart} :
    EmptyWhenAborted (session.recordPart part) := by
  intro h
  cases h

theorem emptyWhenAborted_complete {session : UploadSession} {ordered : List UploadedPart} :
    EmptyWhenAborted (session.complete ordered) := by
  intro h
  cases h

theorem emptyWhenAborted_abort {session : UploadSession} : EmptyWhenAborted session.abort :=
  fun _ => rfl

/-! ## In memory -/

section Memory

/-- The body has the declared size and the session has no part of its number. -/
def Records (session : UploadSession) (input : PartInput) (body : Bytes) : Prop :=
  body.length = input.size ∧ body.length ≤ maxPartSize ∧
    session.findPart input.partNumber = none

/-- No part is recorded for a session that has ended, and no completed one is aborted. -/
def MemoryGuard (r : RunState) : MemoryEvent → Prop
  | .finishPart input body => ∀ upload, r.storage.multipart input.uploadId = some upload →
      Records upload.session input body → ¬ upload.session.Terminal
  | .abort target => ∀ upload, r.storage.multipart target.uploadId = some upload →
      upload.session.isTarget target = true → upload.session.status ≠ .completed
  | _ => True

/-- What an event does to the uploads. -/
inductive UploadsChange (before : JsString → Option MemoryUpload) :
    MemoryEvent → (JsString → Option MemoryUpload) → Prop
  | same (e : MemoryEvent) : UploadsChange before e before
  | create (draw : Storage.SessionDraw) (input : InitiateInput) (upload : MemoryUpload)
      (hfree : before input.uploadId = none) (hstatus : upload.session.status = .initiated) :
      UploadsChange before (.initiate draw input)
        (Function.update before input.uploadId (some upload))
  | recordPart (input : PartInput) (body : Bytes) (part : UploadedPart) (upload : MemoryUpload)
      (hupload : before input.uploadId = some upload) (h : Records upload.session input body) :
      UploadsChange before (.finishPart input body)
        (Function.update before input.uploadId (some (upload.recordPart part body)))
  | complete (input : CompleteInput) (ordered : List UploadedPart) (upload : MemoryUpload)
      (hupload : before input.uploadId = some upload) (h : ¬ upload.session.Terminal) :
      UploadsChange before (.complete input)
        (Function.update before input.uploadId (some (upload.complete ordered)))
  | abort (target : UploadTarget) (upload : MemoryUpload)
      (hupload : before target.uploadId = some upload)
      (h : upload.session.isTarget target = true) :
      UploadsChange before (.abort target)
        (Function.update before target.uploadId (some upload.abort))

variable {relaxMultipartLimits : Bool} {md5 : Bytes → JsString} {s : Storage}

theorem uploads_initiate (draw : Storage.SessionDraw) (input : InitiateInput) :
    UploadsChange s.multipart (.initiate draw input)
      (Storage.initiateMultipartUpload relaxMultipartLimits draw input s).2.multipart := by
  rw [Storage.initiateMultipartUpload]
  split
  · exact .same _
  · split
    · exact .same _
    · next hfree => exact .create draw input _ hfree rfl

theorem uploads_finishPart (input : PartInput) (body : Bytes) :
    UploadsChange s.multipart (.finishPart input body)
      (s.finishPart md5 input body).2.multipart := by
  rw [Storage.finishPart]
  split
  · exact .same _
  · next upload hupload =>
    split
    · exact .same _
    · next hsize =>
      split
      · exact .same _
      · next hlimit =>
        split
        · split <;> exact .same _
        · next hfree =>
          exact .recordPart input body _ upload hupload ⟨not_not.mp hsize, not_lt.mp hlimit, hfree⟩

theorem uploads_complete (input : CompleteInput) :
    UploadsChange s.multipart (.complete input) (s.completeMultipartUpload input).2.multipart := by
  rw [Storage.completeMultipartUpload]
  split
  · exact .same _
  · next upload hrequire =>
    obtain ⟨hupload, -⟩ := Storage.requireMultipart_eq_ok hrequire
    split
    · exact .same _
    · next haborted =>
      split
      · exact .same _
      · next hcompleted =>
        split
        · exact .same _
        · refine .complete input _ upload hupload ?_
          rintro (h | h)
          · exact hcompleted h
          · exact haborted h

theorem uploads_abort (target : UploadTarget) :
    UploadsChange s.multipart (.abort target) (s.abortMultipartUpload target).2.multipart := by
  rw [Storage.abortMultipartUpload]
  split
  · exact .same _
  · next upload hupload =>
    split
    · exact .same _
    · next htarget => exact .abort target upload hupload (by simpa using htarget)

theorem uploads_step {r r' : RunState} {e : MemoryEvent}
    (h : Step relaxMultipartLimits md5 r e r') :
    UploadsChange r.storage.multipart e r'.storage.multipart := by
  cases h with
  | startWrite key mediaType call h => exact .same _
  | finishWrite before after call body h => exact .same _
  | commit input => exact .same _
  | deleteTemporary key =>
    dsimp only
    rw [Storage.deleteTemporary]
    split <;> exact .same _
  | initiate draw input => exact uploads_initiate draw input
  | startPart input h => exact .same _
  | finishPart before after input body h => exact uploads_finishPart input body
  | complete input => exact uploads_complete input
  | abort target => exact uploads_abort target
  | bodyFails before after call h => exact .same _

/-- The sessions that have ended stay as they are. -/
def EndsKept (before after : JsString → Option MemoryUpload) : Prop :=
  ∀ uploadId upload, before uploadId = some upload → upload.session.Terminal →
    ∃ upload', after uploadId = some upload' ∧ SameEnd upload.session upload'.session

theorem EndsKept.trans {a b c : JsString → Option MemoryUpload} (h : EndsKept a b)
    (h' : EndsKept b c) : EndsKept a c := by
  intro uploadId upload hupload hterminal
  obtain ⟨upload₁, hupload₁, hsame₁⟩ := h uploadId upload hupload hterminal
  obtain ⟨upload₂, hupload₂, hsame₂⟩ := h' uploadId upload₁ hupload₁ (hsame₁.terminal hterminal)
  exact ⟨upload₂, hupload₂, hsame₁.trans hsame₂⟩

/-- One upload is replaced, by one that keeps its end. -/
theorem endsKept_update {before : JsString → Option MemoryUpload} {uploadId : JsString}
    {upload' : MemoryUpload}
    (h : ∀ upload, before uploadId = some upload → upload.session.Terminal →
      SameEnd upload.session upload'.session) :
    EndsKept before (Function.update before uploadId (some upload')) := by
  intro id upload hupload hterminal
  by_cases hid : id = uploadId
  · subst hid
    exact ⟨upload', Function.update_self _ _ _, h upload hupload hterminal⟩
  · exact ⟨upload, by rw [Function.update_of_ne hid, hupload], .refl _⟩

/-- An upload that replaces an ended one with another status loses the end. -/
theorem not_endsKept_update {before : JsString → Option MemoryUpload} {uploadId : JsString}
    {upload upload' : MemoryUpload} (hupload : before uploadId = some upload)
    (hterminal : upload.session.Terminal)
    (hstatus : upload'.session.status ≠ upload.session.status) :
    ¬ EndsKept before (Function.update before uploadId (some upload')) := by
  intro h
  obtain ⟨found, hfound, hsame⟩ := h uploadId upload hupload hterminal
  rw [Function.update_self, Option.some.injEq] at hfound
  subst hfound
  exact hstatus hsame.1

def UploadsEmptyWhenAborted (r : RunState) : Prop :=
  ∀ uploadId upload, r.storage.multipart uploadId = some upload → EmptyWhenAborted upload.session

theorem emptyWhenAborted_step {r r' : RunState} {e : MemoryEvent}
    (h : Step relaxMultipartLimits md5 r e r') (hempty : UploadsEmptyWhenAborted r) :
    UploadsEmptyWhenAborted r' := by
  have hupdate : ∀ id (upload' : MemoryUpload), EmptyWhenAborted upload'.session →
      ∀ uploadId upload, Function.update r.storage.multipart id (some upload') uploadId =
        some upload → EmptyWhenAborted upload.session := by
    intro id upload' hupload' uploadId upload hupload
    by_cases hid : uploadId = id
    · subst hid
      rw [Function.update_self] at hupload
      cases hupload
      exact hupload'
    · rw [Function.update_of_ne hid] at hupload
      exact hempty uploadId upload hupload
  have hchange := uploads_step h
  rw [UploadsEmptyWhenAborted]
  generalize r'.storage.multipart = after at hchange ⊢
  cases hchange with
  | same => exact hempty
  | create draw input upload hfree hstatus =>
    refine hupdate _ _ ?_
    intro haborted
    rw [hstatus] at haborted
    cases haborted
  | recordPart input body part upload hupload hrecords =>
    exact hupdate _ _ emptyWhenAborted_recordPart
  | complete input ordered upload hupload hterminal => exact hupdate _ _ emptyWhenAborted_complete
  | abort target upload hupload htarget => exact hupdate _ _ emptyWhenAborted_abort

/-- A step keeps the ends exactly when it meets the condition. -/
theorem endsKept_step {r r' : RunState} {e : MemoryEvent}
    (h : Step relaxMultipartLimits md5 r e r') (hempty : UploadsEmptyWhenAborted r)
    (hguard : MemoryGuard r e) : EndsKept r.storage.multipart r'.storage.multipart := by
  have hchange := uploads_step h
  generalize r'.storage.multipart = after at hchange ⊢
  cases hchange with
  | same => exact fun uploadId upload hupload _ => ⟨upload, hupload, .refl _⟩
  | create draw input upload hfree hstatus =>
    refine endsKept_update ?_
    intro existing hexisting
    rw [hfree] at hexisting
    cases hexisting
  | recordPart input body part upload hupload hrecords =>
    refine endsKept_update ?_
    intro found hfound hterminal
    rw [hupload] at hfound
    cases hfound
    exact absurd hterminal (hguard upload hupload hrecords)
  | complete input ordered upload hupload hnot =>
    refine endsKept_update ?_
    intro found hfound hterminal
    rw [hupload] at hfound
    cases hfound
    exact absurd hterminal hnot
  | abort target upload hupload htarget =>
    refine endsKept_update ?_
    intro found hfound hterminal
    rw [hupload] at hfound
    cases hfound
    obtain hcompleted | haborted := hterminal
    · exact absurd hcompleted (hguard upload hupload htarget)
    · exact sameEnd_abort (hempty _ upload hupload) haborted

theorem not_endsKept_step {r r' : RunState} {e : MemoryEvent}
    (h : Step relaxMultipartLimits md5 r e r') (hguard : ¬ MemoryGuard r e) :
    ¬ EndsKept r.storage.multipart r'.storage.multipart := by
  cases h with
  | finishPart before after input body hsuspended =>
    simp only [MemoryGuard, not_forall, not_not] at hguard
    obtain ⟨upload, hupload, ⟨hsize, hlimit, hfree⟩, hterminal⟩ := hguard
    dsimp only
    rw [Storage.finishPart]
    simp only [hupload, hfree]
    rw [if_neg (not_not.mpr hsize), if_neg (not_lt.mpr hlimit)]
    refine not_endsKept_update hupload hterminal ?_
    intro hstatus
    rw [UploadSession.Terminal, ← hstatus] at hterminal
    exact terminal_recordPart hterminal
  | abort target =>
    simp only [MemoryGuard, not_forall, not_not] at hguard
    obtain ⟨upload, hupload, htarget, hcompleted⟩ := hguard
    dsimp only
    rw [Storage.abortMultipartUpload]
    simp only [hupload]
    rw [htarget]
    refine not_endsKept_update hupload (.inl hcompleted) ?_
    rw [hcompleted]
    simp [MemoryUpload.abort, UploadSession.abort]
  | startWrite key mediaType call h => exact absurd trivial hguard
  | finishWrite before after call body h => exact absurd trivial hguard
  | commit input => exact absurd trivial hguard
  | deleteTemporary key => exact absurd trivial hguard
  | initiate draw input => exact absurd trivial hguard
  | startPart input h => exact absurd trivial hguard
  | complete input => exact absurd trivial hguard
  | bodyFails before after call h => exact absurd trivial hguard

end Memory

/-! ## At the provider -/

section Provider

open TrustCore.S3Multipart

/-- The session of a record that a statement writes into has not ended, but for a second
completion with the same parts and a second abort; nothing takes the place of an ended one. -/
def StatementGuard (controller : Controller) : Statement → Prop
  | .update record (.recordPart _) => ∀ session, controller.records[record]? = some session →
      ¬ session.Terminal
  | .update record (.complete ordered) => ∀ session, controller.records[record]? = some session →
      session.status ≠ .aborted ∧ (session.status = .completed → session.parts = ordered)
  | .update record .abort => ∀ session, controller.records[record]? = some session →
      session.status ≠ .completed
  | .insert input _ _ _ => ∀ record session,
      controller.lookup input.uploadId = some (record, session) → ¬ session.Terminal
  | _ => True

/-- The sessions that have ended stay, as records and under their upload ids. -/
structure RecordsKept (before after : Controller) : Prop where
  records : ∀ (record : Nat) session, before.records[record]? = some session → session.Terminal →
    ∃ session', after.records[record]? = some session' ∧ SameEnd session session'
  sessions : ∀ uploadId record session, before.lookup uploadId = some (record, session) →
    session.Terminal → ∃ session', after.lookup uploadId = some (record, session') ∧
      SameEnd session session'

theorem RecordsKept.refl (controller : Controller) : RecordsKept controller controller where
  records _ session h _ := ⟨session, h, .refl _⟩
  sessions _ _ session h _ := ⟨session, h, .refl _⟩

theorem RecordsKept.trans {a b c : Controller} (h : RecordsKept a b) (h' : RecordsKept b c) :
    RecordsKept a c where
  records := by
    intro record session hsession hterminal
    obtain ⟨session₁, hsession₁, hsame₁⟩ := h.records record session hsession hterminal
    obtain ⟨session₂, hsession₂, hsame₂⟩ :=
      h'.records record session₁ hsession₁ (hsame₁.terminal hterminal)
    exact ⟨session₂, hsession₂, hsame₁.trans hsame₂⟩
  sessions := by
    intro uploadId record session hsession hterminal
    obtain ⟨session₁, hsession₁, hsame₁⟩ := h.sessions uploadId record session hsession hterminal
    obtain ⟨session₂, hsession₂, hsame₂⟩ :=
      h'.sessions uploadId record session₁ hsession₁ (hsame₁.terminal hterminal)
    exact ⟨session₂, hsession₂, hsame₁.trans hsame₂⟩

theorem lookup_eq_some {controller : Controller} {uploadId : JsString} {record : Nat}
    {session : UploadSession} : controller.lookup uploadId = some (record, session) ↔
      controller.sessions uploadId = some record ∧ controller.records[record]? = some session := by
  rw [Controller.lookup]
  cases controller.sessions uploadId with
  | none => simp
  | some found =>
    simp only [Option.bind_some, Option.map_eq_some_iff, Prod.mk.injEq, Option.some.injEq]
    constructor
    · rintro ⟨session', hsession, rfl, rfl⟩
      exact ⟨rfl, hsession⟩
    · rintro ⟨rfl, hsession⟩
      exact ⟨session, hsession, rfl, rfl⟩

theorem records_update {controller : Controller} {record i : Nat} {change : SessionChange} :
    (controller.update record change).records[i]? =
      if record = i then (controller.records[i]?).map change.apply else controller.records[i]? := by
  rw [Controller.update, List.getElem?_modify]
  split <;> simp

/-- A change of one record that keeps the end of its session. -/
theorem recordsKept_update {controller : Controller} {record : Nat} {change : SessionChange}
    (h : ∀ session, controller.records[record]? = some session → session.Terminal →
      SameEnd session (change.apply session)) :
    RecordsKept controller (controller.update record change) := by
  have hrecords : ∀ (i : Nat) session, controller.records[i]? = some session → session.Terminal →
      ∃ session', (controller.update record change).records[i]? = some session' ∧
        SameEnd session session' := by
    intro i session hsession hterminal
    rw [records_update]
    by_cases hi : record = i
    · subst hi
      rw [if_pos rfl, hsession]
      exact ⟨change.apply session, rfl, h session hsession hterminal⟩
    · rw [if_neg hi]
      exact ⟨session, hsession, .refl _⟩
  refine ⟨hrecords, ?_⟩
  intro uploadId i session hsession hterminal
  obtain ⟨hi, hrecord⟩ := lookup_eq_some.mp hsession
  obtain ⟨session', hsession', hsame⟩ := hrecords i session hrecord hterminal
  exact ⟨session', lookup_eq_some.mpr ⟨hi, hsession'⟩, hsame⟩

theorem recordsKept_insert {controller : Controller} {input : InitiateInput}
    {providerUploadRef createdAt defaultExpiry : JsString}
    (h : ∀ record session, controller.lookup input.uploadId = some (record, session) →
      ¬ session.Terminal) :
    RecordsKept controller
      (controller.insert (newSession input providerUploadRef createdAt defaultExpiry)) := by
  have hrecords : ∀ (i : Nat) session, controller.records[i]? = some session →
      (controller.insert (newSession input providerUploadRef createdAt defaultExpiry)).records[i]? =
        some session := by
    intro i session hsession
    obtain ⟨hlt, -⟩ := List.getElem?_eq_some_iff.mp hsession
    rw [Controller.insert, List.getElem?_append_left hlt, hsession]
  refine ⟨fun i session hsession _ => ⟨session, hrecords i session hsession, .refl _⟩, ?_⟩
  intro uploadId i session hsession hterminal
  by_cases hid : uploadId = input.uploadId
  · subst hid
    exact absurd hterminal (h i session hsession)
  · obtain ⟨hi, hrecord⟩ := lookup_eq_some.mp hsession
    refine ⟨session, lookup_eq_some.mpr ⟨?_, hrecords i session hrecord⟩, .refl _⟩
    rw [Controller.insert]
    exact (Function.update_of_ne hid _ _).trans hi

/-- What a statement does to the sessions. -/
def onController : Statement → Controller → Controller
  | .insert input providerUploadRef createdAt defaultExpiry, controller =>
    controller.insert (newSession input providerUploadRef createdAt defaultExpiry)
  | .update record change, controller => controller.update record change
  | _, controller => controller

variable {ι : Type} {uploadIdOf : Nat → JsString} {etagOf : Nat → Bytes → JsString}
  {redactSensitive : JsString → JsString}

theorem controller_exec (statement : Statement) (s : Shared) :
    (statement.exec uploadIdOf etagOf s).2.controller = onController statement s.controller := by
  cases statement <;> rfl

theorem controller_system {i : ι} {s s' : Shared} {tx tx' : Unit} {statement : Statement}
    {result : statement.Result}
    (h : (controllerSystem uploadIdOf etagOf ι).exec i s tx statement result s' tx') :
    s'.controller = onController statement s.controller := by
  obtain hserved | ⟨hlost, rfl | rfl⟩ := h
  · rw [← controller_exec, ← hserved]
  · cases statement with
    | request r => rfl
    | _ => exact hlost.elim
  · exact controller_exec statement s

def RecordsEmptyWhenAborted (controller : Controller) : Prop :=
  ∀ session ∈ controller.records, EmptyWhenAborted session

theorem emptyWhenAborted_onController {controller : Controller}
    (h : RecordsEmptyWhenAborted controller) (statement : Statement) :
    RecordsEmptyWhenAborted (onController statement controller) := by
  cases statement with
  | insert input providerUploadRef createdAt defaultExpiry =>
    intro session hsession
    rw [onController, Controller.insert, List.mem_append, List.mem_singleton] at hsession
    obtain hsession | rfl := hsession
    · exact h session hsession
    · intro haborted
      cases haborted
  | update record change =>
    intro session hsession
    obtain ⟨i, hi⟩ := List.mem_iff_getElem?.mp hsession
    rw [onController, records_update] at hi
    split at hi
    · obtain ⟨before, hbefore, rfl⟩ := Option.map_eq_some_iff.mp hi
      cases change with
      | recordPart part => exact emptyWhenAborted_recordPart
      | complete ordered => exact emptyWhenAborted_complete
      | abort => exact emptyWhenAborted_abort
    · exact h session (List.mem_of_getElem? hi)
  | lookup uploadId => exact h
  | findPart record partNumber => exact h
  | request r => exact h

theorem recordsKept_onController {controller : Controller} {statement : Statement}
    (h : RecordsEmptyWhenAborted controller) (hguard : StatementGuard controller statement) :
    RecordsKept controller (onController statement controller) := by
  cases statement with
  | insert input providerUploadRef createdAt defaultExpiry => exact recordsKept_insert hguard
  | update record change =>
    refine recordsKept_update fun session hsession hterminal => ?_
    cases change with
    | recordPart part => exact absurd hterminal (hguard session hsession)
    | complete ordered =>
      obtain ⟨hnot, hsame⟩ := hguard session hsession
      obtain hcompleted | haborted := hterminal
      · exact ⟨hcompleted.symm, (hsame hcompleted).symm⟩
      · exact absurd haborted hnot
    | abort =>
      obtain hcompleted | haborted := hterminal
      · exact absurd hcompleted (hguard session hsession)
      · exact sameEnd_abort (h session (List.mem_of_getElem? hsession)) haborted
  | lookup uploadId => exact .refl _
  | findPart record partNumber => exact .refl _
  | request r => exact .refl _

/-- A change of an ended session that does not keep its end. -/
theorem not_recordsKept_update {controller : Controller} {record : Nat} {change : SessionChange}
    {session : UploadSession} (hsession : controller.records[record]? = some session)
    (hterminal : session.Terminal) (h : ¬ SameEnd session (change.apply session)) :
    ¬ RecordsKept controller (controller.update record change) := by
  intro hkept
  obtain ⟨session', hsession', hsame⟩ := hkept.records record session hsession hterminal
  rw [records_update, if_pos rfl, hsession, Option.map_some, Option.some.injEq] at hsession'
  rw [hsession'] at h
  exact h hsame

theorem not_recordsKept_onController {controller : Controller} {statement : Statement}
    (hguard : ¬ StatementGuard controller statement) :
    ¬ RecordsKept controller (onController statement controller) := by
  cases statement with
  | insert input providerUploadRef createdAt defaultExpiry =>
    simp only [StatementGuard, not_forall, not_not] at hguard
    obtain ⟨record, session, hsession, hterminal⟩ := hguard
    intro hkept
    obtain ⟨session', hsession', -⟩ :=
      hkept.sessions input.uploadId record session hsession hterminal
    obtain ⟨hlt, -⟩ := List.getElem?_eq_some_iff.mp (lookup_eq_some.mp hsession).2
    have hplace := (lookup_eq_some.mp hsession').1
    have hlast : (onController (.insert input providerUploadRef createdAt defaultExpiry)
        controller).sessions input.uploadId = some controller.records.length :=
      Function.update_self input.uploadId _ controller.sessions
    rw [hlast, Option.some.injEq] at hplace
    omega
  | update record change =>
    cases change with
    | recordPart part =>
      simp only [StatementGuard, not_forall, not_not] at hguard
      obtain ⟨session, hsession, hterminal⟩ := hguard
      refine not_recordsKept_update hsession hterminal fun hsame => ?_
      exact terminal_recordPart (hsame.terminal hterminal)
    | complete ordered =>
      simp only [StatementGuard, not_forall, not_and_or, not_not] at hguard
      obtain ⟨session, hsession, haborted | ⟨hcompleted, hparts⟩⟩ := hguard
      · refine not_recordsKept_update hsession (.inr haborted) fun hsame => ?_
        rw [SameEnd, haborted] at hsame
        cases hsame.1
      · refine not_recordsKept_update hsession (.inl hcompleted) fun hsame => ?_
        exact hparts hsame.2.symm
    | abort =>
      simp only [StatementGuard, not_forall, not_not] at hguard
      obtain ⟨session, hsession, hcompleted⟩ := hguard
      refine not_recordsKept_update hsession (.inl hcompleted) fun hsame => ?_
      rw [SameEnd, hcompleted] at hsame
      cases hsame.1
  | lookup uploadId => exact absurd trivial hguard
  | findPart record partNumber => exact absurd trivial hguard
  | request r => exact absurd trivial hguard

/-- The statement that a process runs meets its condition. -/
def ControllerGuard (w : ControllerWorld ι) : ControllerEvent ι → Prop
  | .run i => ∀ tx statement k, w.procs i = .running tx (.stmt statement k) →
      StatementGuard w.shared.controller statement
  | _ => True

variable [DecidableEq ι] {allowed : ControllerProg ControllerAnswer → Prop}
  {w w' : ControllerWorld ι} {e : ControllerEvent ι}

theorem emptyWhenAborted_world
    (h : (controllerSystem uploadIdOf etagOf ι).Step allowed w e w')
    (hempty : RecordsEmptyWhenAborted w.shared.controller) :
    RecordsEmptyWhenAborted w'.shared.controller := by
  cases h with
  | begin i p h hp => exact hempty
  | run i tx tx' st k r shared' h hx hc =>
    dsimp only
    rw [controller_system hx]
    exact emptyWhenAborted_onController hempty st
  | fail i tx p h hp => exact hempty
  | finish i tx a h => exact hempty

theorem recordsKept_world (h : (controllerSystem uploadIdOf etagOf ι).Step allowed w e w')
    (hempty : RecordsEmptyWhenAborted w.shared.controller) (hguard : ControllerGuard w e) :
    RecordsKept w.shared.controller w'.shared.controller := by
  cases h with
  | begin i p h hp => exact .refl _
  | run i tx tx' st k r shared' h hx hc =>
    dsimp only
    rw [controller_system hx]
    exact recordsKept_onController hempty (hguard tx st k h)
  | fail i tx p h hp => exact .refl _
  | finish i tx a h => exact .refl _

theorem not_recordsKept_world (h : (controllerSystem uploadIdOf etagOf ι).Step allowed w e w')
    (hguard : ¬ ControllerGuard w e) : ¬ RecordsKept w.shared.controller w'.shared.controller := by
  cases h with
  | begin i p h hp => exact absurd trivial hguard
  | run i tx tx' st k r shared' h hx hc =>
    dsimp only
    rw [controller_system hx]
    refine not_recordsKept_onController fun hstatement => hguard ?_
    intro tx₁ st₁ k₁ h₁
    rw [h] at h₁
    cases h₁
    exact hstatement
  | fail i tx p h hp => exact absurd trivial hguard
  | finish i tx a h => exact absurd trivial hguard

end Provider

section Runs

variable {relaxMultipartLimits : Bool} {md5 : Bytes → JsString}

theorem uploads_empty_of_reaches {guard : RunState → MemoryEvent → Prop} {r : RunState}
    (hr : (memoryMachine relaxMultipartLimits md5).Reaches guard r) : UploadsEmptyWhenAborted r := by
  induction hr with
  | init h =>
    intro uploadId upload hupload
    rw [show _ = _ from h] at hupload
    cases hupload
  | step _ _ hstep ih => exact emptyWhenAborted_step hstep ih

theorem endsKept_of_leads {r r' : RunState}
    (hr : (memoryMachine relaxMultipartLimits md5).Reaches MemoryGuard r)
    (hleads : (memoryMachine relaxMultipartLimits md5).Leads MemoryGuard r r') :
    EndsKept r.storage.multipart r'.storage.multipart := by
  induction hleads with
  | refl => exact fun uploadId upload hupload _ => ⟨upload, hupload, .refl _⟩
  | tail hfrom hstep ih =>
    obtain ⟨e, hguard, hstep⟩ := hstep
    exact ih.trans (endsKept_step hstep (uploads_empty_of_reaches (hr.leads hfrom)) hguard)

open TrustCore.S3Multipart

variable {ι : Type} [DecidableEq ι] {uploadIdOf : Nat → JsString} {etagOf : Nat → Bytes → JsString}
  {redactSensitive : JsString → JsString}

theorem records_empty_of_reaches {guard : ControllerWorld ι → ControllerEvent ι → Prop}
    {w : ControllerWorld ι}
    (hw : (controllerMachine ι uploadIdOf etagOf redactSensitive).Reaches guard w) :
    RecordsEmptyWhenAborted w.shared.controller := by
  induction hw with
  | init h =>
    intro session hsession
    rw [h.1] at hsession
    cases hsession
  | step _ _ hstep ih => exact emptyWhenAborted_world hstep ih

theorem recordsKept_of_leads {w w' : ControllerWorld ι}
    (hw : (controllerMachine ι uploadIdOf etagOf redactSensitive).Reaches ControllerGuard w)
    (hleads : (controllerMachine ι uploadIdOf etagOf redactSensitive).Leads ControllerGuard w w') :
    RecordsKept w.shared.controller w'.shared.controller := by
  induction hleads with
  | refl => exact .refl _
  | tail hfrom hstep ih =>
    obtain ⟨e, hguard, hstep⟩ := hstep
    exact ih.trans (recordsKept_world hstep (records_empty_of_reaches (hw.leads hfrom)) hguard)

/-- In both storages: where every step meets its condition, an ended session stays as it is
and an aborted one has no parts; and a step that does not meet it loses the end of a session. -/
theorem terminal_iff_guarded (relaxMultipartLimits : Bool) (md5 : Bytes → JsString) (ι : Type)
    [DecidableEq ι] (uploadIdOf : Nat → JsString) (etagOf : Nat → Bytes → JsString)
    (redactSensitive : JsString → JsString) :
    ((∀ r, (memoryMachine relaxMultipartLimits md5).Reaches MemoryGuard r →
        UploadsEmptyWhenAborted r ∧
        ∀ r', (memoryMachine relaxMultipartLimits md5).Leads MemoryGuard r r' →
          EndsKept r.storage.multipart r'.storage.multipart) ∧
      ∀ r e r', (memoryMachine relaxMultipartLimits md5).Reachable r →
        (memoryMachine relaxMultipartLimits md5).step r e r' → ¬ MemoryGuard r e →
        ¬ EndsKept r.storage.multipart r'.storage.multipart) ∧
    (∀ w : ControllerWorld ι,
        (controllerMachine ι uploadIdOf etagOf redactSensitive).Reaches ControllerGuard w →
        RecordsEmptyWhenAborted w.shared.controller ∧
        ∀ w', (controllerMachine ι uploadIdOf etagOf redactSensitive).Leads ControllerGuard w w' →
          RecordsKept w.shared.controller w'.shared.controller) ∧
      ∀ (w : ControllerWorld ι) e w',
        (controllerMachine ι uploadIdOf etagOf redactSensitive).Reachable w →
        (controllerMachine ι uploadIdOf etagOf redactSensitive).step w e w' →
        ¬ ControllerGuard w e → ¬ RecordsKept w.shared.controller w'.shared.controller := by
  refine ⟨⟨?_, ?_⟩, ?_, ?_⟩
  · intro r hr
    exact ⟨uploads_empty_of_reaches hr, fun r' hleads => endsKept_of_leads hr hleads⟩
  · intro r e r' _ hstep hguard
    exact not_endsKept_step hstep hguard
  · intro w hw
    exact ⟨records_empty_of_reaches hw, fun w' hleads => recordsKept_of_leads hw hleads⟩
  · intro w e w' _ hstep hguard
    exact not_recordsKept_world hstep hguard

end Runs

section Example

/-- An upload of one part whose body arrives late. -/
def lateInitiate : InitiateInput where
  uploadId := js "u"
  key := js "workspaces/w/temporary/o"
  mediaType := js "text/plain"
  partSize := minPartSize
  expectedByteLength := none
  expectedSha256 := none
  expiresAt := none

def lateDraw : Storage.SessionDraw := ⟨js "memory-1", js "2026-01-01", js "2026-01-02"⟩

def latePart : PartInput where
  uploadId := js "u"
  key := js "workspaces/w/temporary/o"
  providerUploadRef := js "memory-1"
  partNumber := 1
  size := 1

def lateStarted : Storage :=
  (Storage.initiateMultipartUpload false lateDraw lateInitiate .empty).2

def lateAborted : Storage := (lateStarted.abortMultipartUpload latePart.toUploadTarget).2

def lateMd5 : Bytes → JsString := fun _ => js "0cc1"

def lateRecorded : Storage := (lateAborted.finishPart lateMd5 latePart [104]).2

theorem late_aborted_reaches : (memoryMachine false lateMd5).Reaches MemoryGuard
    ⟨lateAborted, [.part latePart]⟩ := by
  have hempty : (memoryMachine false lateMd5).Reaches MemoryGuard ⟨.empty, []⟩ := .init rfl
  have hinitiated : (memoryMachine false lateMd5).Reaches MemoryGuard ⟨lateStarted, []⟩ :=
    .step (e := .initiate lateDraw lateInitiate) hempty trivial (.initiate lateDraw lateInitiate)
  have hstarted : (memoryMachine false lateMd5).Reaches MemoryGuard
      ⟨lateStarted, [.part latePart]⟩ :=
    .step (e := .startPart latePart) hinitiated trivial (.startPart latePart rfl)
  refine .step (e := .abort latePart.toUploadTarget) hstarted ?_ (.abort latePart.toUploadTarget)
  intro upload hupload _
  have hstatus : (lateStarted.multipart (js "u")).map (·.session.status) = some .initiated := rfl
  have hsame : some upload.session.status = some .initiated := by
    rw [← hstatus, show lateStarted.multipart (js "u") = some upload from hupload]
    rfl
  rw [Option.some.injEq] at hsame
  rw [hsame]
  decide

/-- The part arrives after the abort, and the session goes on. -/
theorem late_part_recorded :
    (memoryMachine false lateMd5).Reachable ⟨lateAborted, [.part latePart]⟩ ∧
    (memoryMachine false lateMd5).step ⟨lateAborted, [.part latePart]⟩ (.finishPart latePart [104])
      ⟨lateRecorded, []⟩ ∧
    (lateAborted.multipart (js "u")).map (fun upload => (upload.session.status,
      upload.session.parts)) = some (.aborted, []) ∧
    (lateRecorded.multipart (js "u")).map (fun upload => (upload.session.status,
      upload.session.parts)) = some (.uploading, [⟨1, js "\"0cc1\"", 1⟩]) ∧
    ¬ EndsKept lateAborted.multipart lateRecorded.multipart := by
  have habort : (lateAborted.multipart (js "u")).map (fun upload => (upload.session.status,
      upload.session.parts)) = some (.aborted, []) := rfl
  have hrecord : (lateRecorded.multipart (js "u")).map (fun upload => (upload.session.status,
      upload.session.parts)) = some (.uploading, [⟨1, js "\"0cc1\"", 1⟩]) := rfl
  refine ⟨late_aborted_reaches.mono fun _ _ _ => trivial, .finishPart [] [] latePart [104] rfl,
    habort, hrecord, ?_⟩
  intro hkept
  obtain ⟨upload, hupload, hstatus⟩ := Option.map_eq_some_iff.mp habort
  rw [Prod.mk.injEq] at hstatus
  obtain ⟨upload', hupload', hsame⟩ := hkept _ upload hupload (.inr hstatus.1)
  rw [hupload', Option.map_some, Option.some.injEq, Prod.mk.injEq] at hrecord
  rw [SameEnd, hstatus.1, hrecord.1] at hsame
  cases hsame.1

/-- Two aborts, one after the other. -/
theorem terminal_iff_guarded_late :
    UploadsEmptyWhenAborted ⟨lateAborted, [.part latePart]⟩ ∧
    EndsKept lateAborted.multipart
      (lateAborted.abortMultipartUpload latePart.toUploadTarget).2.multipart := by
  have hguarded := terminal_iff_guarded false lateMd5 Unit (fun _ => []) (fun _ _ => []) id
  obtain ⟨hempty, hkept⟩ := hguarded.1.1 _ late_aborted_reaches
  refine ⟨hempty, hkept ⟨_, [.part latePart]⟩ (.single
    ⟨.abort latePart.toUploadTarget, ?_, .abort latePart.toUploadTarget⟩)⟩
  intro upload hupload _ hcompleted
  have hstatus : (lateAborted.multipart (js "u")).map (·.session.status) = some .aborted := rfl
  rw [show lateAborted.multipart (js "u") = some upload from hupload, Option.map_some,
    hcompleted] at hstatus
  cases hstatus

end Example

end TrustCore.MultipartRuns
