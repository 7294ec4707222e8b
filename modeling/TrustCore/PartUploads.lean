import TrustCore.MultipartRuns

/-!
# The parts of one upload

Calls of `uploadMultipartPart` for one session. The list of the parts is read before the part
is sent, and the answer is compared with what was read; by then the provider has taken the new
bytes in place of the old ones. So the list and the provider agree as long as calls for one
number follow each other and a number that is recorded is sent again with the same bytes only.
-/

namespace TrustCore.PartUploads

open TrustCore.Utf TrustCore.Multipart TrustCore.S3Multipart TrustCore.MultipartRuns
open TrustCore.Programs TrustCore.Runs
open TrustCore.S3Storage (Thrown ProviderError)

/-- The provider holds the part as it is recorded. -/
def HeldAs (upload : ProviderUpload) (part : UploadedPart) : Prop :=
  ∃ held, upload.parts part.partNumber = some held ∧ held.etag = part.etag ∧
    held.body.length = part.size

/-- The session of the calls is open, its parts have distinct numbers, and the provider holds
each of them as it is recorded. -/
structure Agrees (target : UploadTarget) (s : Shared) (record : Nat) (session : UploadSession)
    (upload : ProviderUpload) : Prop where
  found : s.controller.lookup target.uploadId = some (record, session)
  isTarget : session.isTarget target = true
  unfinished : ¬ session.Terminal
  atProvider : s.provider.findUpload target.key target.providerUploadRef = some upload
  distinct : (session.parts.map (·.partNumber)).Nodup
  held : ∀ part ∈ session.parts, HeldAs upload part

def Agreement (target : UploadTarget) (s : Shared) : Prop :=
  ∃ record session upload, Agrees target s record session upload

section Parts

variable {session : UploadSession} {part : UploadedPart} {upload : ProviderUpload} {n m : Nat}

theorem mem_of_findPart (h : session.findPart n = some part) :
    part ∈ session.parts ∧ part.partNumber = n :=
  ⟨List.mem_of_find?_eq_some h, by simpa using List.find?_some h⟩

theorem findPart_eq_none : session.findPart n = none ↔ n ∉ session.parts.map (·.partNumber) := by
  simp [UploadSession.findPart]

/-- The number tells the part. -/
theorem findPart_of_mem (hdistinct : (session.parts.map (·.partNumber)).Nodup)
    (h : part ∈ session.parts) : session.findPart part.partNumber = some part := by
  cases hfind : session.findPart part.partNumber with
  | none => exact absurd (List.mem_map_of_mem h) (findPart_eq_none.mp hfind)
  | some found =>
    obtain ⟨hfound, hnumber⟩ := mem_of_findPart hfind
    rw [List.inj_on_of_nodup_map hdistinct hfound h hnumber]

theorem perm_recordPart : (session.recordPart part).parts.Perm (session.parts ++ [part]) :=
  List.perm_insertionSort _ _

theorem distinct_recordPart (hdistinct : (session.parts.map (·.partNumber)).Nodup)
    (hfree : session.findPart part.partNumber = none) :
    ((session.recordPart part).parts.map (·.partNumber)).Nodup := by
  rw [(perm_recordPart.map _).nodup_iff, List.map_append, List.map_singleton,
    List.nodup_append]
  refine ⟨hdistinct, List.nodup_singleton _, ?_⟩
  rintro a ha b hb rfl
  rw [List.mem_singleton] at hb
  subst hb
  exact findPart_eq_none.mp hfree ha

theorem findPart_recordPart (hdistinct : (session.parts.map (·.partNumber)).Nodup)
    (hfree : session.findPart part.partNumber = none) (hm : m ≠ part.partNumber) :
    (session.recordPart part).findPart m = session.findPart m := by
  have hdistinct' := distinct_recordPart hdistinct hfree
  cases hfind : session.findPart m with
  | none =>
    rw [findPart_eq_none] at hfind ⊢
    intro hmem
    rw [(perm_recordPart.map _).mem_iff, List.map_append, List.mem_append] at hmem
    obtain hmem | hmem := hmem
    · exact hfind hmem
    · exact hm (by simpa using hmem)
  | some found =>
    obtain ⟨hmem, rfl⟩ := mem_of_findPart hfind
    exact findPart_of_mem hdistinct' (perm_recordPart.mem_iff.mpr (List.mem_append_left _ hmem))

theorem parts_put_of_ne {held : HeldPart} (h : m ≠ n) : (upload.put n held).parts m = upload.parts m :=
  Function.update_of_ne h _ _

theorem parts_put_self {held : HeldPart} : (upload.put n held).parts n = some held :=
  Function.update_self _ _ _

end Parts

section Phases

variable (redactSensitive : JsString → JsString) (input : PartInput) (body : Bytes)

/-- Where a call may be, and what it has found out then. -/
inductive Phase (record : Nat) (session : UploadSession) (upload : ProviderUpload) :
    ControllerProg UploadedPart → Prop
  | start : Phase record session upload (uploadMultipartPart redactSensitive input body)
  | read : Phase record session upload
      (.stmt (.findPart record input.partNumber) fun existing =>
        sendPart redactSensitive input body record existing)
  | send : Phase record session upload
      (sendPart redactSensitive input body record (session.findPart input.partNumber))
  | record (part : UploadedPart) (hnumber : part.partNumber = input.partNumber)
      (hfree : session.findPart input.partNumber = none) (hheld : HeldAs upload part) :
      Phase record session upload (.stmt (.update record (.recordPart part)) fun _ => .pure part)
  | stopped (p : ControllerProg UploadedPart) (h : ∀ st k, p ≠ .stmt st k) :
      Phase record session upload p

variable {redactSensitive input body} {record : Nat} {session session' : UploadSession}
  {upload upload' : ProviderUpload}

theorem phase_throw {e : Thrown} :
    Phase redactSensitive input body record session upload (.throw e) :=
  .stopped _ fun _ _ h => by cases h

theorem phase_pure {part : UploadedPart} :
    Phase redactSensitive input body record session upload (.pure part) :=
  .stopped _ fun _ _ h => by cases h

/-- A call does not see what happens to other numbers. -/
theorem Phase.frame {p : ControllerProg UploadedPart}
    (h : Phase redactSensitive input body record session upload p)
    (hsession : session'.findPart input.partNumber = session.findPart input.partNumber)
    (hupload : upload'.parts input.partNumber = upload.parts input.partNumber) :
    Phase redactSensitive input body record session' upload' p := by
  cases h with
  | start => exact .start
  | read => exact .read
  | send =>
    rw [← hsession]
    exact .send
  | record part hnumber hfree hheld =>
    refine .record part hnumber (hsession.trans hfree) ?_
    rw [HeldAs, hnumber, hupload, ← hnumber]
    exact hheld
  | stopped p h => exact .stopped p h

/-- The start of a call finds the session and then reads its body. -/
theorem start_step (h : session.isTarget input.toUploadTarget = true) :
    ∃ k, uploadMultipartPart redactSensitive input body = .stmt (.lookup input.uploadId) k ∧
      Phase redactSensitive input body record session upload (k (some (record, session))) := by
  refine ⟨_, rfl, ?_⟩
  dsimp only [Prog.bind]
  rw [if_pos h]
  dsimp only [Prog.bind]
  split
  · exact phase_throw
  · split
    · exact phase_throw
    · split
      · exact phase_throw
      · rw [readPart]
        split
        · exact phase_throw
        · exact .read

end Phases

/-! ## One statement of one call -/

section Steps

variable {ι : Type} {uploadIdOf : Nat → JsString} {etagOf : Nat → Bytes → JsString}
  {redactSensitive : JsString → JsString} {target : UploadTarget} {s s' : Shared} {record : Nat}
  {session : UploadSession} {upload : ProviderUpload} {input : PartInput} {body : Bytes}

/-- A part with a recorded number is sent with the bytes that were recorded. -/
def PartGuard (etagOf : Nat → Bytes → JsString) (target : UploadTarget) (s : Shared) :
    Statement → Prop
  | .request (.uploadPart _ _ partNumber body) => ∀ record session recorded,
      s.controller.lookup target.uploadId = some (record, session) →
      session.findPart partNumber = some recorded →
      etagOf s.provider.served body = recorded.etag ∧ body.length = recorded.size
  | _ => True

theorem serve_uploadPart {provider : Provider} {key uploadRef : JsString} {n : Nat}
    (h : provider.findUpload key uploadRef = some upload) :
    (provider.serve uploadIdOf etagOf (.uploadPart key uploadRef n body)).1 =
        .ok (some (etagOf provider.served body)) ∧
      (provider.serve uploadIdOf etagOf (.uploadPart key uploadRef n body)).2.findUpload key
        uploadRef = some (upload.put n ⟨etagOf provider.served body, body⟩) := by
  have hkey : upload.key = key := by
    have hfilter := (Option.filter_eq_some_iff.mp h).2
    simpa using hfilter
  simp only [Provider.serve, h, true_and]
  simp [Provider.findUpload, ProviderUpload.put, hkey]

/-- The provider takes a part whose number is not recorded, or the recorded bytes again. -/
theorem Agrees.put (h : Agrees target s record session upload) {provider : Provider} {n : Nat}
    {held : HeldPart}
    (hprovider : provider.findUpload target.key target.providerUploadRef = some (upload.put n held))
    (hsame : ∀ recorded, session.findPart n = some recorded →
      held.etag = recorded.etag ∧ held.body.length = recorded.size) :
    Agrees target { s with provider := provider } record session (upload.put n held) where
  found := h.found
  isTarget := h.isTarget
  unfinished := h.unfinished
  atProvider := hprovider
  distinct := h.distinct
  held := by
    intro part hpart
    by_cases hn : part.partNumber = n
    · have hfind := findPart_of_mem h.distinct hpart
      rw [hn] at hfind
      refine ⟨held, ?_, hsame part hfind⟩
      rw [hn]
      exact parts_put_self
    · obtain ⟨held', hheld', hpart'⟩ := h.held part hpart
      exact ⟨held', (parts_put_of_ne hn).trans hheld', hpart'⟩

theorem Agrees.recordPart (h : Agrees target s record session upload) {part : UploadedPart}
    (hfree : session.findPart part.partNumber = none) (hheld : HeldAs upload part) :
    Agrees target { s with controller := s.controller.update record (.recordPart part) } record
      (session.recordPart part) upload where
  found := by
    obtain ⟨hsession, hrecord⟩ := lookup_eq_some.mp h.found
    refine lookup_eq_some.mpr ⟨hsession, ?_⟩
    dsimp only
    rw [records_update, if_pos rfl, hrecord]
    rfl
  isTarget := h.isTarget
  unfinished := terminal_recordPart
  atProvider := h.atProvider
  distinct := distinct_recordPart h.distinct hfree
  held := by
    intro other hother
    rw [perm_recordPart.mem_iff, List.mem_append, List.mem_singleton] at hother
    obtain hother | rfl := hother
    · exact h.held other hother
    · exact hheld

/-- What the answer of the provider leads to, where it holds the bytes of the call. -/
theorem phase_answer {etag : JsString} {existing : Option UploadedPart}
    (hexisting : existing = session.findPart input.partNumber)
    (hheld : upload.parts input.partNumber = some ⟨etag, body⟩) :
    Phase redactSensitive input body record session upload
      (recordUploaded record existing ⟨input.partNumber, etag, body.length⟩) := by
  cases existing with
  | some found =>
    rw [recordUploaded]
    split
    · exact phase_throw
    · exact phase_pure
  | none => exact .record _ rfl hexisting.symm ⟨⟨etag, body⟩, hheld, rfl, rfl⟩

theorem phase_answered {etag : JsString} {existing : Option UploadedPart}
    (hexisting : existing = session.findPart input.partNumber)
    (hheld : upload.parts input.partNumber = some ⟨etag, body⟩) :
    Phase redactSensitive input body record session upload
      (partAnswered redactSensitive input body record existing (.ok (some etag))) := by
  rw [partAnswered]
  split
  · exact phase_throw
  · next found hfound =>
    rw [← Option.some.inj (Option.filter_eq_some_iff.mp hfound).1]
    exact phase_answer hexisting hheld

/-- The sessions and parts of other numbers after a statement of a call. -/
structure After (target : UploadTarget) (record : Nat) (session : UploadSession)
    (upload : ProviderUpload) (redactSensitive : JsString → JsString) (input : PartInput)
    (body : Bytes) (s' : Shared) (p : ControllerProg UploadedPart) (session' : UploadSession)
    (upload' : ProviderUpload) : Prop where
  agrees : Agrees target s' record session' upload'
  phase : Phase redactSensitive input body record session' upload' p
  frame : ∀ m, m ≠ input.partNumber →
    session'.findPart m = session.findPart m ∧ upload'.parts m = upload.parts m

theorem After.same {p : ControllerProg UploadedPart} (h : Agrees target s record session upload)
    (hphase : Phase redactSensitive input body record session upload p) :
    After target record session upload redactSensitive input body s p session upload :=
  ⟨h, hphase, fun _ _ => ⟨rfl, rfl⟩⟩

/-- The request of a call: it is served, or an error comes with its effect or without. -/
theorem send_step {i : ι} {tx tx' : Unit} (htarget : input.toUploadTarget = target)
    (h : Agrees target s record session upload) {r : Except ProviderError (Option JsString)}
    (hexec : (controllerSystem uploadIdOf etagOf ι).exec i s tx
      (.request (.uploadPart input.key input.providerUploadRef input.partNumber body)) r s' tx')
    (hguard : PartGuard etagOf target s
      (.request (.uploadPart input.key input.providerUploadRef input.partNumber body))) :
    ∃ upload', After target record session upload redactSensitive input body s'
      (partAnswered redactSensitive input body record (session.findPart input.partNumber) r)
      session upload' := by
  subst htarget
  let request : S3Multipart.Request :=
    .uploadPart input.key input.providerUploadRef input.partNumber body
  let held : HeldPart := ⟨etagOf s.provider.served body, body⟩
  have hserve : (s.provider.serve uploadIdOf etagOf request).1 = .ok (some held.etag) ∧
      (s.provider.serve uploadIdOf etagOf request).2.findUpload input.key input.providerUploadRef =
        some (upload.put input.partNumber held) := serve_uploadPart h.atProvider
  obtain ⟨hreply, hprovider⟩ := hserve
  have hput := h.put hprovider fun recorded hrecorded =>
    hguard record session recorded h.found hrecorded
  have hframe : ∀ m, m ≠ input.partNumber → session.findPart m = session.findPart m ∧
      (upload.put input.partNumber held).parts m = upload.parts m :=
    fun m hm => ⟨rfl, parts_put_of_ne hm⟩
  obtain hserved | ⟨⟨error, rfl⟩, rfl | rfl⟩ := hexec
  · have hr : r = (s.provider.serve uploadIdOf etagOf request).1 := congrArg Prod.fst hserved
    have hs : s' = { s with provider := (s.provider.serve uploadIdOf etagOf request).2 } :=
      congrArg Prod.snd hserved
    rw [hr, hs, hreply]
    exact ⟨_, hput, phase_answered rfl parts_put_self, hframe⟩
  · exact ⟨upload, .same h phase_throw⟩
  · exact ⟨_, hput, phase_throw, hframe⟩

/-- A statement that is no request does what it says. -/
theorem exec_local {i : ι} {tx tx' : Unit} {statement : Statement} {result : statement.Result}
    (hlocal : ∀ r, statement ≠ .request r)
    (h : (controllerSystem uploadIdOf etagOf ι).exec i s tx statement result s' tx') :
    (result, s') = statement.exec uploadIdOf etagOf s := by
  obtain hserved | ⟨hlost, -⟩ := h
  · exact hserved
  · cases statement with
    | request r => exact absurd rfl (hlocal r)
    | lookup uploadId => exact hlost.elim
    | findPart record partNumber => exact hlost.elim
    | insert input providerUploadRef createdAt defaultExpiry => exact hlost.elim
    | update record change => exact hlost.elim

/-- Any statement of a call, where the call is in one of its phases. -/
theorem phase_step {i : ι} {tx tx' : Unit} {statement : Statement} {r : statement.Result}
    {k : statement.Result → ControllerProg UploadedPart} (htarget : input.toUploadTarget = target)
    (h : Agrees target s record session upload)
    (hphase : Phase redactSensitive input body record session upload (.stmt statement k))
    (hexec : (controllerSystem uploadIdOf etagOf ι).exec i s tx statement r s' tx')
    (hguard : PartGuard etagOf target s statement) :
    ∃ session' upload', After target record session upload redactSensitive input body s' (k r)
      session' upload' := by
  subst htarget
  obtain ⟨-, hrecord⟩ := lookup_eq_some.mp h.found
  generalize hp : Prog.stmt statement k = p at hphase
  cases hphase with
  | start =>
    have hstart : ∃ k, uploadMultipartPart redactSensitive input body =
        .stmt (.lookup input.uploadId) k ∧
        Phase redactSensitive input body record session upload (k (some (record, session))) :=
      start_step h.isTarget
    obtain ⟨k', hk', hnext⟩ := hstart
    rw [hk'] at hp
    cases hp
    have hresult := exec_local (fun _ heq => by cases heq) hexec
    cases hresult
    rw [← h.found] at hnext
    exact ⟨session, upload, .same h hnext⟩
  | read =>
    cases hp
    have hresult := exec_local (fun _ heq => by cases heq) hexec
    cases hresult
    refine ⟨session, upload, .same h ?_⟩
    rw [hrecord, Option.bind_some]
    exact .send
  | send =>
    rw [sendPart] at hp
    cases hp
    obtain ⟨upload', hafter⟩ := send_step rfl h hexec hguard
    exact ⟨session, upload', hafter⟩
  | record part hnumber hfree hheld =>
    cases hp
    have hresult := exec_local (fun _ heq => by cases heq) hexec
    cases hresult
    rw [← hnumber] at hfree
    refine ⟨session.recordPart part, upload, h.recordPart hfree hheld, phase_pure, ?_⟩
    intro m hm
    rw [← hnumber] at hm
    exact ⟨findPart_recordPart h.distinct hfree hm, rfl⟩
  | stopped p hstop => exact absurd hp.symm (hstop _ _)

end Steps

/-! ## Runs of calls -/

abbrev PartWorld (ι : Type) := World ι Shared Unit Statement Statement.Result Thrown UploadedPart

abbrev PartEvent (ι : Type) := Event ι Statement Statement.Result Thrown UploadedPart

section Runs

variable {ι : Type} [DecidableEq ι] (uploadIdOf : Nat → JsString) (etagOf : Nat → Bytes → JsString)
  (redactSensitive : JsString → JsString) (target : UploadTarget)

/-- Calls of `uploadMultipartPart` for one session, from a state where list and provider agree. -/
def partMachine : Machine (PartWorld ι) (PartEvent ι) :=
  (controllerSystem uploadIdOf etagOf ι).machine
    (fun p => ∃ input body, input.toUploadTarget = target ∧
      p = uploadMultipartPart redactSensitive input body)
    (Agreement target)

/-- Process `i` runs call `i`, and no call of the same number is running when it begins; a
part with a recorded number is sent with the recorded bytes. -/
def UploadGuard (call : ι → PartInput × Bytes) (w : PartWorld ι) : PartEvent ι → Prop
  | .begin i p => ((call i).1.toUploadTarget = target ∧
      p = uploadMultipartPart redactSensitive (call i).1 (call i).2) ∧
      ∀ j tx q, w.procs j = .running tx q → (call j).1.partNumber ≠ (call i).1.partNumber
  | .run i => ∀ tx statement k, w.procs i = .running tx (.stmt statement k) →
      PartGuard etagOf target w.shared statement
  | _ => True

/-- List and provider agree, and every running call is in one of its phases. -/
structure Consistent (call : ι → PartInput × Bytes) (w : PartWorld ι) (record : Nat)
    (session : UploadSession) (upload : ProviderUpload) : Prop where
  agrees : Agrees target w.shared record session upload
  phases : ∀ i tx p, w.procs i = .running tx p → (call i).1.toUploadTarget = target ∧
    Phase redactSensitive (call i).1 (call i).2 record session upload p
  apart : ∀ i j tx tx' p q, i ≠ j → w.procs i = .running tx p → w.procs j = .running tx' q →
    (call i).1.partNumber ≠ (call j).1.partNumber

variable {uploadIdOf etagOf redactSensitive target} {call : ι → PartInput × Bytes}
  {w w' : PartWorld ι} {e : PartEvent ι} {record : Nat} {session : UploadSession}
  {upload : ProviderUpload}

/-- A process that stops leaves the others in their phases. -/
theorem Consistent.stop (h : Consistent redactSensitive target call w record session upload)
    {i : ι} {x : Proc Unit Statement Statement.Result Thrown UploadedPart}
    (hx : ∀ tx p, x ≠ .running tx p) :
    Consistent redactSensitive target call (w.set i x) record session upload := by
  have hne : ∀ {j tx p}, (w.set i x).procs j = .running tx p → w.procs j = .running tx p := by
    intro j tx p hj
    by_cases hji : j = i
    · subst hji
      rw [set_procs_self] at hj
      exact absurd hj (hx tx p)
    · rwa [set_procs_ne hji] at hj
  refine ⟨h.agrees, fun j tx p hj => h.phases j tx p (hne hj), ?_⟩
  intro j l tx tx' p q hjl hj hl
  exact h.apart j l tx tx' p q hjl (hne hj) (hne hl)

theorem Consistent.begin (h : Consistent redactSensitive target call w record session upload)
    {i : ι} {p : ControllerProg UploadedPart}
    (hguard : UploadGuard etagOf redactSensitive target call w (.begin i p)) :
    Consistent redactSensitive target call (w.set i (.running () p)) record session upload := by
  obtain ⟨⟨htarget, rfl⟩, hfree⟩ := hguard
  refine ⟨h.agrees, ?_, ?_⟩
  · intro j tx q hj
    by_cases hji : j = i
    · subst hji
      rw [set_procs_self, Proc.running.injEq] at hj
      obtain ⟨-, rfl⟩ := hj
      exact ⟨htarget, .start⟩
    · rw [set_procs_ne hji] at hj
      exact h.phases j tx q hj
  · intro j l tx tx' q q' hjl hj hl
    by_cases hji : j = i
    · subst hji
      rw [set_procs_ne (Ne.symm hjl)] at hl
      exact (hfree l tx' q' hl).symm
    · rw [set_procs_ne hji] at hj
      by_cases hli : l = i
      · subst hli
        exact hfree j tx q hj
      · rw [set_procs_ne hli] at hl
        exact h.apart j l tx tx' q q' hjl hj hl

theorem Consistent.run (h : Consistent redactSensitive target call w record session upload)
    {i : ι} {tx tx' : Unit} {st : Statement} {k : st.Result → ControllerProg UploadedPart}
    {r : st.Result} {shared' : Shared} (hi : w.procs i = .running tx (.stmt st k))
    (hx : (controllerSystem uploadIdOf etagOf ι).exec i w.shared tx st r shared' tx')
    (hguard : PartGuard etagOf target w.shared st) :
    ∃ session' upload', Consistent redactSensitive target call
      { w.set i (.running tx' (k r)) with shared := shared' } record session' upload' := by
  obtain ⟨htarget, hphase⟩ := h.phases i tx _ hi
  obtain ⟨session', upload', hafter⟩ := phase_step htarget h.agrees hphase hx hguard
  have hrunning : ∀ {j ty q}, j ≠ i →
      ({ w.set i (.running tx' (k r)) with shared := shared' } : PartWorld ι).procs j =
        .running ty q → w.procs j = .running ty q := by
    intro j ty q hji hj
    simpa [World.set, Function.update_of_ne hji] using hj
  refine ⟨session', upload', hafter.agrees, ?_, ?_⟩
  · intro j ty q hj
    by_cases hji : j = i
    · subst hji
      have he : tx' = ty ∧ k r = q := by simpa [World.set] using hj
      obtain ⟨-, rfl⟩ := he
      exact ⟨htarget, hafter.phase⟩
    · obtain ⟨htarget', hphase'⟩ := h.phases j ty q (hrunning hji hj)
      obtain ⟨hsession, hupload⟩ :=
        hafter.frame _ (h.apart j i ty tx q _ hji (hrunning hji hj) hi)
      exact ⟨htarget', hphase'.frame hsession hupload⟩
  · intro j l ty ty' q q' hjl hj hl
    by_cases hji : j = i
    · subst hji
      exact h.apart j l tx ty' _ q' hjl hi (hrunning (Ne.symm hjl) hl)
    · by_cases hli : l = i
      · subst hli
        exact h.apart j l ty tx q _ hjl (hrunning hji hj) hi
      · exact h.apart j l ty ty' q q' hjl (hrunning hji hj) (hrunning hli hl)

theorem consistent_of_reaches
    (hw : (partMachine uploadIdOf etagOf redactSensitive target).Reaches
      (UploadGuard etagOf redactSensitive target call) w) :
    ∃ record session upload, Consistent redactSensitive target call w record session upload := by
  induction hw with
  | init h =>
    obtain ⟨⟨record, session, upload, hagrees⟩, hidle⟩ := h
    refine ⟨record, session, upload, hagrees, ?_, ?_⟩
    · intro i tx p hi
      rw [hidle i] at hi
      cases hi
    · intro i j tx tx' p q _ hi
      rw [hidle i] at hi
      cases hi
  | step _ hguard hstep ih =>
    obtain ⟨record, session, upload, h⟩ := ih
    cases hstep with
    | begin i p hi hp => exact ⟨record, session, upload, h.begin hguard⟩
    | run i tx tx' st k r shared' hi hx hc =>
      obtain ⟨session', upload', h'⟩ := h.run hi hx (hguard tx st k hi)
      exact ⟨record, session', upload', h'⟩
    | fail i tx p hi hp => exact ⟨record, session, upload, h.stop (by simp)⟩
    | finish i tx a hi => exact ⟨record, session, upload, h.stop (by simp)⟩

theorem pairwise_orderedParts {parts : List UploadedPart}
    (hdistinct : (parts.map (·.partNumber)).Nodup) :
    (orderedParts parts).Pairwise fun a b => a.partNumber < b.partNumber := by
  have htotal : Std.Total fun a b : UploadedPart => a.partNumber ≤ b.partNumber :=
    ⟨fun a b => Nat.le_total _ _⟩
  have htrans : IsTrans UploadedPart fun a b => a.partNumber ≤ b.partNumber :=
    ⟨fun _ _ _ => Nat.le_trans⟩
  have hsorted : (orderedParts parts).Pairwise fun a b => a.partNumber ≤ b.partNumber :=
    List.pairwise_insertionSort _ _
  have hperm : (orderedParts parts).Perm parts := List.perm_insertionSort _ _
  have hnodup : (orderedParts parts).Pairwise fun a b => a.partNumber ≠ b.partNumber := by
    have hnumbers : ((orderedParts parts).map (·.partNumber)).Nodup :=
      (hperm.map _).nodup_iff.mpr hdistinct
    exact List.pairwise_map.mp hnumbers
  exact (hsorted.and hnodup).imp fun h => Nat.lt_of_le_of_ne h.1 h.2

/-- The provider takes a completion with the recorded parts. -/
theorem Agrees.accepted {s : Shared} (h : Agrees target s record session upload) :
    (s.provider.serve uploadIdOf etagOf (.completeMultipartUpload target.key
      target.providerUploadRef (orderedParts session.parts))).1 = .ok () := by
  have hholds : (orderedParts session.parts).all upload.holds = true := by
    rw [List.all_eq_true]
    intro part hpart
    have hmem : part ∈ session.parts := (List.perm_insertionSort _ _).mem_iff.mp hpart
    obtain ⟨held, hheld, hetag, -⟩ := h.held part hmem
    simp [ProviderUpload.holds, hheld, hetag]
  simp only [Provider.serve, h.atProvider]
  rw [if_pos (by simp [hholds, pairwise_orderedParts h.distinct])]

/-- In every guarded run the parts that the session records have numbers of their own, the provider
holds each as it is recorded, and it accepts their ordered list. -/
theorem parts_agree_of_guarded (uploadIdOf : Nat → JsString) (etagOf : Nat → Bytes → JsString)
    (redactSensitive : JsString → JsString) (target : UploadTarget)
    (call : ι → PartInput × Bytes) (w : PartWorld ι)
    (hw : (partMachine uploadIdOf etagOf redactSensitive target).Reaches
      (UploadGuard etagOf redactSensitive target call) w) :
    ∃ record session upload,
      w.shared.controller.lookup target.uploadId = some (record, session) ∧
      w.shared.provider.findUpload target.key target.providerUploadRef = some upload ∧
      (session.parts.map (·.partNumber)).Nodup ∧
      (∀ part ∈ session.parts, HeldAs upload part) ∧
      (w.shared.provider.serve uploadIdOf etagOf (.completeMultipartUpload target.key
        target.providerUploadRef (orderedParts session.parts))).1 = .ok () := by
  obtain ⟨record, session, upload, h⟩ := consistent_of_reaches hw
  exact ⟨record, session, upload, h.agrees.found, h.agrees.atProvider, h.agrees.distinct,
    h.agrees.held, h.agrees.accepted⟩

end Runs

section Example

/-- A new upload, and two bodies for its first part. -/
def sharedTarget : UploadTarget := ⟨js "u", js "workspaces/w/temporary/o", js "ref"⟩

def sharedInput : PartInput := ⟨sharedTarget, 1, 1⟩

def sharedSession : UploadSession where
  uploadId := js "u"
  providerUploadRef := js "ref"
  key := js "workspaces/w/temporary/o"
  mediaType := js "text/plain"
  partSize := minPartSize
  expectedByteLength := none
  expectedSha256 := none
  status := .initiated
  parts := []
  createdAt := js "2026-01-01"
  expiresAt := js "2026-01-02"

def sharedStart : Shared where
  controller := ⟨[sharedSession], fun uploadId => if uploadId = js "u" then some 0 else none⟩
  provider :=
    { uploads := fun uploadRef =>
        if uploadRef = js "ref" then some ⟨js "workspaces/w/temporary/o", fun _ => none⟩ else none
      objects := fun _ => none
      served := 0 }

def sharedEtag (_ : Nat) (body : Bytes) : JsString := if body = [1] then js "one" else js "two"

/-- The state after an upload of the body that nothing disturbs. -/
def sharedUpload (body : Bytes) (s : Shared) : Except Thrown UploadedPart × Shared :=
  (uploadMultipartPart id sharedInput body).run
    (Statement.exec (fun _ => js "ref") sharedEtag) s

def sharedFirst : Shared := (sharedUpload [1] sharedStart).2

def sharedSecond : Shared := (sharedUpload [2] sharedFirst).2

theorem sharedStart_agreement : Agreement sharedTarget sharedStart :=
  ⟨0, sharedSession, ⟨js "workspaces/w/temporary/o", fun _ => none⟩, rfl, rfl, by decide, rfl,
    List.nodup_nil, fun _ h => by cases h⟩

/-- Every process uploads the first body. -/
def sharedCall (_ : Bool) : PartInput × Bytes := (sharedInput, [1])

theorem sharedFirst_agreement : Agreement sharedTarget sharedFirst := by
  have hparts : (sharedSession.recordPart ⟨1, js "one", 1⟩).parts = [⟨1, js "one", 1⟩] := rfl
  refine ⟨0, sharedSession.recordPart ⟨1, js "one", 1⟩,
    (⟨js "workspaces/w/temporary/o", fun _ => none⟩ : ProviderUpload).put 1 ⟨js "one", [1]⟩, rfl, rfl,
    terminal_recordPart, rfl, ?_, ?_⟩
  · rw [hparts]
    decide
  · rw [hparts]
    intro part hpart
    rw [List.mem_singleton] at hpart
    subst hpart
    exact ⟨⟨js "one", [1]⟩, rfl, rfl, rfl⟩

instance decidablePartGuard (etagOf : Nat → Bytes → JsString) (target : UploadTarget) (s : Shared) :
    (statement : Statement) → Decidable (PartGuard etagOf target s statement)
  | .request (.uploadPart _ _ partNumber body) =>
    decidable_of_iff (∀ recorded ∈ (s.controller.lookup target.uploadId).bind
        fun found => found.2.findPart partNumber,
      etagOf s.provider.served body = recorded.etag ∧ body.length = recorded.size)
    ⟨fun h record session recorded hfound hpart =>
      h recorded (Option.bind_eq_some_iff.mpr ⟨(record, session), hfound, hpart⟩),
    fun h recorded hmem =>
      have ⟨found, hfound, hpart⟩ := Option.bind_eq_some_iff.mp hmem
      h found.1 found.2 recorded hfound hpart⟩
  | .request (.createMultipartUpload _ _) => .isTrue trivial
  | .request (.completeMultipartUpload _ _ _) => .isTrue trivial
  | .request (.abortMultipartUpload _ _) => .isTrue trivial
  | .request (.getObject _) => .isTrue trivial
  | .lookup _ => .isTrue trivial
  | .findPart _ _ => .isTrue trivial
  | .insert _ _ _ _ => .isTrue trivial
  | .update _ _ => .isTrue trivial

/-- The retry, which sends the recorded part again, and the state it leaves. -/
def sharedRetry : ControllerProg UploadedPart × Shared :=
  (uploadMultipartPart id sharedInput [1]).after (Statement.exec (fun _ => js "ref") sharedEtag) 8
    sharedFirst

/-- A retry over a session that has recorded the part runs to its end. -/
theorem parts_agree_of_guarded_retry :
    ∃ w : PartWorld Bool, (partMachine (fun _ => js "ref") sharedEtag id sharedTarget).Reaches
        (UploadGuard sharedEtag id sharedTarget sharedCall) w ∧
      w.procs false = .returned ⟨1, js "one", 1⟩ ∧
      ∃ record session upload,
        w.shared.controller.lookup (js "u") = some (record, session) ∧
        (session.parts.map (·.partNumber)).Nodup ∧ ∀ part ∈ session.parts, HeldAs upload part := by
  have hstart : (partMachine (fun _ => js "ref") sharedEtag id sharedTarget).Reaches
      (UploadGuard sharedEtag id sharedTarget sharedCall) ⟨sharedFirst, fun _ => .idle⟩ :=
    .init ⟨sharedFirst_agreement, fun _ => rfl⟩
  have hguard : UploadGuard sharedEtag id sharedTarget sharedCall ⟨sharedFirst, fun _ => .idle⟩
      (.begin false (uploadMultipartPart id sharedInput [1])) :=
    ⟨⟨rfl, rfl⟩, fun j tx q h => by cases h⟩
  have hbegun := hstart.step hguard (System.Step.begin _ false _ rfl ⟨sharedInput, [1], rfl, rfl⟩)
  have hmeets : (uploadMultipartPart id sharedInput [1]).Meets
      (Statement.exec (fun _ => js "ref") sharedEtag) (PartGuard sharedEtag sharedTarget) 8
      sharedFirst := by decide +kernel
  have hran := System.reaches_after (fun _ _ => Or.inl rfl) (fun _ _ => trivial) (fun _ h => h) hmeets
    hbegun
  have houtcome : sharedRetry.1.outcome = some ⟨1, js "one", 1⟩ := rfl
  rw [show ((uploadMultipartPart id sharedInput [1]).after _ 8 sharedFirst).1 = _ from
    Prog.eq_pure_of_outcome houtcome] at hran
  have hended := hran.step
    (show UploadGuard sharedEtag id sharedTarget sharedCall _ (.finish false) from trivial)
    (.finish _ false () ⟨1, js "one", 1⟩ (by simp))
  obtain ⟨record, session, upload, hfound, -, hdistinct, hheld, -⟩ :=
    parts_agree_of_guarded (fun _ => js "ref") sharedEtag id sharedTarget sharedCall _ hended
  exact ⟨_, hended, by simp [World.set], record, session, upload, hfound, hdistinct, hheld⟩

theorem sharedSecond_disagrees : ¬ Agreement sharedTarget sharedSecond := by
  rintro ⟨record, session, upload, h⟩
  have hparts : (sharedSecond.controller.lookup (js "u")).map (·.2.parts) =
      some [⟨1, js "one", 1⟩] := rfl
  have hheld : ((sharedSecond.provider.findUpload sharedTarget.key
      sharedTarget.providerUploadRef).bind (·.parts 1)).map (·.etag) = some (js "two") := rfl
  rw [show sharedSecond.controller.lookup (js "u") = _ from h.found, Option.map_some,
    Option.some.injEq] at hparts
  have hpart : (⟨1, js "one", 1⟩ : UploadedPart) ∈ session.parts := by
    rw [show session.parts = _ from hparts]
    exact List.mem_singleton.mpr rfl
  obtain ⟨held, hholds, hetag, -⟩ := h.held _ hpart
  rw [h.atProvider, Option.bind_some, show upload.parts 1 = _ from hholds, Option.map_some,
    hetag] at hheld
  revert hheld
  decide

/-- The second body is rejected as a conflict, and the provider has it in place of the first. -/
theorem rejected_part_replaces :
    ∃ w : PartWorld Bool,
      (partMachine (fun _ => js "ref") sharedEtag id sharedTarget).Reachable w ∧
      (∀ i tx p, w.procs i ≠ .running tx p) ∧
      (sharedUpload [2] sharedFirst).1 = .error (.storage
        (conflict "Duplicate multipart part number with inconsistent checksum")) ∧
      w.shared = sharedSecond ∧ ¬ Agreement sharedTarget w.shared := by
  let procs : Bool → Proc Unit Statement Statement.Result Thrown UploadedPart := fun _ => .idle
  have hruns : ∀ i body s, (controllerSystem (fun _ => js "ref") sharedEtag Bool).Ends i s ()
      (uploadMultipartPart id sharedInput body) (sharedUpload body s).2 () (sharedUpload body s).1 :=
    fun i body s => System.ends_of_run (fun _ _ => Or.inl rfl) _ s
  have hstart : (partMachine (fun _ => js "ref") sharedEtag id sharedTarget).Reachable
      ⟨sharedStart, procs⟩ := .init ⟨sharedStart_agreement, fun _ => rfl⟩
  have hfirst := hstart.step (System.Step.begin _ false _ rfl ⟨sharedInput, [1], rfl, rfl⟩)
  have hreturned : (Proc.ofResult (sharedUpload [1] sharedStart).1 :
      Proc Unit Statement Statement.Result Thrown UploadedPart) = .returned ⟨1, js "one", 1⟩ := rfl
  have hthrew : (Proc.ofResult (sharedUpload [2] sharedFirst).1 :
      Proc Unit Statement Statement.Result Thrown UploadedPart) = .threw := rfl
  have hrecorded := (hruns false [1] sharedStart).reachable procs (fun j tx p _ h => by cases h) hfirst
  rw [hreturned] at hrecorded
  have hsecond := hrecorded.step
    (System.Step.begin _ true _ (by simp [procs]) ⟨sharedInput, [2], rfl, rfl⟩)
  have hrejected := (hruns true [2] sharedFirst).reachable _
    (fun j tx p _ h => by cases j <;> simp [procs] at h) hsecond
  rw [hthrew] at hrejected
  refine ⟨_, hrejected, ?_, rfl, rfl, sharedSecond_disagrees⟩
  intro i tx p h
  cases i <;> simp at h

end Example

end TrustCore.PartUploads
