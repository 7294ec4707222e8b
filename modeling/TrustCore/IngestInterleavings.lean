import TrustCore.IngestOutline

/-!
# Interleaved ingests

Any number of calls of the service, of one and of different operations, run over one
state with one route. Whatever the order of their statements and wherever they stop,
the catalog has one blob for each digest of a workspace, with its canonical object; a
completed operation has one audit event and one outbox event; and the checkpoints of
an operation are stored in their order.
-/

namespace TrustCore.ObjectIngest

open TrustCore.Utf TrustCore.Sha256 TrustCore.ObjectStorage TrustCore.Programs TrustCore.Outlines
open TrustCore.Runs
open TrustCore.AuditLog (AuditRow)

section Calls

variable {κ : Type} [DecidableEq κ]

/-- No ingest was made yet: the ids that will be drawn are in no table and name no
temporary object. A canonical object that is there is what its key says. -/
structure Unused (storage : κ) (inputs : Set IngestInput) (ids : Set JsString) (s : IngestState κ) :
    Prop where
  operations : s.operations = []
  blobs : s.blobs = []
  temporary : ∀ workspaceId, ∀ id ∈ ids, ∀ key, temporaryObjectKey workspaceId id = some key →
    s.storages storage key = none
  canonical : ∀ input ∈ inputs, ∀ key o,
    canonicalObjectKey input.workspaceId (sha256 input.bytes) = some key →
    s.storages storage key = some o →
      o.digest = sha256 input.bytes ∧ o.body.length = input.bytes.length
  auditIds : (s.auditEvents.map AuditRow.id).Nodup
  audits : ∀ r ∈ s.auditEvents, ∀ id ∈ ids, r.id ≠ auditId id ∧ r.correlationId ≠ id
  outboxIds : (s.outboxEvents.map OutboxEvent.id).Nodup
  outbox : ∀ e ∈ s.outboxEvents, ∀ id ∈ ids, e.id ≠ outboxId id ∧ e.operationId ≠ id

/-- The calls of a service with one route, for inputs of a set. -/
def IsCall (platform : κ) (provider : JsString) (fields : RoutingFields κ) (inputs : Set IngestInput)
    (p : IngestProg κ ObjectIngestResult) : Prop :=
  ∃ input ∈ inputs, p = ingest platform provider input fields

abbrev IngestWorld (ι κ : Type) :=
  World ι (IngestState κ) Unit (Stmt κ) Stmt.Result IngestError ObjectIngestResult

/-- The calls of any number of processes, which stop where they please. -/
def ingestCalls (ι : Type) [DecidableEq ι] (platform : κ) (provider : JsString)
    (fields : RoutingFields κ) (inputs : Set IngestInput) (ids : Set JsString) :
    Machine (IngestWorld ι κ) (Event ι (Stmt κ) Stmt.Result IngestError ObjectIngestResult) :=
  (sharing (ingestExec ids)).machine (IsCall platform provider fields inputs)
    (Unused (fields.storage.getD platform) inputs ids)

omit [DecidableEq κ] in
theorem Unused.inv {S : Setting κ} {s : IngestState κ} (h : Unused S.storage S.inputs S.ids s) : S.Inv s := by
  refine { rows := ?_, operationIds := ?_, temporary := ?_, canonical := h.canonical, stored := ?_,
           digests := ?_,
           auditIds := h.auditIds, audits := ?_, outboxIds := h.outboxIds, outbox := ?_ }
  · intro row hrow
    rw [h.operations] at hrow
    cases hrow
  · rw [h.operations]
    exact List.nodup_nil
  · intro workspaceId operationId key o hid hkey ho
    rw [h.temporary workspaceId operationId hid key hkey] at ho
    cases ho
  · intro blob hblob
    rw [h.blobs] at hblob
    cases hblob
  · rw [h.blobs]
    exact List.nodup_nil
  · intro r hr id hid
    exact iff_of_false (h.audits r hr id hid).1 fun hboth => (h.audits r hr id hid).2 hboth.2
  · intro e he id hid
    exact iff_of_false (h.outbox e he id hid).1 (h.outbox e he id hid).2

variable {ι : Type} [DecidableEq ι] {platform : κ} {provider : JsString} {fields : RoutingFields κ}

/-- The outlines of all calls, in every state of a guarded run. -/
theorem Setting.outlined {S : Setting κ} (hd : S.Distinct)
    (hstorage : fields.storage.getD platform = S.storage)
    {w : IngestWorld ι κ}
    (h : (ingestCalls ι platform provider fields S.inputs S.ids).Reaches (OnStatements S.guard) w) :
    S.growth.Outlined (fun s st r s' => S.guard s st ∧ ingestExec S.ids s st r s') S.Returned w := by
  refine Outlines.outlined Setting.upward_returned ?_ ?_ h
  · rintro p ⟨input, hinput, rfl⟩
    exact Setting.outline_ingest hd hinput hstorage
  · intro s hs
    rw [hstorage] at hs
    exact hs.inv

/-- The invariant in every state of every run. -/
theorem inv_of_reachable {inputs : Set IngestInput} {ids : Set JsString}
    (hd : DistinctDigests inputs ids)
    {w : IngestWorld ι κ}
    (h : (ingestCalls ι platform provider fields inputs ids).Reachable w) :
    (Setting.mk (fields.storage.getD platform) inputs ids False False).Inv w.shared := by
  exact (Setting.outlined (S := ⟨fields.storage.getD platform, inputs, ids, False, False⟩) hd rfl
    (h.mono fun _ _ _ => onStatements_of_free fun _ _ => ⟨False.elim, False.elim⟩)).inv

end Calls

section Events

/-- The `blob.ingested` events of an operation. -/
def ingestedBy (operationId : JsString) (r : AuditRow) : Bool :=
  r.action == js "blob.ingested" && r.correlationId == operationId

def sentBy (operationId : JsString) (e : OutboxEvent) : Bool := e.operationId == operationId

/-- A key that only one element of a list has. -/
theorem length_filter_eq_one {α β : Type} {f : α → β} {l : List α} (hnodup : (l.map f).Nodup)
    {q : α → Bool} {b : β} (hq : ∀ x ∈ l, q x = true ↔ f x = b) (hb : ∃ x ∈ l, f x = b) :
    (l.filter q).length = 1 := by
  obtain ⟨x, hx, hfx⟩ := hb
  have hall : ∀ y ∈ l.filter q, y = x := by
    intro y hy
    obtain ⟨hyl, hqy⟩ := List.mem_filter.mp hy
    exact List.inj_on_of_nodup_map hnodup hyl hx (((hq y hyl).mp hqy).trans hfx.symm)
  have hmem : x ∈ l.filter q := List.mem_filter.mpr ⟨hx, (hq x hx).mpr hfx⟩
  have hone : (l.filter q).Nodup := (List.Nodup.of_map f hnodup).filter q
  have hperm : (l.filter q).Perm [x] := by
    rw [List.perm_ext_iff_of_nodup hone (List.nodup_singleton x)]
    intro y
    constructor
    · exact fun hy => List.mem_singleton.mpr (hall y hy)
    · intro hy
      rw [List.mem_singleton.mp hy]
      exact hmem
  rw [hperm.length_eq, List.length_singleton]

variable {κ : Type} {S : Setting κ} {s : IngestState κ} {row : IngestOperation}

theorem Setting.Inv.events_of_completed (h : S.Inv s) (hrow : row ∈ s.operations)
    (hstate : row.state = .reached .completed) :
    (s.auditEvents.filter (ingestedBy row.id)).length = 1 ∧
      (s.outboxEvents.filter (sentBy row.id)).length = 1 := by
  have hrec := h.rows row hrow
  obtain ⟨input, hinput, hr⟩ := hrec.requested
  have hmetadata : .metadataCommitted ∈ row.checkpoints := by
    apply mem_of_length hrec.ordered (n := 5) rfl
    have hlength := length_of_mem hrec.ordered (n := 6) rfl (hrec.ended hstate).1
    omega
  obtain ⟨⟨haudit, houtbox⟩, -⟩ := hrec.ready _ hmetadata input hinput hr
  constructor
  · apply length_filter_eq_one h.auditIds _ haudit
    intro r hr
    rw [ingestedBy, Bool.and_eq_true, beq_iff_eq, beq_iff_eq]
    exact (h.audits r hr row.id hrec.drawn).symm
  · apply length_filter_eq_one h.outboxIds _ houtbox
    intro e he
    rw [sentBy, beq_iff_eq]
    exact (h.outbox e he row.id hrec.drawn).symm

theorem nodup_ingestCheckpoints : ingestCheckpoints.Nodup := by decide

end Events

variable {ι : Type} [DecidableEq ι] {κ : Type} [DecidableEq κ]

/-- For every number of calls and crashes and every interleaving of them. -/
theorem interleaved_ingests {platform : κ} {provider : JsString} {fields : RoutingFields κ}
    {inputs : Set IngestInput} {ids : Set JsString} (hd : DistinctDigests inputs ids)
    {w : IngestWorld ι κ}
    (h : (ingestCalls ι platform provider fields inputs ids).Reachable w) :
    (w.shared.blobs.map fun blob => (blob.workspaceId, blob.sha256)).Nodup ∧
    (∀ blob ∈ w.shared.blobs, ∃ o,
      canonicalObjectKey blob.workspaceId blob.sha256 = some blob.storageKey ∧
      w.shared.storages (fields.storage.getD platform) blob.storageKey = some o ∧
      o.digest = blob.sha256 ∧ o.body.length = blob.byteLength) ∧
    (∀ row ∈ w.shared.operations, row.state = .reached .completed →
      (w.shared.auditEvents.filter (ingestedBy row.id)).length = 1 ∧
      (w.shared.outboxEvents.filter (sentBy row.id)).length = 1) ∧
    ∀ row ∈ w.shared.operations, row.checkpoints <+: ingestCheckpoints ∧ row.checkpoints.Nodup := by
  have hinv := inv_of_reachable hd h
  refine ⟨hinv.digests, ?_, fun row hrow hstate => hinv.events_of_completed hrow hstate, ?_⟩
  · intro blob hblob
    obtain ⟨-, input, -, hisBlob, hlength, hkey, key, o, hkey', ho, hdigest, hbody⟩ := hinv.stored blob hblob
    simp only [isBlob, ofDigest, Bool.and_eq_true, beq_iff_eq] at hisBlob
    rw [hkey, Option.some.injEq] at hkey'
    rw [hisBlob.1, hisBlob.2, hlength, hkey']
    exact ⟨o, by rw [hkey, hkey'], ho, hdigest, hbody⟩
  · intro row hrow
    have hordered := (hinv.rows row hrow).ordered
    exact ⟨hordered, hordered.sublist.nodup nodup_ingestCheckpoints⟩

section Sample

/-- The values that the calls of the samples draw. -/
def sampleSupplies : Supplies := ⟨⟨0, Columns.epoch_bound⟩, js "i", js "o"⟩

def sampleIds : Set JsString := {js "o", js "i"}

theorem distinct_sample : DistinctDigests {noBytes} sampleIds := by
  have haudit : auditId (js "o") ≠ auditId (js "i") := by decide +kernel
  have houtbox : outboxId (js "o") ≠ outboxId (js "i") := by decide +kernel
  refine ⟨?_, ?_, Set.injOn_pair.mpr fun h => absurd h haudit,
    Set.injOn_pair.mpr fun h => absurd h houtbox, ?_⟩
  · rintro m ⟨a, rfl, rfl⟩ m' ⟨b, rfl, rfl⟩ -
    rfl
  · rintro m ⟨a, rfl, rfl⟩ m' ⟨b, rfl, rfl⟩ -
    rfl
  · rintro id (rfl | rfl)
    · decide
    · decide

theorem unused_noState (storage : Bool) (inputs : Set IngestInput) (ids : Set JsString) :
    Unused storage inputs ids noState :=
  ⟨rfl, rfl, fun _ _ _ _ _ => rfl, nofun, List.nodup_nil, nofun, List.nodup_nil, nofun⟩

/-- The calls for no bytes on the platform's storage. -/
def sampleCall : IngestProg Bool ObjectIngestResult := ingest false (js "p") noBytes onPlatform

abbrev sampleCalls (ι : Type) [DecidableEq ι] :
    Machine (IngestWorld ι Bool) (Event ι (Stmt Bool) Stmt.Result IngestError ObjectIngestResult) :=
  ingestCalls ι false (js "p") onPlatform {noBytes} sampleIds

theorem isCall_sampleCall : IsCall false (js "p") onPlatform {noBytes} sampleCall :=
  ⟨noBytes, rfl, rfl⟩

theorem sampleCalls_init : (sampleCalls ι).init ⟨noState, fun _ => .idle⟩ :=
  ⟨unused_noState false _ _, fun _ => rfl⟩

theorem exec_sampleSupplies (st : Stmt Bool) (s : IngestState Bool) :
    ingestExec sampleIds s st (performIngest sampleSupplies st s).1 (performIngest sampleSupplies st s).2 :=
  ⟨sampleSupplies, ⟨Or.inl rfl, Or.inr rfl⟩, rfl⟩

theorem sampleIds_supplies : sampleSupplies.operationId ∈ sampleIds ∧
    sampleSupplies.nextId ∈ sampleIds := ⟨Or.inl rfl, Or.inr rfl⟩

section Calls

variable {inputs : Set IngestInput} {ids : Set JsString} {input : IngestInput} {supplies : Supplies}
  {guard : IngestState Bool → Stmt Bool → Prop} {s : IngestState Bool}
  {procs : ι → Proc Unit (Stmt Bool) Stmt.Result IngestError ObjectIngestResult} {i : ι}

/-- What a call on the platform's storage leaves after its statements, with the rest of it. -/
def callAfter (supplies : Supplies) (input : IngestInput) (n : Nat) (s : IngestState Bool) :
    IngestProg Bool ObjectIngestResult × IngestState Bool :=
  (ingest false (js "p") input onPlatform).after (performIngest supplies) n s

/-- A call that stops after some statements. -/
theorem reaches_stopped (n : Nat) (hinput : input ∈ inputs)
    (hids : supplies.operationId ∈ ids ∧ supplies.nextId ∈ ids) (hidle : procs i = .idle)
    (hmeets : (ingest false (js "p") input onPlatform).Meets (performIngest supplies) guard n s)
    (h : (ingestCalls ι false (js "p") onPlatform inputs ids).Reaches (OnStatements guard) ⟨s, procs⟩) :
    (ingestCalls ι false (js "p") onPlatform inputs ids).Reaches (OnStatements guard)
      ⟨(callAfter supplies input n s).2,
        Function.update procs i (.running () (callAfter supplies input n s).1)⟩ :=
  reaches_after (fun _ _ => ⟨supplies, hids, rfl⟩) hmeets
    (reaches_begin ⟨input, hinput, rfl⟩ hidle h)

/-- A call that runs to its end while no other process takes a step. -/
theorem reaches_call {a : ObjectIngestResult} (hinput : input ∈ inputs)
    (hids : supplies.operationId ∈ ids ∧ supplies.nextId ∈ ids) (hidle : procs i = .idle)
    (hmeets : (ingest false (js "p") input onPlatform).Meets (performIngest supplies) guard 22 s)
    (houtcome : (callAfter supplies input 22 s).1.outcome = some a)
    (h : (ingestCalls ι false (js "p") onPlatform inputs ids).Reaches (OnStatements guard) ⟨s, procs⟩) :
    (ingestCalls ι false (js "p") onPlatform inputs ids).Reaches (OnStatements guard)
      ⟨(callAfter supplies input 22 s).2, Function.update procs i (.returned a)⟩ := by
  have hreach := reaches_stopped 22 hinput hids hidle hmeets h
  rw [Prog.eq_pure_of_outcome houtcome] at hreach
  exact reaches_finish hreach

/-- The state that a call leaves. -/
def callState (supplies : Supplies) (input : IngestInput) (s : IngestState Bool) : IngestState Bool :=
  (callAfter supplies input 22 s).2

/-- The operation and the flag that a call returns. -/
def callAnswer (supplies : Supplies) (input : IngestInput) (s : IngestState Bool) :
    Option (JsString × Bool) :=
  (callAfter supplies input 22 s).1.outcome.map fun a => (a.operationId, a.deduplicated)

theorem exists_outcome {supplies : Supplies} {input : IngestInput} {s : IngestState Bool}
    {operationId : JsString} {deduplicated : Bool}
    (h : callAnswer supplies input s = some (operationId, deduplicated)) :
    ∃ a, (callAfter supplies input 22 s).1.outcome = some a ∧
      a.operationId = operationId ∧ a.deduplicated = deduplicated := by
  obtain ⟨a, houtcome, ha⟩ := Option.map_eq_some_iff.mp h
  rw [Prod.mk.injEq] at ha
  exact ⟨a, houtcome, ha⟩

end Calls

/-- A call that stops after eight statements, one with the same key that ends its operation, and a
replay. -/
theorem interleaved_ingests_resumed :
    ∃ w p a b, (sampleCalls Nat).Reachable w ∧ w.procs 0 = .running () p ∧
      w.procs 1 = .returned a ∧ w.procs 2 = .returned b ∧ a.operationId = b.operationId ∧
      (∃ row ∈ w.shared.operations, row.state = .reached .completed) ∧
      (∀ row ∈ w.shared.operations, row.state = .reached .completed →
        (w.shared.auditEvents.filter (ingestedBy row.id)).length = 1 ∧
        (w.shared.outboxEvents.filter (sentBy row.id)).length = 1) := by
  let stopped := (callAfter sampleSupplies noBytes 8 noState).2
  let resumed := callState sampleSupplies noBytes stopped
  obtain ⟨hresumes, hreplays, hcompleted⟩ :
      callAnswer sampleSupplies noBytes stopped = some (js "o", false) ∧
      callAnswer sampleSupplies noBytes resumed = some (js "o", true) ∧
      (callState sampleSupplies noBytes resumed).operations.any
        (fun row => decide (row.state = .reached .completed)) = true := by decide +kernel
  obtain ⟨a, ha, hida, -⟩ := exists_outcome hresumes
  obtain ⟨b, hb, hidb, -⟩ := exists_outcome hreplays
  obtain ⟨row, hrow, hstate⟩ := List.any_eq_true.mp hcompleted
  have hmem : noBytes ∈ ({noBytes} : Set IngestInput) := rfl
  have hinit : (sampleCalls Nat).Reaches (OnStatements fun _ _ => True) ⟨noState, fun _ => .idle⟩ :=
    .init sampleCalls_init
  have hstopped := reaches_stopped (i := 0) 8 hmem sampleIds_supplies rfl (Prog.meets_true _ _ _)
    hinit
  have hresumed := reaches_call (i := 1) hmem sampleIds_supplies (by simp) (Prog.meets_true _ _ _) ha
    hstopped
  have hreplayed := reaches_call (i := 2) hmem sampleIds_supplies (by simp) (Prog.meets_true _ _ _) hb
    hresumed
  have hreach := hreplayed.mono fun _ _ _ => trivial
  refine ⟨_, (callAfter sampleSupplies noBytes 8 noState).1, a, b, hreach, by simp, by simp, by simp,
    hida.trans hidb.symm, ⟨row, hrow, of_decide_eq_true hstate⟩,
    (interleaved_ingests distinct_sample hreach).2.2.1⟩

end Sample

end TrustCore.ObjectIngest
