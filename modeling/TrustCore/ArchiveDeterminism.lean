import TrustCore.ArchiveRoundTrip
import TrustCore.ImportDependencies
import TrustCore.ReorderedKeys

/-!
# The archive does not show the order of its source

The records of every kind are written in the order of their ids, the data sets in
the order of their names, the checksums in the order of their paths, and the keys
of every value in one order. The blobs and the entries before the checksum file
come in another order into the map, which its entries do not show. The lineage
is found by a first match, which with one root and one tail is the only one.
-/

namespace TrustCore.ArchiveDeterminism

open TrustCore.Utf TrustCore.Json TrustCore.Columns TrustCore.Dynamic TrustCore.Sha256
open TrustCore.ArchiveFormat TrustCore.ArchiveVerify TrustCore.ArchiveAssemble
open TrustCore.ImportPlan TrustCore.ImportDependencies TrustCore.ReorderedKeys

section Lists

variable {α β σ : Type*}

theorem foldlM_rel {R : σ → σ → Prop} {step step' : σ → α → Option σ}
    (hstep : ∀ s t a, R s t → Option.Rel R (step s a) (step' t a)) (l : List α) {s t : σ}
    (hst : R s t) : Option.Rel R (l.foldlM step s) (l.foldlM step' t) := by
  induction l generalizing s t with
  | nil => exact .some hst
  | cons a l ih =>
    rw [List.foldlM_cons, List.foldlM_cons]
    exact rel_bind (hstep s t a hst) fun _ _ h => ih h

/-- A fold whose steps can be swapped does not show the order of the list. -/
theorem foldlM_perm {R : σ → σ → Prop} {step : σ → α → Option σ}
    (hleft : ∀ s t, R s t → R s s) (htrans : ∀ s t u, R s t → R t u → R s u)
    (hstep : ∀ s t a, R s t → Option.Rel R (step s a) (step t a))
    (hswap : ∀ s t a b, R s t →
      Option.Rel R ((step s a).bind (step · b)) ((step t b).bind (step · a)))
    {as bs : List α} (h : as.Perm bs) {s t : σ} (hst : R s t) :
    Option.Rel R (as.foldlM step s) (bs.foldlM step t) := by
  induction h generalizing s t with
  | nil => exact .some hst
  | cons a _ ih =>
    rw [List.foldlM_cons, List.foldlM_cons]
    exact rel_bind (hstep s t a hst) fun _ _ h => ih h
  | swap a b l =>
    simp only [List.foldlM_cons, Option.bind_eq_bind, ← Option.bind_assoc]
    exact rel_bind (hswap s t b a hst) fun _ _ h => foldlM_rel hstep l h
  | trans _ _ ih₁ ih₂ => exact rel_trans htrans (ih₁ (hleft s t hst)) (ih₂ hst)

/-- With one element that matches, the first match is the only one. -/
theorem find?_perm {p : α → Bool} {as bs : List α} (h : as.Perm bs)
    (hone : (as.filter p).length ≤ 1) : as.find? p = bs.find? p := by
  rw [← List.head?_filter, ← List.head?_filter]
  have hperm := h.filter p
  generalize as.filter p = l at hperm hone
  match l, hone with
  | [], _ => rw [List.nil_perm.mp hperm]
  | [a], _ => rw [List.singleton_perm.mp hperm]

theorem find?_forall₂ {R : α → β → Prop} {p : α → Bool} {q : β → Bool} {as : List α} {bs : List β}
    (h : List.Forall₂ R as bs) (hp : ∀ a b, R a b → p a = q b) :
    Option.Rel R (as.find? p) (bs.find? q) := by
  induction h with
  | nil => exact .none
  | cons hab _ ih =>
    rw [List.find?_cons, List.find?_cons, ← hp _ _ hab]
    split
    · exact .some hab
    · exact ih

theorem filterMap_forall₂ {R : α → α → Prop} {f : α → Option β} {as bs : List α}
    (h : List.Forall₂ R as bs) (hf : ∀ a b, R a b → f a = f b) :
    as.filterMap f = bs.filterMap f := by
  induction h with
  | nil => rfl
  | cons hab _ ih => rw [List.filterMap_cons, List.filterMap_cons, hf _ _ hab, ih]

theorem mapM_forall₂ {R : α → α → Prop} {f : α → Option β} {as bs : List α}
    (h : List.Forall₂ R as bs) (hf : ∀ a b, R a b → f a = f b) : as.mapM f = bs.mapM f := by
  induction h with
  | nil => rfl
  | cons hab _ ih => rw [List.mapM_cons, List.mapM_cons, hf _ _ hab, ih]

variable {r : α → α → Prop} [DecidableRel r]

/-- Elements that no two compare equal have one order. -/
theorem insertionSort_perm {as bs : List α} (htotal : ∀ a b, r a b ∨ r b a)
    (htrans : ∀ a b c, r a b → r b c → r a c) (h : as.Perm bs)
    (hanti : ∀ a ∈ as, ∀ b ∈ as, r a b → r b a → a = b) :
    as.insertionSort r = bs.insertionSort r := by
  have : Std.Total r := ⟨htotal⟩
  have : IsTrans α r := ⟨htrans⟩
  have hperm : (as.insertionSort r).Perm (bs.insertionSort r) :=
    (List.perm_insertionSort r as).trans (h.trans (List.perm_insertionSort r bs).symm)
  apply hperm.eq_of_pairwise _ (List.pairwise_insertionSort r as) (List.pairwise_insertionSort r bs)
  intro a b ha hb
  exact hanti a ((List.perm_insertionSort r as).mem_iff.mp ha) b
    (h.mem_iff.mpr ((List.perm_insertionSort r bs).mem_iff.mp hb))

theorem insertionSort_forall₂ {R : α → α → Prop} {as bs : List α} (h : List.Forall₂ R as bs)
    (hr : ∀ a b c d, R a b → R c d → (r a c ↔ r b d)) :
    List.Forall₂ R (as.insertionSort r) (bs.insertionSort r) := by
  have hinsert : ∀ {a b : α} {as bs : List α}, R a b → List.Forall₂ R as bs →
      List.Forall₂ R (as.orderedInsert r a) (bs.orderedInsert r b) := by
    intro a b as bs hab h
    induction h with
    | nil => exact .cons hab .nil
    | @cons c d _ _ hcd h ih =>
      rw [List.orderedInsert_cons, List.orderedInsert_cons]
      by_cases hle : r a c
      · rw [if_pos hle, if_pos ((hr _ _ _ _ hab hcd).mp hle)]
        exact .cons hab (.cons hcd h)
      · rw [if_neg hle, if_neg fun hle' => hle ((hr _ _ _ _ hab hcd).mpr hle')]
        exact .cons hcd ih
  induction h with
  | nil => exact .nil
  | cons hab _ ih =>
    rw [List.insertionSort_cons, List.insertionSort_cons]
    exact hinsert hab ih

end Lists

/-- The records of a kind, in another order and with their keys in another order. -/
def PermutedRecords (records records' : List ArchiveRecord) : Prop :=
  ∃ moved, records.Perm moved ∧
    List.Forall₂ (fun r r' => Reordered (.object r) (.object r')) moved records'

/-- The same source, but for the order of its lists and of the keys of its records. -/
structure Permuted (source source' : ArchiveSource) : Prop where
  exportId : source.exportId = source'.exportId
  workspaceId : source.workspaceId = source'.workspaceId
  datasetIds : source.datasetIds.Perm source'.datasetIds
  createdAt : source.createdAt = source'.createdAt
  createdBy : source.createdBy = source'.createdBy
  sourceVersion : source.sourceVersion = source'.sourceVersion
  records : ∀ kind, PermutedRecords (source.records kind) (source'.records kind)
  blobs : source.blobs.Perm source'.blobs

/-- Every record has a string id, and no two compare equal. -/
structure DistinctIds (localeLe : JsString → JsString → Bool) (records : List ArchiveRecord) :
    Prop where
  strings : ∀ r ∈ records, ∃ id, idOf r = .string id
  distinct : records.Pairwise fun a b => ∀ i j, idOf a = .string i → idOf b = .string j →
    ¬ (localeLe i j = true ∧ localeLe j i = true)

def isLineageRoot (event : ArchiveRecord) : Bool :=
  isNullish (field event (js "previousEventHash"))

/-- The event has a hash that no event of the list names as its predecessor. -/
def isLineageTail (events : List ArchiveRecord) (event : ArchiveRecord) : Bool :=
  match asString (field event (js "eventHash")) with
  | some hash =>
    !(events.filterMap fun e => asString (field e (js "previousEventHash"))).contains hash
  | none => false

structure OneLineage (events : List ArchiveRecord) : Prop where
  root : (events.filter isLineageRoot).length ≤ 1
  tail : (events.filter (isLineageTail events)).length ≤ 1

section Records

variable {localeLe : JsString → JsString → Bool} {records records' : List ArchiveRecord}

/-- The string id of a record. -/
def recordId (record : ArchiveRecord) : JsString := (asString (idOf record)).getD []

theorem sortId_of_string {record : ArchiveRecord} (h : ∃ id, idOf record = .string id) :
    sortId record = some (recordId record) := by
  obtain ⟨id, h⟩ := h
  rw [sortId, recordId, h]
  rfl

theorem sortedRecords_of_strings (h : ∀ r ∈ records, ∃ id, idOf r = .string id) :
    sortedRecords localeLe records =
      some (records.insertionSort fun a b => localeLe (recordId a) (recordId b) = true) := by
  have hids : records.mapM sortId = some (records.map recordId) := by
    induction records with
    | nil => rfl
    | cons r records ih =>
      rw [List.mapM_cons, sortId_of_string (h r List.mem_cons_self),
        ih fun r hr => h r (List.mem_cons_of_mem _ hr)]
      rfl
  have hzip : (records.map recordId).zip records = records.map fun r => (recordId r, r) :=
    List.map_prod_right_eq_zip.symm
  rw [sortedRecords, hids, Option.bind_eq_bind, Option.bind_some, hzip,
    ← List.map_insertionSort (fun a b => localeLe (recordId a) (recordId b) = true) _ _ _
      fun _ _ _ _ => Iff.rfl, List.map_map]
  exact congrArg some (List.map_id _)

theorem DistinctIds.eq_of_le (h : DistinctIds localeLe records) {a b : ArchiveRecord}
    (ha : a ∈ records) (hb : b ∈ records) (hab : localeLe (recordId a) (recordId b) = true)
    (hba : localeLe (recordId b) (recordId a) = true) : a = b := by
  obtain ⟨i, hi⟩ := h.strings a ha
  obtain ⟨j, hj⟩ := h.strings b hb
  rw [recordId, recordId, hi, hj] at hab hba
  by_contra hne
  have hsymm : Std.Symm fun a b : ArchiveRecord => ∀ i j, idOf a = .string i →
      idOf b = .string j → ¬ (localeLe i j = true ∧ localeLe j i = true) :=
    ⟨fun _ _ h i j hi hj hle => h j i hj hi hle.symm⟩
  exact h.distinct.forall ha hb hne i j hi hj ⟨hab, hba⟩

theorem recordId_reordered {r r' : ArchiveRecord} (h : Reordered (.object r) (.object r')) :
    recordId r = recordId r' := by
  rw [recordId, recordId, idOf, idOf, (h.field (js "id")).asString_eq]

theorem string_id_reordered {r r' : ArchiveRecord} (h : Reordered (.object r) (.object r'))
    {id : JsString} (hid : idOf r = .string id) : idOf r' = .string id := by
  have hsame := h.field (js "id")
  rw [idOf] at hid ⊢
  rw [hid] at hsame
  generalize field r' (js "id") = v at hsame ⊢
  cases hsame
  rfl

/-- The file of a kind does not show the order of its records. -/
theorem recordLines_permuted (hl : LocaleOrder localeLe) (hd : DistinctIds localeLe records)
    (hp : PermutedRecords records records') :
    recordLines localeLe records = recordLines localeLe records' := by
  obtain ⟨moved, hperm, hsame⟩ := hp
  have hmoved : ∀ r ∈ moved, ∃ id, idOf r = .string id := fun r hr =>
    hd.strings r (hperm.mem_iff.mpr hr)
  have hstrings : ∀ r ∈ records', ∃ id, idOf r = .string id := by
    intro r' hr'
    obtain ⟨r, hr, hrr⟩ := (ImportReferences.mem_of_forall₂ hsame).2 r' hr'
    obtain ⟨id, hid⟩ := hmoved r hr
    exact ⟨id, string_id_reordered hrr hid⟩
  have hsort : records.insertionSort (fun a b => localeLe (recordId a) (recordId b) = true) =
      moved.insertionSort fun a b => localeLe (recordId a) (recordId b) = true :=
    insertionSort_perm (fun a b => hl.total _ _) (fun a b c => hl.trans _ _ _) hperm
      fun a ha b hb => hd.eq_of_le ha hb
  have hsorted := @insertionSort_forall₂ _ (fun a b => localeLe (recordId a) (recordId b) = true) _
    _ _ _ hsame fun a b c d hab hcd => by rw [recordId_reordered hab, recordId_reordered hcd]
  have hlines : ∀ a b : ArchiveRecord, Reordered (.object a) (.object b) →
      canonicalJson (.object a) = canonicalJson (.object b) := fun a b hab =>
    encode_reordered (keyOrder_units none none) hab
  rw [recordLines, recordLines, sortedRecords_of_strings hd.strings,
    sortedRecords_of_strings hstrings, hsort, Option.bind_eq_bind, Option.bind_some,
    Option.bind_eq_bind, Option.bind_some, mapM_forall₂ hsorted hlines]

end Records

section Lineage

variable {source source' : ArchiveSource}

/-- The hashes under one key, in the order of the events. -/
def hashesAt (key : JsString) (events : List ArchiveRecord) : List JsString :=
  events.filterMap fun event => asString (field event key)

theorem hashesAt_reordered (key : JsString) {events events' : List ArchiveRecord}
    (h : List.Forall₂ (fun r r' => Reordered (.object r) (.object r')) events events') :
    hashesAt key events = hashesAt key events' :=
  filterMap_forall₂ h fun _ _ hr => (hr.field key).asString_eq

theorem hashesAt_perm (key : JsString) {events moved : List ArchiveRecord}
    (h : events.Perm moved) : (hashesAt key events).Perm (hashesAt key moved) :=
  h.filterMap _

theorem contains_perm {as bs : List JsString} (h : as.Perm bs) (a : JsString) :
    as.contains a = bs.contains a := by
  rw [Bool.eq_iff_iff, List.contains_iff_mem, List.contains_iff_mem, h.mem_iff]

theorem length_unreferenced (events : List ArchiveRecord) :
    ((hashesAt (js "eventHash") events).filter fun hash =>
      !(hashesAt (js "previousEventHash") events).contains hash).length =
        (events.filter (isLineageTail events)).length := by
  rw [← List.countP_eq_length_filter, ← List.countP_eq_length_filter]
  simp only [hashesAt, List.countP_filterMap]
  congr 1
  funext event
  rw [isLineageTail]
  cases asString (field event (js "eventHash")) with
  | none => rfl
  | some hash => rfl

theorem auditLineage_first (hp : PermutedRecords (source.records .auditEvents)
      (source'.records .auditEvents)) (hone : OneLineage (source.records .auditEvents)) :
    Reordered (auditLineage source).firstEventHash (auditLineage source').firstEventHash := by
  obtain ⟨moved, hperm, hsame⟩ := hp
  have hfind : Option.Rel (fun r r' => Reordered (.object r) (.object r'))
      ((source.records .auditEvents).find? isLineageRoot)
      ((source'.records .auditEvents).find? isLineageRoot) := by
    rw [find?_perm hperm hone.root]
    exact find?_forall₂ hsame fun _ _ hr => (hr.field _).isNullish_eq
  unfold isLineageRoot at hfind
  simp only [auditLineage]
  generalize (source.records .auditEvents).find? _ = first at hfind ⊢
  generalize (source'.records .auditEvents).find? _ = first' at hfind ⊢
  cases hfind with
  | none => exact .refl _
  | some hr =>
    have hhash := hr.field (js "eventHash")
    simp only [hhash.isNullish_eq]
    split
    · exact .refl _
    · exact hhash

theorem auditLineage_last (hp : PermutedRecords (source.records .auditEvents)
      (source'.records .auditEvents)) (hone : OneLineage (source.records .auditEvents)) :
    (auditLineage source).lastEventHash = (auditLineage source').lastEventHash := by
  obtain ⟨moved, hperm, hsame⟩ := hp
  have hcontains : ∀ hash, (hashesAt (js "previousEventHash") moved).contains hash =
      (hashesAt (js "previousEventHash") (source.records .auditEvents)).contains hash :=
    contains_perm (hashesAt_perm _ hperm.symm)
  have hfind : (hashesAt (js "eventHash") (source.records .auditEvents)).find? (fun hash =>
        !(hashesAt (js "previousEventHash") (source.records .auditEvents)).contains hash) =
      (hashesAt (js "eventHash") (source'.records .auditEvents)).find? fun hash =>
        !(hashesAt (js "previousEventHash") (source'.records .auditEvents)).contains hash := by
    rw [find?_perm (hashesAt_perm _ hperm) (length_unreferenced _ ▸ hone.tail),
      ← hashesAt_reordered (js "eventHash") hsame,
      ← hashesAt_reordered (js "previousEventHash") hsame]
    simp only [hcontains]
  simp only [auditLineage]
  unfold hashesAt at hfind
  rw [hfind]

/-- The manifest has the same text, though its first hash may be a value with keys. -/
theorem manifest_permuted (hp : Permuted source source')
    (hone : OneLineage (source.records .auditEvents)) :
    canonicalJson (manifestOf source).value = canonicalJson (manifestOf source').value := by
  have hdatasets : source.datasetIds.insertionSort (fun a b => unitsLe a b = true) =
      source'.datasetIds.insertionSort fun a b => unitsLe a b = true :=
    insertionSort_perm unitsLe_total unitsLe_trans hp.datasetIds
      fun a _ b _ => unitsLe_antisymm a b
  have hcounts : ∀ kind, (source.records kind).length = (source'.records kind).length := by
    intro kind
    obtain ⟨moved, hperm, hsame⟩ := hp.records kind
    rw [hperm.length_eq, hsame.length_eq]
  have hlineage : Reordered (auditLineage source).value (auditLineage source').value := by
    have hcount : (auditLineage source).eventCount = (auditLineage source').eventCount :=
      hcounts .auditEvents
    have hworkspace : (auditLineage source).sourceWorkspaceId =
        (auditLineage source').sourceWorkspaceId := hp.workspaceId
    rw [AuditLineage.value, AuditLineage.value, hcount, hworkspace,
      auditLineage_last (hp.records _) hone]
    have hkeys : [js "mode", js "sourceWorkspaceId", js "eventCount", js "firstEventHash",
        js "lastEventHash"].Nodup := by decide +kernel
    exact .object hkeys (.cons (.refl _) (.cons (.refl _) (.cons (.refl _)
      (.cons (auditLineage_first (hp.records _) hone) (.refl _))))) (.refl _)
  apply encode_reordered (keyOrder_units none none)
  simp only [TrustArchiveManifest.value, manifestOf, hdatasets, hp.exportId, hp.workspaceId,
    hp.createdAt, hp.createdBy, hp.sourceVersion, hcounts, hp.blobs.length_eq,
    (hp.blobs.map ArchiveBlobInput.byteLength).sum_eq]
  have hkeys : [js "format", js "formatVersion", js "exportId", js "workspaceId", js "datasetIds",
      js "createdAt", js "createdBy", js "sourceVersion", js "checksumAlgorithm",
      js "canonicalJsonProfile", js "signatureProfile", js "auditLineage", js "recordCounts",
      js "blobCount", js "totalBlobBytes"].Nodup := by decide +kernel
  exact .object hkeys (.cons (.refl _) (.cons (.refl _) (.cons (.refl _) (.cons (.refl _)
    (.cons (.refl _) (.cons (.refl _) (.cons (.refl _) (.cons (.refl _) (.cons (.refl _)
    (.cons (.refl _) (.cons (.refl _) (.cons hlineage (.refl _))))))))))))) (.refl _)

end Lineage

def isLetterOrDigit (u : UInt16) : Bool :=
  decide (48 ≤ u.toNat ∧ u.toNat ≤ 57) || decide (65 ≤ u.toNat ∧ u.toNat ≤ 90) ||
    decide (97 ≤ u.toNat ∧ u.toNat ≤ 122)

/-- Of two ASCII texts `localeCompare` finds equal, only the punctuation may differ. -/
structure AsciiCollation (localeLe : JsString → JsString → Bool) : Prop
    extends LocaleOrder localeLe where
  letters : ∀ a b, (∀ u ∈ a, u.toNat < 128) → (∀ u ∈ b, u.toNat < 128) →
    localeLe a b = true → localeLe b a = true →
      a.filter isLetterOrDigit = b.filter isLetterOrDigit

/-- The paths that the assembler writes. -/
inductive ArchivePath : JsString → Prop
  | blob {digest : JsString} (h : isSha256 digest = true) : ArchivePath (blobPath digest)
  | records (kind : ArchiveRecordKind) : ArchivePath (recordsPath kind)
  | manifest : ArchivePath manifestPath
  | readme : ArchivePath (js "README.txt")
  | checksums : ArchivePath checksumsPath

section Paths

theorem isLetterOrDigit_of_hex {u : UInt16} (h : isLowerHex u = true) :
    isLetterOrDigit u = true := by
  simp only [isLowerHex, isLetterOrDigit, Bool.or_eq_true, decide_eq_true_eq] at h ⊢
  omega

theorem filter_hex {s : JsString} (h : ∀ u ∈ s, isLowerHex u = true) :
    s.filter isLetterOrDigit = s :=
  List.filter_eq_self.mpr fun u hu => isLetterOrDigit_of_hex (h u hu)

theorem filter_blobPath {digest : JsString} (h : isSha256 digest = true) :
    (blobPath digest).filter isLetterOrDigit = js "blobs" ++ digest.take 2 ++ digest := by
  have hhex := isSha256_isLowerHex h
  have hstart : (js "blobs/").filter isLetterOrDigit = js "blobs" := by decide
  have hslash : (js "/").filter isLetterOrDigit = [] := by decide
  rw [blobPath, List.filter_append, List.filter_append, List.filter_append, filter_hex hhex,
    filter_hex fun u hu => hhex u (List.mem_of_mem_take hu), hstart, hslash, List.append_nil]

theorem ArchivePath.ascii {path : JsString} (h : ArchivePath path) : ∀ u ∈ path, u.toNat < 128 := by
  cases h with
  | @blob digest h =>
    have hhex : ∀ u ∈ digest, u.toNat < 128 := fun u hu =>
      (plain_isLowerHex (isSha256_isLowerHex h u hu)).2.trans (by decide)
    have hstart : ∀ u ∈ js "blobs/", u.toNat < 128 := by decide
    have hslash : ∀ u ∈ js "/", u.toNat < 128 := by decide
    intro u hu
    rw [blobPath, List.mem_append, List.mem_append, List.mem_append] at hu
    rcases hu with ((hu | hu) | hu) | hu
    · exact hstart u hu
    · exact hhex u (List.mem_of_mem_take hu)
    · exact hslash u hu
    · exact hhex u hu
  | records kind => exact fun u hu => ((plainPath_records kind).2 u hu).2.trans (by decide)
  | manifest => exact fun u hu => (fixed_paths.2.2.1.2 u hu).2.trans (by decide)
  | readme => exact fun u hu => (fixed_paths.2.2.2.1.2 u hu).2.trans (by decide)
  | checksums => decide

/-- The letters of the paths that are the same in every archive. -/
theorem path_letters :
    (∀ kind ∈ archiveRecordKinds, ((recordsPath kind).filter isLetterOrDigit).head? = some 114) ∧
    (∀ kind ∈ archiveRecordKinds, ∀ kind' ∈ archiveRecordKinds,
      (recordsPath kind).filter isLetterOrDigit = (recordsPath kind').filter isLetterOrDigit →
        kind = kind') ∧
    (manifestPath.filter isLetterOrDigit).head? = some 109 ∧
    ((js "README.txt").filter isLetterOrDigit).head? = some 82 ∧
    (checksumsPath.filter isLetterOrDigit).head? = some 99 := by
  decide +kernel

/-- The first letter tells the kinds of paths apart. -/
theorem ArchivePath.first_letter {path : JsString} (h : ArchivePath path) :
    ((path.filter isLetterOrDigit).head? = some 98 ∧
        ∃ digest, isSha256 digest = true ∧ path = blobPath digest) ∨
      ((path.filter isLetterOrDigit).head? = some 114 ∧ ∃ kind, path = recordsPath kind) ∨
      ((path.filter isLetterOrDigit).head? = some 109 ∧ path = manifestPath) ∨
      ((path.filter isLetterOrDigit).head? = some 82 ∧ path = js "README.txt") ∨
      ((path.filter isLetterOrDigit).head? = some 99 ∧ path = checksumsPath) := by
  cases h with
  | @blob digest h => exact Or.inl ⟨by rw [filter_blobPath h]; rfl, digest, h, rfl⟩
  | records kind =>
    exact Or.inr (Or.inl ⟨path_letters.1 kind (mem_archiveRecordKinds kind), kind, rfl⟩)
  | manifest => exact Or.inr (Or.inr (Or.inl ⟨path_letters.2.2.1, rfl⟩))
  | readme => exact Or.inr (Or.inr (Or.inr (Or.inl ⟨path_letters.2.2.2.1, rfl⟩)))
  | checksums => exact Or.inr (Or.inr (Or.inr (Or.inr ⟨path_letters.2.2.2.2, rfl⟩)))

theorem blobPath_of_letters {digest digest' : JsString} (h : isSha256 digest = true)
    (h' : isSha256 digest' = true) (hletters : (blobPath digest).filter isLetterOrDigit =
      (blobPath digest').filter isLetterOrDigit) : digest = digest' := by
  rw [filter_blobPath h, filter_blobPath h'] at hletters
  apply (List.append_inj hletters _).2
  simp [isSha256_length h, isSha256_length h']

theorem recordsPath_of_letters {kind kind' : ArchiveRecordKind}
    (h : (recordsPath kind).filter isLetterOrDigit = (recordsPath kind').filter isLetterOrDigit) :
    kind = kind' :=
  path_letters.2.1 kind (mem_archiveRecordKinds kind) kind' (mem_archiveRecordKinds kind') h

theorem ArchivePath.eq_of_letters {a b : JsString} (ha : ArchivePath a) (hb : ArchivePath b)
    (h : a.filter isLetterOrDigit = b.filter isLetterOrDigit) : a = b := by
  have hhead := congrArg List.head? h
  rcases ha.first_letter with
    ⟨ha, d, hd, rfl⟩ | ⟨ha, k, rfl⟩ | ⟨ha, rfl⟩ | ⟨ha, rfl⟩ | ⟨ha, rfl⟩ <;>
  rcases hb.first_letter with
    ⟨hb, d', hd', rfl⟩ | ⟨hb, k', rfl⟩ | ⟨hb, rfl⟩ | ⟨hb, rfl⟩ | ⟨hb, rfl⟩ <;>
    have hsame := ha.symm.trans (hhead.trans hb) <;> simp at hsame
  · rw [blobPath_of_letters hd hd' h]
  · rw [recordsPath_of_letters h]
  · rfl
  · rfl
  · rfl

/-- No two paths of the archive compare equal. -/
theorem ArchivePath.eq_of_le {localeLe : JsString → JsString → Bool} (hl : AsciiCollation localeLe)
    {a b : JsString} (ha : ArchivePath a) (hb : ArchivePath b) (hab : localeLe a b = true)
    (hba : localeLe b a = true) : a = b :=
  ha.eq_of_letters hb (hl.letters a b ha.ascii hb.ascii hab hba)

end Paths

section Entries

variable {localeLe : JsString → JsString → Bool} {source source' : ArchiveSource}
  {m m' : EntryMap}

/-- The same entries in some order, all under paths of the archive. -/
structure SameEntries (m m' : EntryMap) : Prop where
  perm : m.entries.Perm m'.entries
  paths : ∀ e ∈ m.entries, ArchivePath e.1

theorem SameEntries.left (h : SameEntries m m') : SameEntries m m := ⟨.refl _, h.paths⟩

theorem SameEntries.trans {m'' : EntryMap} (h : SameEntries m m') (h' : SameEntries m' m'') :
    SameEntries m m'' := ⟨h.perm.trans h'.perm, h.paths⟩

theorem SameEntries.mem_iff (h : SameEntries m m') (path : JsString) :
    path ∈ m.entries.map Prod.fst ↔ path ∈ m'.entries.map Prod.fst :=
  (h.perm.map Prod.fst).mem_iff

theorem SameEntries.get_eq (h : SameEntries m m') (path : JsString) : m.get path = m'.get path :=
  lookup_perm m.nodup h.perm path

theorem add_same (h : SameEntries m m') {path : JsString} (hpath : ArchivePath path)
    (bytes : Bytes) : Option.Rel SameEntries (m.add path bytes) (m'.add path bytes) := by
  rw [EntryMap.add, EntryMap.add]
  split
  · by_cases hmem : path ∈ m.entries.map Prod.fst
    · rw [dif_pos hmem, dif_pos ((h.mem_iff path).mp hmem)]
      exact .none
    · rw [dif_neg hmem, dif_neg fun hmem' => hmem ((h.mem_iff path).mpr hmem')]
      refine .some ⟨h.perm.append_right _, ?_⟩
      intro e he
      rcases List.mem_append.mp he with he | he
      · exact h.paths e he
      · rw [List.mem_singleton.mp he]
        exact hpath
  · exact .none

theorem exists_add {path : JsString} (bytes : Bytes) (hsafe : isSafeArchivePath path = true)
    (hnew : path ∉ m.entries.map Prod.fst) :
    ∃ m', m.add path bytes = some m' ∧ m'.entries = m.entries ++ [(path, bytes)] := by
  rw [EntryMap.add, if_pos hsafe, dif_neg hnew]
  exact ⟨_, rfl, rfl⟩

theorem not_mem_of_add {path : JsString} {bytes : Bytes} (h : m.add path bytes = some m') :
    path ∉ m.entries.map Prod.fst := by
  intro hmem
  rw [EntryMap.add, dif_pos hmem, ite_self] at h
  cases h

/-- Two entries that can be added one after the other can be added the other way round. -/
theorem add_add_perm (h : m.entries.Perm m'.entries) {path path' : JsString} {bytes bytes' : Bytes}
    {r : EntryMap} (hr : (m.add path bytes).bind (·.add path' bytes') = some r) :
    ∃ r', (m'.add path' bytes').bind (·.add path bytes) = some r' ∧ r.entries.Perm r'.entries ∧
      r.entries = m.entries ++ [(path, bytes), (path', bytes')] := by
  obtain ⟨m₁, h₁, h₂⟩ := Option.bind_eq_some_iff.mp hr
  obtain ⟨hsafe, hentries⟩ := add_eq_some h₁
  obtain ⟨hsafe', hentries'⟩ := add_eq_some h₂
  have hnew := not_mem_of_add h₁
  have hnew' := not_mem_of_add h₂
  rw [hentries, List.map_append, List.mem_append, not_or] at hnew'
  have hmem : ∀ p, p ∈ m.entries.map Prod.fst ↔ p ∈ m'.entries.map Prod.fst := fun p =>
    (h.map Prod.fst).mem_iff
  obtain ⟨m₂, h₂, hentries₂⟩ := exists_add bytes' hsafe' fun hp => hnew'.1 ((hmem _).mpr hp)
  have hnew₂ : path ∉ m₂.entries.map Prod.fst := by
    rw [hentries₂, List.map_append, List.mem_append, not_or]
    refine ⟨fun hp => hnew ((hmem _).mpr hp), fun hp => hnew'.2 ?_⟩
    simpa [eq_comm] using hp
  obtain ⟨r', hr', hentriesr⟩ := exists_add bytes hsafe hnew₂
  refine ⟨r', by rw [h₂, Option.bind_some, hr'], ?_, by rw [hentries', hentries, List.append_assoc]; rfl⟩
  rw [hentries', hentries, hentriesr, hentries₂, List.append_assoc, List.append_assoc]
  exact h.append (.swap _ _ _)

theorem add_swap (h : SameEntries m m') {path path' : JsString} (hpath : ArchivePath path)
    (hpath' : ArchivePath path') (bytes bytes' : Bytes) :
    Option.Rel SameEntries ((m.add path bytes).bind (·.add path' bytes'))
      ((m'.add path' bytes').bind (·.add path bytes)) := by
  cases hleft : (m.add path bytes).bind (·.add path' bytes') with
  | some r =>
    obtain ⟨r', hr', hperm, hentries⟩ := add_add_perm h.perm hleft
    rw [hr']
    refine .some ⟨hperm, ?_⟩
    intro e he
    rw [hentries, List.mem_append, List.mem_pair] at he
    rcases he with he | rfl | rfl
    · exact h.paths e he
    · exact hpath
    · exact hpath'
  | none =>
    cases hright : (m'.add path' bytes').bind (·.add path bytes) with
    | none => exact .none
    | some r' =>
      obtain ⟨r, hr, -⟩ := add_add_perm h.perm.symm hright
      rw [hr] at hleft
      cases hleft

/-- The path of a blob whose bytes are what it says. -/
def checkedPath (blob : ArchiveBlobInput) : Option JsString :=
  if blob.bytes.length = blob.byteLength ∧ sha256 blob.bytes = blob.sha256 then
    blobArchivePath blob.sha256
  else none

theorem addBlob_eq (m : EntryMap) (blob : ArchiveBlobInput) :
    addBlob m blob = (checkedPath blob).bind fun path => m.add path blob.bytes := by
  rw [addBlob, checkedPath]
  split <;> rfl

theorem archivePath_of_checked {blob : ArchiveBlobInput} {path : JsString}
    (h : checkedPath blob = some path) : ArchivePath path := by
  rw [checkedPath] at h
  split at h
  · rw [blobArchivePath] at h
    split at h
    · rename_i hdigest
      cases h
      exact .blob hdigest
    · cases h
  · cases h

theorem addBlob_same (h : SameEntries m m') (blob : ArchiveBlobInput) :
    Option.Rel SameEntries (addBlob m blob) (addBlob m' blob) := by
  rw [addBlob_eq, addBlob_eq]
  cases hpath : checkedPath blob with
  | none => exact .none
  | some path => exact add_same h (archivePath_of_checked hpath) blob.bytes

theorem addBlob_swap (h : SameEntries m m') (blob blob' : ArchiveBlobInput) :
    Option.Rel SameEntries ((addBlob m blob).bind (addBlob · blob'))
      ((addBlob m' blob').bind (addBlob · blob)) := by
  simp only [addBlob_eq]
  cases hpath : checkedPath blob with
  | none =>
    have hnone : ∀ o : Option EntryMap, (o.bind fun _ => (none : Option EntryMap)) = none := by
      intro o
      cases o <;> rfl
    simp only [Option.bind_none, hnone]
    exact .none
  | some path =>
    cases hpath' : checkedPath blob' with
    | none =>
      simp only [Option.bind_none, Option.bind_some]
      cases m.add path blob.bytes <;> exact .none
    | some path' =>
      exact add_swap h (archivePath_of_checked hpath) (archivePath_of_checked hpath') _ _

/-- The records of every kind, added to the same entries. -/
theorem addRecords_same {localeLe : JsString → JsString → Bool} (hl : LocaleOrder localeLe)
    (hp : Permuted source source') (hd : ∀ kind, DistinctIds localeLe (source.records kind))
    (h : SameEntries m m') (kind : ArchiveRecordKind) :
    Option.Rel SameEntries (addRecords localeLe source m kind)
      (addRecords localeLe source' m' kind) := by
  have hempty : source.records kind = [] ↔ source'.records kind = [] := by
    obtain ⟨moved, hperm, hsame⟩ := hp.records kind
    rw [← List.length_eq_zero_iff, ← List.length_eq_zero_iff, hperm.length_eq, hsame.length_eq]
  rw [addRecords, addRecords, recordLines_permuted hl (hd kind) (hp.records kind)]
  simp only [hempty]
  split
  · exact .some h
  · cases recordLines localeLe (source'.records kind) with
    | none => exact .none
    | some lines => exact add_same h (.records kind) _

/-- The checksum file lists the entries in the order of their paths. -/
theorem checksumText_same (hl : AsciiCollation localeLe) (h : SameEntries m m') :
    checksumText localeLe m.entries = checksumText localeLe m'.entries := by
  have hsort : m.entries.insertionSort (fun a b => localeLe a.1 b.1 = true) =
      m'.entries.insertionSort fun a b => localeLe a.1 b.1 = true := by
    apply insertionSort_perm (fun a b => hl.total a.1 b.1)
      (fun a b c => hl.trans a.1 b.1 c.1) h.perm
    intro a ha b hb hab hba
    exact List.inj_on_of_nodup_map m.nodup ha hb
      ((h.paths a ha).eq_of_le hl (h.paths b hb) hab hba)
  rw [checksumText, checksumText, hsort]

/-- A source and its reordering give the same entries, or no archive. -/
theorem assemble_same (hl : AsciiCollation localeLe)
    (hd : ∀ kind, DistinctIds localeLe (source.records kind))
    (hone : OneLineage (source.records .auditEvents)) (hp : Permuted source source') :
    Option.Rel (fun result result' => SameEntries result.1 result'.1)
      (assembleArchiveEntries localeLe source) (assembleArchiveEntries localeLe source') := by
  have hempty : SameEntries EntryMap.empty EntryMap.empty :=
    ⟨.refl _, fun _ he => absurd he List.not_mem_nil⟩
  have hsorted : (source.blobs.insertionSort fun a b => localeLe a.sha256 b.sha256 = true).Perm
      (source'.blobs.insertionSort fun a b => localeLe a.sha256 b.sha256 = true) :=
    (List.perm_insertionSort _ _).trans (hp.blobs.trans (List.perm_insertionSort _ _).symm)
  rw [assembleArchiveEntries, assembleArchiveEntries, manifest_permuted hp hone]
  apply rel_bind (foldlM_perm (fun _ _ h => h.left) (fun _ _ _ h h' => h.trans h')
    (fun _ _ blob h => addBlob_same h blob) (fun _ _ a b h => addBlob_swap h a b) hsorted hempty)
  intro m m' h
  apply rel_bind (foldlM_rel (fun _ _ kind h => addRecords_same hl.toLocaleOrder hp hd h kind)
    archiveRecordKinds h)
  intro m m' h
  cases canonicalJson (manifestOf source').value with
  | none => exact .none
  | some text =>
    apply rel_bind (add_same h .manifest _)
    intro m m' h
    apply rel_bind (add_same h .readme _)
    intro m m' h
    rw [checksumText_same hl h]
    apply rel_bind (add_same h .checksums _)
    exact fun _ _ h => .some h

/-- The bytes of every entry are the same whatever the order the records, the blobs,
the data sets and the keys came in. -/
theorem assemble_permuted (hl : AsciiCollation localeLe)
    (hd : ∀ kind, DistinctIds localeLe (source.records kind))
    (hone : OneLineage (source.records .auditEvents)) (hp : Permuted source source') :
    (assembleArchiveEntries localeLe source).map (fun result => result.1.get) =
      (assembleArchiveEntries localeLe source').map fun result => result.1.get := by
  have hsame := assemble_same hl hd hone hp
  generalize assembleArchiveEntries localeLe source = result at hsame ⊢
  generalize assembleArchiveEntries localeLe source' = result' at hsame ⊢
  cases hsame with
  | none => rfl
  | some h => exact congrArg some (funext h.get_eq)

end Entries

def sampleEvent (id hash : String) (previous : JsValue) : ArchiveRecord :=
  [(js "id", .string (js id)), (js "eventHash", .string (js hash)),
    (js "previousEventHash", previous)]

def sampleBlob (bytes : Bytes) : ArchiveBlobInput := ⟨sha256 bytes, bytes.length, bytes⟩

/-- Two data sets, two events and two blobs. -/
def sampleSource : ArchiveSource where
  exportId := js "export"
  workspaceId := js "workspace"
  datasetIds := [js "a", js "b"]
  createdAt := js "now"
  createdBy := js "user"
  sourceVersion := js "1"
  records
    | .auditEvents => [sampleEvent "1" "x" .null, sampleEvent "2" "y" (.string (js "x"))]
    | _ => []
  blobs := [sampleBlob [1], sampleBlob [2]]

/-- The same source turned around, the keys of the events too. -/
def turnedSource : ArchiveSource :=
  { sampleSource with
    datasetIds := sampleSource.datasetIds.reverse
    records := fun kind => (sampleSource.records kind).reverse.map List.reverse
    blobs := sampleSource.blobs.reverse }

theorem permuted_turned : Permuted sampleSource turnedSource where
  exportId := rfl
  workspaceId := rfl
  datasetIds := (List.reverse_perm _).symm
  createdAt := rfl
  createdBy := rfl
  sourceVersion := rfl
  records kind := by
    have hkeys : ∀ r ∈ sampleSource.records kind, (r.map Prod.fst).Nodup := by
      cases kind with
      | auditEvents =>
        simp only [sampleSource, sampleEvent, List.forall_mem_cons, List.map_cons, List.map_nil]
        exact ⟨by decide +kernel, by decide +kernel, fun _ h => absurd h List.not_mem_nil⟩
      | _ => exact fun _ h => absurd h List.not_mem_nil
    refine ⟨_, (List.reverse_perm _).symm, ?_⟩
    apply List.forall₂_map_right_iff.mpr
    apply List.forall₂_same.mpr
    intro r hr
    exact .object (hkeys r (List.mem_reverse.mp hr)) (.refl r) (List.reverse_perm r).symm
  blobs := (List.reverse_perm _).symm

theorem distinctIds_sample (kind : ArchiveRecordKind) :
    DistinctIds unitsLe (sampleSource.records kind) := by
  cases kind with
  | auditEvents =>
    have hone : idOf (sampleEvent "1" "x" .null) = .string (js "1") := rfl
    have htwo : idOf (sampleEvent "2" "y" (.string (js "x"))) = .string (js "2") := rfl
    constructor
    · intro r hr
      rcases List.mem_pair.mp hr with rfl | rfl
      · exact ⟨_, hone⟩
      · exact ⟨_, htwo⟩
    · apply List.pairwise_pair.mpr
      intro i j hi hj
      rw [hone] at hi
      rw [htwo] at hj
      cases hi
      cases hj
      decide
  | _ => exact ⟨fun _ h => absurd h List.not_mem_nil, .nil⟩

theorem assemble_permuted_turned :
    (assembleArchiveEntries unitsLe sampleSource).map (fun result => result.1.get) =
      (assembleArchiveEntries unitsLe turnedSource).map fun result => result.1.get :=
  assemble_permuted
    ⟨⟨unitsLe_total, unitsLe_trans⟩, fun a b _ _ hab hba => by rw [unitsLe_antisymm a b hab hba]⟩
    distinctIds_sample ⟨by decide, by decide⟩ permuted_turned

end TrustCore.ArchiveDeterminism
