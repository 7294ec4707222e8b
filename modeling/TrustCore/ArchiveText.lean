import TrustCore.ArchiveBinding
import TrustCore.ChecksumLines
import TrustCore.ImportReferences

/-!
# The text files of an archive

The record files and the checksum file are lines that the writer joins and the
reader splits. Both ends agree as long as no line has a line feed and the last
one does not end in white space.
-/

namespace TrustCore.ArchiveAssemble

open TrustCore.Utf TrustCore.Json TrustCore.Dynamic TrustCore.Sha256 TrustCore.ArchiveFormat
open TrustCore.ImportPlan TrustCore.ArchiveVerify

theorem mapM_of_forall {α β : Type} {f : α → Option β} {g : α → β} {xs : List α}
    (h : ∀ x ∈ xs, f x = some (g x)) : xs.mapM f = some (xs.map g) := by
  induction xs with
  | nil => rfl
  | cons x xs ih =>
    rw [List.mapM_cons, h x List.mem_cons_self, ih fun y hy => h y (List.mem_cons_of_mem _ hy)]
    rfl

theorem exists_mapM {α β : Type} {f : α → Option β} {xs : List α} (h : ∀ x ∈ xs, ∃ y, f x = some y) :
    ∃ ys, xs.mapM f = some ys := by
  induction xs with
  | nil => exact ⟨[], rfl⟩
  | cons x xs ih =>
    obtain ⟨y, hy⟩ := h x List.mem_cons_self
    obtain ⟨ys, hys⟩ := ih fun x hx => h x (List.mem_cons_of_mem _ hx)
    exact ⟨y :: ys, by rw [List.mapM_cons, hy, hys]; rfl⟩

theorem joinLines_cons {line : JsString} {lines : List JsString} (h : lines ≠ []) :
    joinLines (line :: lines) = line ++ 10 :: joinLines lines := by
  cases lines with
  | nil => exact absurd rfl h
  | cons line' lines => rfl

theorem splitAt_joinLines {lines : List JsString} (hne : lines ≠ [])
    (h : ∀ line ∈ lines, ∀ u ∈ line, u ≠ 10) : splitAt 10 (joinLines lines) = lines := by
  induction lines with
  | nil => exact absurd rfl hne
  | cons line lines ih =>
    have hline := h line List.mem_cons_self
    cases lines with
    | nil => exact splitAt_last line hline
    | cons line' lines =>
      rw [joinLines_cons (List.cons_ne_nil _ _), splitAt_append line _ hline,
        ih (List.cons_ne_nil _ _) fun l hl => h l (List.mem_cons_of_mem _ hl)]

/-- The text ends in a unit that `trimEnd` leaves. -/
def EndsVisible (s : JsString) : Prop := ∃ t u, s = t ++ [u] ∧ isStrWhiteSpace u = false

theorem endsVisible_append {s t : JsString} (h : EndsVisible t) : EndsVisible (s ++ t) := by
  obtain ⟨t', u, rfl, hu⟩ := h
  exact ⟨s ++ t', u, by rw [List.append_assoc], hu⟩

theorem endsVisible_joinLines {lines : List JsString}
    (h : ∃ line ∈ lines.getLast?, EndsVisible line) : EndsVisible (joinLines lines) := by
  induction lines with
  | nil => simp at h
  | cons line lines ih =>
    cases lines with
    | nil => simpa [joinLines] using h
    | cons line' lines =>
      rw [List.getLast?_cons_cons] at h
      rw [joinLines_cons (List.cons_ne_nil _ _)]
      apply endsVisible_append
      exact @endsVisible_append [10] _ (ih h)

theorem trimEnd_newline {s : JsString} (h : EndsVisible s) : trimEnd (s ++ [10]) = s := by
  obtain ⟨t, u, rfl, hu⟩ := h
  have hfeed : isStrWhiteSpace 10 = true := by decide
  rw [trimEnd, List.reverse_append, List.reverse_append]
  simp only [List.reverse_cons, List.reverse_nil, List.nil_append, List.cons_append,
    List.dropWhile_cons, hfeed, hu, if_true]
  simp

theorem isWellFormed_joinLines {lines : List JsString}
    (h : ∀ line ∈ lines, isWellFormed line = true) : isWellFormed (joinLines lines) = true := by
  induction lines with
  | nil => rfl
  | cons line lines ih =>
    cases lines with
    | nil => exact h line List.mem_cons_self
    | cons line' lines =>
      rw [joinLines_cons (List.cons_ne_nil _ _)]
      apply isWellFormed_append _ _ (h line List.mem_cons_self)
      rw [isWellFormed_cons_ascii _ _ (by decide)]
      exact ih fun l hl => h l (List.mem_cons_of_mem _ hl)

theorem head_joinLines {line : JsString} {lines : List JsString} (h : line ≠ []) (rest : JsString) :
    (joinLines (line :: lines) ++ rest).head? = line.head? := by
  cases line with
  | nil => exact absurd rfl h
  | cons u line => cases lines <;> rfl

/-- What the reader makes of lines that it may split. -/
theorem lines_of_text {line : JsString} {lines : List JsString} (hne : line ≠ [])
    (hfeed : ∀ l ∈ line :: lines, ∀ u ∈ l, u ≠ 10)
    (hend : ∃ l ∈ (line :: lines).getLast?, EndsVisible l)
    (hwell : ∀ l ∈ line :: lines, isWellFormed l = true) (hmark : line.head? ≠ some 0xFEFF) :
    ∃ text, textDecode (textEncode (joinLines (line :: lines) ++ [10])) = some text ∧
      splitAt 10 (trimEnd text) = line :: lines := by
  refine ⟨joinLines (line :: lines) ++ [10], ?_, ?_⟩
  · apply textDecode_textEncode
    · exact isWellFormed_append _ _ (isWellFormed_joinLines hwell) rfl
    · rw [head_joinLines hne]
      exact hmark
  · rw [trimEnd_newline (endsVisible_joinLines hend), splitAt_joinLines (List.cons_ne_nil _ _) hfeed]

section Records

/-- The canonical text of a JSON object stands on one line. -/
theorem record_line {r : ArchiveRecord} (h : isJson (.object r) = true) :
    ∃ t, canonicalJson (.object r) = some t ∧ (∀ u ∈ t, u ≠ 10) ∧ EndsVisible t ∧
      isWellFormed t = true ∧ t.head? = some 123 ∧
      parseJson t = some (sortKeys canonicalEncoder (.object r)) := by
  obtain ⟨t, ht, hwell, hparse⟩ := parseJson_encode canonicalEncoder (.object r) h
  have hcontrol := encode_noControl (E := canonicalEncoder) rfl rfl _ _ ht
  obtain ⟨ts, -, hshape⟩ := Option.map_eq_some_iff.mp ht
  have hend : EndsVisible t := by
    refine ⟨123 :: joinComma ((sortByKey canonicalEncoder ts).map memberText), 125, ?_, by decide⟩
    rw [← hshape, List.cons_append]
  refine ⟨t, ht, ?_, hend, hwell, by rw [← hshape]; rfl, hparse⟩
  intro u hu hten
  have hle := hcontrol u hu
  rw [hten] at hle
  revert hle
  decide

theorem forall₂_lines {records : List ArchiveRecord}
    (h : ∀ r ∈ records, isJson (.object r) = true) {lines : List JsString}
    (hlines : (records.mapM fun record => canonicalJson (.object record)) = some lines) :
    (∀ l ∈ lines, (∀ u ∈ l, u ≠ 10) ∧ EndsVisible l ∧ isWellFormed l = true ∧
      l.head? = some 123) ∧
    lines.mapM parseJson =
      some (records.map fun r => sortKeys canonicalEncoder (.object r)) := by
  induction records generalizing lines with
  | nil =>
    cases hlines
    simp
  | cons r records ih =>
    rw [List.mapM_cons] at hlines
    obtain ⟨t, ht, hlines⟩ := Option.bind_eq_some_iff.mp hlines
    obtain ⟨ts, hts, hlines⟩ := Option.bind_eq_some_iff.mp hlines
    cases hlines
    obtain ⟨t', ht', hfeed, hend, hwell, hhead, hparse⟩ := record_line (h r List.mem_cons_self)
    rw [ht, Option.some.injEq] at ht'
    subst ht'
    obtain ⟨hrest, hparsed⟩ := ih (fun r' hr' => h r' (List.mem_cons_of_mem _ hr')) hts
    constructor
    · intro l hl
      rcases List.mem_cons.mp hl with rfl | hl
      · exact ⟨hfeed, hend, hwell, hhead⟩
      · exact hrest l hl
    · rw [List.mapM_cons, hparse, hparsed]
      rfl

theorem sortedRecords_perm {localeLe : JsString → JsString → Bool} {records sorted : List ArchiveRecord}
    (h : sortedRecords localeLe records = some sorted) : sorted.Perm records := by
  obtain ⟨ids, hids, h⟩ := Option.bind_eq_some_iff.mp h
  cases h
  have hlen : ids.length = records.length := (ImportReferences.mapM_eq_some hids).length_eq.symm
  have hperm := (List.perm_insertionSort
    (fun a b : JsString × ArchiveRecord => localeLe a.1 b.1 = true) (ids.zip records)).map Prod.snd
  rwa [List.map_snd_zip (by omega)] at hperm

end Records

section Checksums

/-- A path of the archive writer: printable ASCII, without a space. -/
def PlainPath (path : JsString) : Prop :=
  isSafeArchivePath path = true ∧ ∀ u ∈ path, 32 < u.toNat ∧ u.toNat < 127

instance (path : JsString) : Decidable (PlainPath path) := by
  unfold PlainPath
  infer_instance

theorem visible_of_plain {u : UInt16} (h : 32 < u.toNat ∧ u.toNat < 127) :
    isStrWhiteSpace u = false ∧ isLineTerminator u = false ∧ u ≠ 10 := by
  have hne : ∀ v : UInt16, (v.toNat ≤ 32 ∨ 127 ≤ v.toNat) → u ≠ v := by
    intro v hv huv
    rw [huv] at h
    omega
  refine ⟨?_, ?_, hne 10 (by decide)⟩
  · simp only [isStrWhiteSpace, Bool.or_eq_false_iff, beq_eq_false_iff_ne, decide_eq_false_iff_not]
    exact ⟨⟨⟨⟨⟨⟨⟨⟨⟨⟨by omega, hne _ (by decide)⟩, hne _ (by decide)⟩, hne _ (by decide)⟩, by omega⟩,
      hne _ (by decide)⟩, hne _ (by decide)⟩, hne _ (by decide)⟩, hne _ (by decide)⟩,
      hne _ (by decide)⟩, hne _ (by decide)⟩
  · simp only [isLineTerminator, Bool.or_eq_false_iff, beq_eq_false_iff_ne]
    exact ⟨⟨⟨hne _ (by decide), hne _ (by decide)⟩, hne _ (by decide)⟩, hne _ (by decide)⟩

/-- One line of the checksum file. -/
def lineOf (entry : JsString × Bytes) : JsString := sha256 entry.2 ++ js "  " ++ entry.1

theorem lineOf_eq (entry : JsString × Bytes) : lineOf entry = lineText (entry.1, sha256 entry.2) := by
  rw [lineOf, List.append_assoc]
  rfl

theorem plain_isLowerHex {u : UInt16} (h : isLowerHex u = true) : 32 < u.toNat ∧ u.toNat < 127 := by
  unfold isLowerHex at h
  simp only [decide_eq_true_eq] at h
  omega

theorem nameable_of_plain {path : JsString} (h : PlainPath path) : Nameable path where
  safe := h.1
  terminators u hu := (visible_of_plain (h.2 u hu)).2.1
  wellFormed := isWellFormed_ascii _ fun u hu => by
    have := h.2 u hu
    omega

theorem endsVisible_of_plain {path : JsString} (h : PlainPath path) : EndsVisible path := by
  obtain ⟨t, u, ht⟩ := (List.eq_nil_or_concat' path).resolve_left (nameable_of_plain h).nonempty
  refine ⟨t, u, ht, (visible_of_plain (h.2 u ?_)).1⟩
  rw [ht]
  simp

theorem endsVisible_lineOf {entry : JsString × Bytes} (h : EndsVisible entry.1) :
    EndsVisible (lineOf entry) := endsVisible_append h

theorem lineOf_fits {entry : JsString × Bytes} (h : Nameable entry.1) :
    (∀ u ∈ lineOf entry, u ≠ 10) ∧ isWellFormed (lineOf entry) = true ∧ lineOf entry ≠ [] ∧
      (lineOf entry).head? ≠ some 0xFEFF := by
  have hdigest : ∀ u ∈ sha256 entry.2, 32 < u.toNat ∧ u.toNat < 127 := fun u hu =>
    plain_isLowerHex (isSha256_isLowerHex (isSha256_sha256 entry.2) u hu)
  have hne : sha256 entry.2 ≠ [] := by
    have hlen := isSha256_length (isSha256_sha256 entry.2)
    intro hnil
    rw [hnil] at hlen
    cases hlen
  refine ⟨?_, ?_, ?_, ?_⟩
  · intro u hu hten
    rw [lineOf, List.mem_append, List.mem_append] at hu
    rcases hu with (hu | hu) | hu
    · have := hdigest u hu
      rw [hten] at this
      revert this
      decide
    · rw [hten] at hu
      revert hu
      decide
    · have := h.terminators u hu
      rw [hten] at this
      cases this
  · rw [lineOf]
    apply isWellFormed_append _ _ _ h.wellFormed
    apply isWellFormed_append _ _ _ rfl
    exact isWellFormed_of_isSha256 (isSha256_sha256 entry.2)
  · simp [lineOf, hne]
  · rw [lineOf, List.append_assoc, List.head?_append_of_ne_nil _ hne]
    intro hhead
    have := hdigest 0xFEFF (List.mem_of_mem_head? hhead)
    revert this
    decide

/-- The digests of entries, in the order of the checksum file. -/
def digests (localeLe : JsString → JsString → Bool) (es : List (JsString × Bytes)) : Checksums :=
  (es.insertionSort fun a b => localeLe a.1 b.1 = true).map fun e => (e.1, sha256 e.2)

/-- The checksum file lists its entries, when no white space ends its text. -/
theorem readChecksums_entries (localeLe : JsString → JsString → Bool)
    {es : List (JsString × Bytes)} (hn : (es.map Prod.fst).Nodup) (hpaths : ∀ e ∈ es, Nameable e.1)
    (hlast : ∃ e ∈ (es.insertionSort fun a b => localeLe a.1 b.1 = true).getLast?,
      EndsVisible e.1) :
    readChecksums (some (textEncode (checksumText localeLe es ++ [10]))) =
      ([], digests localeLe es) := by
  have hperm := List.perm_insertionSort
    (fun a b : JsString × Bytes => localeLe a.1 b.1 = true) es
  cases hsorted : es.insertionSort fun a b => localeLe a.1 b.1 = true with
  | nil => simp [hsorted] at hlast
  | cons e rest =>
    rw [hsorted] at hperm hlast
    have hpaths' : ∀ e' ∈ e :: rest, Nameable e'.1 := fun e' he' => hpaths e' (hperm.mem_iff.mp he')
    have hline : ∀ l ∈ lineOf e :: rest.map lineOf, ∃ e' ∈ e :: rest, lineOf e' = l := fun l hl =>
      List.mem_map.mp hl
    obtain ⟨hfeed, hwell, hne, hmark⟩ := lineOf_fits (hpaths' e List.mem_cons_self)
    obtain ⟨text, htext, hlines⟩ := @lines_of_text (lineOf e) (rest.map lineOf) hne
      (fun l hl => by
        obtain ⟨e', he', rfl⟩ := hline l hl
        exact (lineOf_fits (hpaths' e' he')).1)
      (by
        obtain ⟨e', he', hend⟩ := hlast
        refine ⟨lineOf e', ?_, endsVisible_lineOf hend⟩
        rw [← List.map_cons, List.getLast?_map, Option.mem_def.mp he']
        rfl)
      (fun l hl => by
        obtain ⟨e', he', rfl⟩ := hline l hl
        exact (lineOf_fits (hpaths' e' he')).2.1)
      hmark
    have hjoin : checksumText localeLe es = joinLines (lineOf e :: rest.map lineOf) := by
      rw [checksumText, hsorted]
      rfl
    have hdigests : digests localeLe es = (e :: rest).map fun e => (e.1, sha256 e.2) := by
      rw [digests, hsorted]
    have htexts : lineOf e :: rest.map lineOf = (digests localeLe es).map lineText := by
      rw [hdigests, List.map_map, ← List.map_cons]
      exact List.map_congr_left fun e' _ => lineOf_eq e'
    have hn' : ((digests localeLe es).map Prod.fst).Nodup := by
      rw [hdigests, List.map_map]
      exact (hperm.map Prod.fst).nodup_iff.mpr hn
    have hlisted : ∀ c ∈ digests localeLe es, Listed c := by
      intro c hc
      rw [hdigests] at hc
      obtain ⟨e', he', rfl⟩ := List.mem_map.mp hc
      exact (hpaths' e' he').listed e'.2
    simp only [readChecksums, hjoin, htext, hlines]
    rw [htexts, foldl_readChecksum _ [] (by rwa [List.nil_append]) hlisted, List.nil_append]

theorem readChecksums_checksumText (localeLe : JsString → JsString → Bool)
    {es : List (JsString × Bytes)} (hne : es ≠ []) (hn : (es.map Prod.fst).Nodup)
    (hplain : ∀ e ∈ es, PlainPath e.1) :
    readChecksums (some (textEncode (checksumText localeLe es ++ [10]))) =
      ([], digests localeLe es) := by
  have hperm := List.perm_insertionSort
    (fun a b : JsString × Bytes => localeLe a.1 b.1 = true) es
  have hsorted : es.insertionSort (fun a b => localeLe a.1 b.1 = true) ≠ [] := fun hnil =>
    hne (by rwa [hnil, List.nil_perm] at hperm)
  apply readChecksums_entries localeLe hn fun e he => nameable_of_plain (hplain e he)
  refine ⟨_, List.getLast?_eq_some_getLast hsorted, endsVisible_of_plain (hplain _ ?_)⟩
  exact hperm.mem_iff.mp (List.getLast_mem hsorted)

end Checksums

end TrustCore.ArchiveAssemble
