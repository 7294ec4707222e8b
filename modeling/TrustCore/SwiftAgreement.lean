import TrustCore.SwiftChecksums
import TrustCore.SwiftManifest

/-!
# Archives that both verifiers accept

What the client asks of an unsigned archive beyond what the server has checked: paths without colon
and format characters, a manifest with every field of its type, and a checksum file that ends where
its last path does.
-/

namespace TrustCore.SwiftArchive

open TrustCore.Utf TrustCore.Json TrustCore.Dynamic TrustCore.Sha256
open TrustCore.ArchiveFormat TrustCore.Swift
open TrustCore.ArchiveVerify (ArchiveVerificationLimits VerificationReport verifyArchiveEntries
  verifyArchiveEntriesBase checksumsPath manifestPath isUnsigned parseManifest readChecksum
  readChecksums Passed Listed lineText lines_of_readChecksum)

/-! ## Dictionaries -/

section Dictionary

variable {T : Tables}

theorem same_refl (s : JsString) : T.same s s = true := by rw [Tables.same, beq_self_eq_true]

theorem same_symm {s t : JsString} (h : T.same s t = true) : T.same t s = true := by
  rw [Tables.same, beq_iff_eq] at *
  exact h.symm

theorem same_trans {s t u : JsString} (hs : T.same s t = true) (ht : T.same t u = true) :
    T.same s u = true := by
  rw [Tables.same, beq_iff_eq] at *
  exact hs.trans ht

/-- No two keys are the same string. -/
def Distinct {α : Type} (T : Tables) (d : List (JsString × α)) : Prop :=
  d.Pairwise fun a b => T.same a.1 b.1 = false

variable {α : Type} {d : List (JsString × α)}

theorem eq_of_same (hd : Distinct T d) {a b : JsString × α} (ha : a ∈ d) (hb : b ∈ d)
    (h : T.same a.1 b.1 = true) : a = b := by
  by_contra hne
  have hsymm : Std.Symm fun a b : JsString × α => T.same a.1 b.1 = false := by
    refine ⟨fun a b hab => ?_⟩
    rw [Bool.eq_false_iff] at *
    exact fun hba => hab (same_symm hba)
  have hfalse : T.same a.1 b.1 = false := List.Pairwise.forall hd ha hb hne
  rw [h] at hfalse
  cases hfalse

theorem of_find? {key : JsString} {e : JsString × α}
    (h : d.find? (fun e => T.same e.1 key) = some e) : e ∈ d ∧ T.same e.1 key = true := by
  have hsame := List.find?_some h
  exact ⟨List.mem_of_find?_eq_some h, hsame⟩

theorem value_eq_some (hd : Distinct T d) {key : JsString} {v : α} :
    value T d key = some v ↔ ∃ e ∈ d, T.same e.1 key = true ∧ e.2 = v := by
  rw [value]
  constructor
  · intro h
    obtain ⟨e, he, rfl⟩ := Option.map_eq_some_iff.mp h
    exact ⟨e, (of_find? he).1, (of_find? he).2, rfl⟩
  · rintro ⟨e, he, hsame, rfl⟩
    cases hfind : d.find? fun e => T.same e.1 key with
    | none => exact absurd hsame (List.find?_eq_none.mp hfind e he)
    | some e' =>
      obtain ⟨he', hsame'⟩ := of_find? hfind
      rw [Option.map_some, eq_of_same hd he' he (same_trans hsame' (same_symm hsame))]

theorem value_isSome {key : JsString} :
    (value T d key).isSome = true ↔ ∃ e ∈ d, T.same e.1 key = true := by
  rw [value, Option.isSome_map, List.find?_isSome]

/-- A key that only itself is the same as. -/
theorem value_literal (hT : Documented T) {key : JsString} (hkey : isLiteral key = true) :
    value T d key = d.lookup key := by
  rw [value]
  induction d with
  | nil => rfl
  | cons e d ih =>
    have hsame : T.same e.1 key = (key == e.1) := by
      rw [Bool.eq_iff_iff, same_iff hT hkey, beq_iff_eq, eq_comm]
    rw [List.find?_cons, List.lookup_cons, hsame]
    cases key == e.1 with
    | true => rfl
    | false => exact ih

end Dictionary

theorem textEncode_length {s : JsString} (h : ∀ u ∈ s, u.toNat < 128) :
    (textEncode s).length = s.length := by
  induction s with
  | nil => rfl
  | cons u s ih =>
    rw [List.forall_mem_cons] at h
    have hu : isSurrogate u = false := by
      rw [Bool.eq_false_iff, ne_eq, isSurrogate_iff]
      omega
    have hbyte : encodeScalar u.toNat = [.ofNat u.toNat] := by rw [encodeScalar, if_pos h.1]
    rw [textEncode, scalars_cons u s hu, List.flatMap_cons, hbyte, List.length_append, ← textEncode,
      ih h.2, List.length_singleton, List.length_cons, Nat.add_comm]

/-- A listed digest is compared as it stands. -/
theorem hashVerify_iff {T : Tables} (hT : Documented T) {data : Bytes} {digest : JsString}
    (h : isSha256 digest = true) : hashVerify T data digest = true ↔ sha256 data = digest := by
  have hlength : (textEncode digest).length = 64 := by
    rw [textEncode_length, isSha256_length h]
    intro u hu
    have hdigit := digit_of_sha256 h hu
    omega
  simp only [hashVerify, lowercased_of_sha256 h, hlength, hexDigits_of_sha256 hT h, beq_self_eq_true,
    Bool.true_and, beq_iff_eq]
  constructor
  · exact textEncode_injective (isWellFormed_of_isSha256 (isSha256_sha256 data))
      (isWellFormed_of_isSha256 h)
  · rintro rfl
    rfl

/-! ## What the client asks -/

def linePath (line : JsString) : JsString := line.drop 66

/-- The paths of the checksum file, as the server has them. -/
def listedPaths (text : JsString) : List JsString := (splitAt 10 (trimEnd text)).map linePath

def lastLine (text : JsString) : JsString := (splitAt 10 (trimEnd text)).getLast?.getD []

/-- White space after the last path is another path, of an entry with the same digest that needs no
line, and the last path needs none either. -/
structure Renamed (T : Tables) (entries : EntryMap) (text space : JsString) : Prop where
  safe : isSafeArchivePath T (linePath (lastLine text) ++ space) = true
  exempt : linePath (lastLine text) = checksumsPath ∨
    T.hasPrefix (linePath (lastLine text)) (js "signatures/") = true
  entry : ∃ e ∈ entries.entries, e.1 ∉ listedPaths text ∧
    T.same e.1 (linePath (lastLine text) ++ space) = true ∧ sha256 e.2 = (lastLine text).take 64

/-- What the client asks of the checksum file of a text with this white space after its last line. -/
structure Checked (T : Tables) (entries : EntryMap) (text space : JsString) : Prop where
  starts : ∀ path ∈ listedPaths text, Starts T path
  unlisted : ∀ e ∈ entries.entries, e.1 ∉ listedPaths text → e.1 = checksumsPath ∨
    T.hasPrefix e.1 (js "signatures/") = true ∨
    T.same e.1 (linePath (lastLine text) ++ space) = true
  space : space = [] ∨ Renamed T entries text space

/-- What the client asks of an archive that the server accepts. -/
structure Portable (P : Platform) (entries : EntryMap) : Prop where
  keys : Distinct P.tables entries.entries
  paths : ∀ e ∈ entries.entries,
    js ":" ∉ P.tables.characters e.1 ∧ (scalars e.1).any isControl = false
  manifest : ∃ data members lineage, entries.get manifestPath = some data ∧
    P.jsonValue data = some (.object members) ∧
    field members (js "auditLineage") = .object lineage ∧ Typed members lineage
  checksums : ∃ data text space e, entries.get checksumsPath = some data ∧
    textDecode data = some text ∧ P.utf8String data = some (trimEnd text ++ (space ++ e)) ∧ IsEnd e ∧
    Checked P.tables entries text space

/-- The archive is a dictionary that the client reports valid, with so many checksums. -/
def Verifies (P : Platform) (entries : EntryMap) (checkedEntries : Nat) : Prop :=
  Distinct P.tables entries.entries ∧ (verify P entries).valid = true ∧
    (verify P entries).checkedEntries = checkedEntries

/-- Foundation reads what `TextDecoder` and `JSON.parse` read, but for a byte order mark, where it
reads it. -/
structure Platform.Documented (P : Platform) : Prop where
  tables : Swift.Documented P.tables
  utf8 : ∀ bytes text, textDecode bytes = some text →
    ∃ s, P.utf8String bytes = some s ∧ (s = text ∨ s = 0xFEFF :: text)
  json : ∀ bytes text v w, textDecode bytes = some text → parseJson text = some v →
    P.jsonValue bytes = some w → w = v

/-! ## The checksums of the client -/

/-- What the server has checked of the checksum file. -/
structure Server (entries : EntryMap) (text : JsString) (init : Checksums)
    (last : JsString × JsString) : Prop where
  lines : splitAt 10 (trimEnd text) = (init ++ [last]).map lineText
  listed : ∀ c ∈ init ++ [last], Listed c
  nodup : ((init ++ [last]).map Prod.fst).Nodup
  entry : ∀ c ∈ init ++ [last], ∃ bytes, (c.1, bytes) ∈ entries.entries ∧ sha256 bytes = c.2

theorem linePath_lineText {c : JsString × JsString} (h : Listed c) : linePath (lineText c) = c.1 := by
  have hlength := isSha256_length h.digest
  rw [linePath, lineText, List.drop_append, hlength, List.drop_eq_nil_of_le (by omega)]
  rfl

section Checksums

variable {P : Platform} {entries : EntryMap} {text space : JsString} {init : Checksums}
  {last : JsString × JsString}

theorem listedPaths_eq (h : Server entries text init last) :
    listedPaths text = (init ++ [last]).map Prod.fst := by
  rw [listedPaths, h.lines, List.map_map]
  exact List.map_congr_left fun c hc => linePath_lineText (h.listed c hc)

theorem lastLine_eq (h : Server entries text init last) : lastLine text = lineText last := by
  rw [lastLine, h.lines, List.map_append, List.map_singleton, List.getLast?_concat]
  rfl

theorem lastPath_eq (h : Server entries text init last) : linePath (lastLine text) = last.1 := by
  rw [lastLine_eq h, linePath_lineText (h.listed last (by simp))]

theorem lastDigest_eq (h : Server entries text init last) : (lastLine text).take 64 = last.2 := by
  rw [lastLine_eq h, lineText]
  exact List.take_left' (isSha256_length (h.listed last (by simp)).digest)

theorem checksumIssues_iff {checksums : Checksums} : checksumIssues P entries checksums = [] ↔
    (∀ c ∈ checksums, ∃ data, value P.tables entries.entries c.1 = some data ∧
      hashVerify P.tables data c.2 = true) ∧
    ∀ e ∈ entries.entries, P.tables.same e.1 checksumsPath = true ∨
      P.tables.hasPrefix e.1 (js "signatures/") = true ∨
      (value P.tables checksums e.1).isSome = true := by
  rw [checksumIssues, List.append_eq_nil_iff, List.flatMap_eq_nil_iff, List.flatMap_eq_nil_iff]
  refine and_congr (forall₂_congr fun c _ => ?_) (forall₂_congr fun e _ => ?_)
  · cases value P.tables entries.entries c.1 with
    | none => simp
    | some data => by_cases hhash : hashVerify P.tables data c.2 = true <;> simp [hhash]
  · cases P.tables.same e.1 checksumsPath <;> cases P.tables.hasPrefix e.1 (js "signatures/") <;>
      cases value P.tables checksums e.1 <;> simp

variable (hT : Swift.Documented P.tables)

include hT

theorem same_checksumsPath {s : JsString} :
    P.tables.same s checksumsPath = true ↔ s = checksumsPath := same_iff hT (by decide)

omit hT in
/-- A path of the list is an entry that the client has under it too. -/
theorem same_listed (hkeys : Distinct P.tables entries.entries)
    (hserver : Server entries text init last) {c : JsString × JsString} (hc : c ∈ init ++ [last])
    {e : JsString × Bytes} (he : e ∈ entries.entries) (hsame : P.tables.same c.1 e.1 = true) :
    c.1 = e.1 := by
  obtain ⟨bytes, hentry, -⟩ := hserver.entry c hc
  exact congrArg Prod.fst (eq_of_same hkeys hentry he hsame)

/-- What the client has checked of a list with white space after its last path. -/
theorem checked_of_issues (hkeys : Distinct P.tables entries.entries)
    (hserver : Server entries text init last) (hstarts : ∀ c ∈ init ++ [last], Starts P.tables c.1)
    (hsafe : ∀ c ∈ init ++ [(last.1 ++ space, last.2)], isSafeArchivePath P.tables c.1 = true)
    (hdistinct : Distinct P.tables (init ++ [(last.1 ++ space, last.2)]))
    (hissues : checksumIssues P entries (init ++ [(last.1 ++ space, last.2)]) = []) :
    Checked P.tables entries text space := by
  obtain ⟨hfound, hcovered⟩ := checksumIssues_iff.mp hissues
  have hpaths := listedPaths_eq hserver
  obtain ⟨lastBytes, hlastEntry, hlastDigest⟩ := hserver.entry last (by simp)
  have hinit : ∀ c ∈ init, ∀ e ∈ entries.entries, P.tables.same c.1 e.1 = true → c.1 = e.1 :=
    fun c hc e he hsame => same_listed hkeys hserver (List.mem_append_left _ hc) he hsame
  refine ⟨?_, ?_, ?_⟩
  · intro path hpath
    rw [hpaths] at hpath
    obtain ⟨c, hc, rfl⟩ := List.mem_map.mp hpath
    exact hstarts c hc
  · intro e he hunlisted
    rw [lastPath_eq hserver]
    rcases hcovered e he with hsame | hprefix | hsome
    · exact .inl ((same_checksumsPath hT).mp hsame)
    · exact .inr (.inl hprefix)
    · obtain ⟨c, hc, hsame⟩ := value_isSome.mp hsome
      rcases List.mem_append.mp hc with hc | hc
      · refine absurd ?_ hunlisted
        rw [hpaths, ← hinit c hc e he hsame]
        exact List.mem_map_of_mem (List.mem_append_left _ hc)
      · rw [List.mem_singleton.mp hc] at hsame
        exact .inr (.inr (same_symm hsame))
  · by_cases hspace : space = []
    · exact .inl hspace
    · have hlonger : P.tables.same (last.1 ++ space) last.1 ≠ true := by
        intro hsame
        rw [Tables.same, beq_iff_eq] at hsame
        exact hspace (hT.longer _ _ hsame)
      refine .inr ⟨?_, ?_, ?_⟩
      · rw [lastPath_eq hserver]
        exact hsafe (last.1 ++ space, last.2) (by simp)
      · rw [lastPath_eq hserver]
        rcases hcovered _ hlastEntry with hsame | hprefix | hsome
        · exact .inl ((same_checksumsPath hT).mp hsame)
        · exact .inr hprefix
        · obtain ⟨c, hc, hsame⟩ := value_isSome.mp hsome
          rcases List.mem_append.mp hc with hc | hc
          · have hnodup := hserver.nodup
            rw [List.map_append, List.nodup_append] at hnodup
            exact absurd (hinit c hc _ hlastEntry hsame)
              (hnodup.2.2 c.1 (List.mem_map_of_mem hc) last.1 (by simp))
          · rw [List.mem_singleton.mp hc] at hsame
            exact absurd hsame hlonger
      · obtain ⟨data, hdata, hhash⟩ := hfound (last.1 ++ space, last.2) (by simp)
        obtain ⟨e, he, hsame, rfl⟩ := (value_eq_some hkeys).mp hdata
        rw [hashVerify_iff hT (hserver.listed last (by simp)).digest] at hhash
        rw [lastPath_eq hserver, lastDigest_eq hserver, hpaths]
        refine ⟨e, he, ?_, hsame, hhash⟩
        intro hmem
        obtain ⟨c, hc, hpath⟩ := List.mem_map.mp hmem
        rw [← hpath] at hsame
        rcases List.mem_append.mp hc with hc | hc
        · rw [Distinct, List.pairwise_append] at hdistinct
          rw [hdistinct.2.2 c hc _ (List.mem_singleton_self _)] at hsame
          cases hsame
        · rw [List.mem_singleton.mp hc] at hsame
          exact hlonger (same_symm hsame)

omit hT in
/-- The last path with the white space after it is the same as no earlier path. -/
theorem last_not_same (hkeys : Distinct P.tables entries.entries)
    (hserver : Server entries text init last) (h : Checked P.tables entries text space)
    {c : JsString × JsString} (hc : c ∈ init) :
    P.tables.same c.1 (last.1 ++ space) = false := by
  have hnodup := hserver.nodup
  rw [List.map_append, List.nodup_append] at hnodup
  have hmem : c ∈ init ++ [last] := List.mem_append_left _ hc
  rw [Bool.eq_false_iff]
  intro hsame
  obtain rfl | hrenamed := h.space
  · rw [List.append_nil] at hsame
    obtain ⟨bytes, hentry, -⟩ := hserver.entry last (by simp)
    exact hnodup.2.2 c.1 (List.mem_map_of_mem hc) last.1 (by simp)
      (same_listed hkeys hserver hmem hentry hsame)
  · obtain ⟨e, he, hunlisted, hsame', -⟩ := hrenamed.entry
    rw [lastPath_eq hserver] at hsame'
    refine hunlisted ?_
    rw [listedPaths_eq hserver,
      ← same_listed hkeys hserver hmem he (same_trans hsame (same_symm hsame'))]
    exact List.mem_map_of_mem hmem

omit hT in
theorem distinct_of_checked (hkeys : Distinct P.tables entries.entries)
    (hserver : Server entries text init last) (h : Checked P.tables entries text space) :
    Distinct P.tables (init ++ [(last.1 ++ space, last.2)]) := by
  have hnodup := hserver.nodup
  rw [List.map_append, List.nodup_append] at hnodup
  rw [Distinct, List.pairwise_append]
  refine ⟨?_, List.pairwise_singleton _ _, ?_⟩
  · have hinit : init.Pairwise fun a b => a.1 ≠ b.1 := List.pairwise_map.mp hnodup.1
    refine hinit.imp_of_mem fun {a b} ha hb hne => ?_
    rw [Bool.eq_false_iff]
    intro hsame
    obtain ⟨bytes, hentry, -⟩ := hserver.entry b (List.mem_append_left _ hb)
    exact hne (same_listed hkeys hserver (List.mem_append_left _ ha) hentry hsame)
  · intro c hc c' hc'
    rw [List.mem_singleton.mp hc']
    exact last_not_same hkeys hserver h hc

/-- The client finds no issue in the list of an archive that it may take. -/
theorem issues_of_checked (hkeys : Distinct P.tables entries.entries)
    (hserver : Server entries text init last) (h : Checked P.tables entries text space) :
    checksumIssues P entries (init ++ [(last.1 ++ space, last.2)]) = [] := by
  have hpaths := listedPaths_eq hserver
  have hfound : ∀ c ∈ init ++ [last], ∃ data, value P.tables entries.entries c.1 = some data ∧
      hashVerify P.tables data c.2 = true := by
    intro c hc
    obtain ⟨bytes, hentry, hdigest⟩ := hserver.entry c hc
    refine ⟨bytes, (value_eq_some hkeys).mpr ⟨_, hentry, same_refl _, rfl⟩, ?_⟩
    exact (hashVerify_iff hT (hserver.listed c hc).digest).mpr hdigest
  refine checksumIssues_iff.mpr ⟨?_, ?_⟩
  · intro c hc
    rcases List.mem_append.mp hc with hc | hc
    · exact hfound c (List.mem_append_left _ hc)
    · rw [List.mem_singleton.mp hc]
      obtain rfl | hrenamed := h.space
      · rw [List.append_nil]
        exact hfound last (by simp)
      · obtain ⟨e, he, -, hsame, hdigest⟩ := hrenamed.entry
        rw [lastPath_eq hserver] at hsame
        rw [lastDigest_eq hserver] at hdigest
        refine ⟨e.2, (value_eq_some hkeys).mpr ⟨e, he, hsame, rfl⟩, ?_⟩
        exact (hashVerify_iff hT (hserver.listed last (by simp)).digest).mpr hdigest
  · intro e he
    by_cases hlisted : e.1 ∈ listedPaths text
    · rw [hpaths] at hlisted
      obtain ⟨c, hc, hpath⟩ := List.mem_map.mp hlisted
      rw [← hpath]
      rcases List.mem_append.mp hc with hc | hc
      · exact .inr (.inr (value_isSome.mpr ⟨c, List.mem_append_left _ hc, same_refl _⟩))
      · rw [List.mem_singleton.mp hc]
        obtain rfl | hrenamed := h.space
        · refine .inr (.inr (value_isSome.mpr ⟨(last.1 ++ [], last.2), by simp, ?_⟩))
          rw [List.append_nil]
          exact same_refl _
        · have hexempt := hrenamed.exempt
          rw [lastPath_eq hserver] at hexempt
          exact hexempt.imp (same_checksumsPath hT).mpr .inl
    · have hunlisted := h.unlisted e he hlisted
      rw [lastPath_eq hserver] at hunlisted
      refine hunlisted.imp (same_checksumsPath hT).mpr (Or.imp id fun hsame => ?_)
      exact value_isSome.mpr ⟨(last.1 ++ space, last.2), by simp, same_symm hsame⟩

end Checksums

/-! ## A platform of single units -/

/-- Every unit is a Character, but for a CR-LF pair. -/
def unitCharacters : JsString → List JsString
  | [] => []
  | [u] => [[u]]
  | u :: v :: s =>
    if u = 13 ∧ v = 10 then [13, 10] :: unitCharacters s else [u] :: unitCharacters (v :: s)

def unitTables : Tables := ⟨unitCharacters, id, fun _ => false⟩

def unitPlatform : Platform :=
  { tables := unitTables, utf8String := textDecode
    jsonValue := fun bytes => (textDecode bytes).bind parseJson
    localizedDescription := fun _ => [] }

theorem flatten_unitCharacters (s : JsString) : (unitCharacters s).flatten = s := by
  induction s using unitCharacters.induct with
  | case1 => rfl
  | case2 u => rfl
  | case3 u v s h ih =>
    rw [unitCharacters, if_pos h, List.flatten_cons, ih, h.1, h.2]
    rfl
  | case4 u v s h ih =>
    rw [unitCharacters, if_neg h, List.flatten_cons, ih]
    rfl

theorem unitCharacters_cases {s c : JsString} (h : c ∈ unitCharacters s) :
    c = [13, 10] ∨ ∃ u, c = [u] := by
  induction s using unitCharacters.induct with
  | case1 => cases h
  | case2 u => exact .inr ⟨u, List.mem_singleton.mp h⟩
  | case3 u v s hpair ih =>
    rw [unitCharacters, if_pos hpair, List.mem_cons] at h
    exact h.elim .inl ih
  | case4 u v s hpair ih =>
    rw [unitCharacters, if_neg hpair, List.mem_cons] at h
    exact h.elim (fun hc => .inr ⟨u, hc⟩) ih

/-- Only a CR-LF pair is not divided. -/
theorem unitCharacters_append {s t : JsString} (h : s.getLast? ≠ some 13 ∨ t.head? ≠ some 10) :
    unitCharacters (s ++ t) = unitCharacters s ++ unitCharacters t := by
  induction s using unitCharacters.induct with
  | case1 => rfl
  | case2 u =>
    cases t with
    | nil => rfl
    | cons v t =>
      have hpair : ¬ (u = 13 ∧ v = 10) := by
        rintro ⟨rfl, rfl⟩
        exact h.elim (fun h => h rfl) fun h => h rfl
      rw [List.singleton_append]
      exact if_neg hpair
  | case3 u v s hpair ih =>
    rw [List.cons_append, List.cons_append, unitCharacters, if_pos hpair, unitCharacters,
      if_pos hpair, List.cons_append, ih]
    cases s with
    | nil => exact .inl (by simp)
    | cons w s => simpa only [List.getLast?_cons_cons] using h
  | case4 u v s hpair ih =>
    rw [List.cons_append, List.cons_append, unitCharacters, if_neg hpair, ← List.cons_append, ih,
      unitCharacters, if_neg hpair, List.cons_append]
    simpa only [List.getLast?_cons_cons] using h

theorem unitCharacters_crlf {s : JsString} {a b : List JsString} :
    unitCharacters s ≠ a ++ [13] :: [10] :: b := by
  induction s using unitCharacters.induct generalizing a with
  | case1 => simp [unitCharacters]
  | case2 u => cases a <;> simp [unitCharacters]
  | case3 u v s hpair ih =>
    rw [unitCharacters, if_pos hpair]
    cases a with
    | nil => simp
    | cons c a =>
      intro heq
      exact ih (List.cons.inj heq).2
  | case4 u v s hpair ih =>
    rw [unitCharacters, if_neg hpair]
    intro heq
    cases a with
    | nil =>
      obtain ⟨hu, hrest⟩ := List.cons.inj heq
      have hv : v = 10 := by
        have hflatten := flatten_unitCharacters (v :: s)
        rw [hrest] at hflatten
        exact (List.cons.inj hflatten).1.symm
      exact hpair ⟨(List.cons.inj hu).1, hv⟩
    | cons c a => exact ih (List.cons.inj heq).2

theorem documented_unitTables : Swift.Documented unitTables where
  flatten := flatten_unitCharacters
  nonempty s c hc := by
    obtain rfl | ⟨u, rfl⟩ := unitCharacters_cases hc <;> simp
  boundary s t h := by
    refine unitCharacters_append ?_
    cases h with
    | afterFeed h => exact .inl (by simp [h])
    | beforeFeed _ h => exact .inl h
    | beforeReturn h => exact .inr (by simp [h])
    | printable u h hu _ =>
      refine .inl ?_
      rw [h]
      intro hreturn
      rw [Option.some.inj hreturn] at hu
      cases hu
  joined u t _ h := absurd (fun _ _ => rfl) h
  crlf _ _ _ := unitCharacters_crlf
  ascii _ _ := rfl
  literal _ _ _ h := h
  longer s t h := List.append_right_eq_self.mp h

theorem documented_unitPlatform : unitPlatform.Documented where
  tables := documented_unitTables
  utf8 _ text h := ⟨text, h, .inl rfl⟩
  json bytes text v w htext hjson hread := by
    have hboth : unitPlatform.jsonValue bytes = some v := by
      change (textDecode bytes).bind parseJson = some v
      rw [htext]
      exact hjson
    exact Option.some.inj (hread.symm.trans hboth)

/-! ## Agreement -/

section Agreement

variable {P : Platform} {entries : EntryMap} {limits : ArchiveVerificationLimits}
  {report : VerificationReport}

theorem safe_of_passed (h : Passed entries limits false report) :
    ∀ e ∈ entries.entries, ArchiveFormat.isSafeArchivePath e.1 = true := by
  intro e he
  have hlimited := h.limited
  rw [ArchiveVerify.limitIssues, List.append_eq_nil_iff, List.append_eq_nil_iff,
    List.flatMap_eq_nil_iff] at hlimited
  have hentry := hlimited.1.2 e he
  rw [List.append_eq_nil_iff] at hentry
  by_contra hunsafe
  rw [if_neg hunsafe] at hentry
  cases hentry.1

theorem server_of_passed (h : Passed entries limits false report) :
    ∃ data text init last, entries.get checksumsPath = some data ∧ textDecode data = some text ∧
      Server entries text init last ∧ (readChecksums (some data)).2 = init ++ [last] := by
  have hlisted := h.listed
  have hchecked := h.checked
  cases hdata : entries.get checksumsPath with
  | none =>
    rw [hdata] at hlisted
    cases hlisted
  | some data =>
    rw [hdata] at hlisted hchecked
    cases htext : textDecode data with
    | none =>
      simp only [readChecksums, htext] at hlisted
      cases hlisted
    | some text =>
      have hread : readChecksums (some data) =
          (splitAt 10 (trimEnd text)).foldl readChecksum ([], []) := by
        simp only [readChecksums, htext]
      rw [hread] at hlisted hchecked
      obtain ⟨read, hresult, hlines, hall, hnodup⟩ := lines_of_readChecksum
        (Prod.ext hlisted rfl) List.nodup_nil
      rw [List.nil_append] at hresult
      rw [hresult] at hnodup
      have hchecked : ArchiveVerify.checksumIssues entries read = [] := by
        rw [← hresult]
        exact hchecked
      have hne : read ≠ [] := by
        rintro rfl
        rw [splitAt_eq] at hlines
        exact List.splitOn_ne_nil _ _ hlines
      obtain ⟨init, last, rfl⟩ := (List.eq_nil_or_concat' read).resolve_left hne
      refine ⟨data, text, init, last, rfl, htext, ⟨hlines, hall, hnodup, ?_⟩,
        by rw [hread]; exact hresult⟩
      intro c hc
      obtain ⟨bytes, hget, hdigest⟩ := (ArchiveVerify.checksumIssues_eq_nil hchecked).1 c.1 c.2
        (lookup_of_mem hnodup hc)
      exact ⟨bytes, mem_of_lookup hget, hdigest⟩

theorem manifest_of_passed (h : Passed entries limits false report) :
    ∃ data text members lineage, entries.get manifestPath = some data ∧ textDecode data = some text ∧
      parseJson text = some (.object members) ∧ UnsignedManifest members lineage := by
  have hmanifest := h.manifest
  cases hdata : entries.get manifestPath with
  | none =>
    rw [hdata] at hmanifest
    cases (Prod.mk.inj hmanifest).1
  | some data =>
    rw [hdata, ArchiveVerify.readManifest] at hmanifest
    cases hparse : parseManifest data with
    | none =>
      rw [hparse] at hmanifest
      cases (Prod.mk.inj hmanifest).1
    | some read =>
      rw [hparse, Option.getD_some] at hmanifest
      subst hmanifest
      have hunsigned : ∀ v, report.manifest = some v → isUnsigned v = true := by
        intro v hv
        have hprofile := h.profile
        rw [hv, ArchiveVerify.profileIssues, List.append_eq_nil_iff] at hprofile
        by_contra hsigned
        rw [Bool.not_eq_true] at hsigned
        rw [hsigned] at hprofile
        cases hprofile.1
      obtain ⟨text, members, lineage, htext, hjson, hfacts⟩ :=
        unsigned_of_parseManifest hparse hunsigned
      exact ⟨data, text, members, lineage, rfl, htext, hjson, hfacts⟩

theorem verify_eq {data : Bytes} {s : JsString}
    (hdata : value P.tables entries.entries checksumsPath = some data)
    (hs : P.utf8String data = some s) :
    ((verify P entries).valid = true ↔ pathIssues P entries = [] ∧ (readManifest P entries).1 = [] ∧
      (parseChecksums P.tables s).1 = [] ∧
      checksumIssues P entries (parseChecksums P.tables s).2 = []) ∧
    (verify P entries).checkedEntries = (parseChecksums P.tables s).2.length := by
  have htext : (value P.tables entries.entries checksumsPath).bind P.utf8String = some s := by
    rw [hdata, Option.bind_some, hs]
  rw [verify]
  simp only [htext, List.isEmpty_iff, List.append_eq_nil_iff, and_assoc, and_self]

theorem pathIssues_iff (hT : Swift.Documented P.tables)
    (hsafe : ∀ e ∈ entries.entries, ArchiveFormat.isSafeArchivePath e.1 = true) :
    pathIssues P entries = [] ↔ ∀ e ∈ entries.entries,
      js ":" ∉ P.tables.characters e.1 ∧ (scalars e.1).any isControl = false := by
  rw [pathIssues, List.flatMap_eq_nil_iff]
  refine forall₂_congr fun e he => ?_
  rw [← isSafeArchivePath_iff hT (hsafe e he)]
  by_cases h : isSafeArchivePath P.tables e.1 = true <;> simp [h]

theorem readManifest_iff (hP : P.Documented) {data : Bytes} {text : JsString}
    {members lineage : List (JsString × JsValue)} (hdata : entries.get manifestPath = some data)
    (htext : textDecode data = some text) (hjson : parseJson text = some (.object members))
    (h : UnsignedManifest members lineage) : (readManifest P entries).1 = [] ↔
      P.jsonValue data = some (.object members) ∧ Typed members lineage := by
  have hvalue : value P.tables entries.entries manifestPath = some data := by
    rw [value_literal hP.tables (by decide)]
    exact hdata
  have hread : (readManifest P entries).1 = [] ↔ ∃ m, decodeManifest P data = .ok m := by
    rw [readManifest]
    simp only [hvalue]
    cases decodeManifest P data with
    | ok m => simp
    | error e => simp
  rw [hread]
  constructor
  · rintro ⟨m, hm⟩
    cases hread : P.jsonValue data with
    | none =>
      rw [decodeManifest, hread] at hm
      cases hm
    | some w =>
      obtain rfl := hP.json data text _ w htext hjson hread
      exact ⟨rfl, (decodeManifest_iff h hread).mp ⟨m, hm⟩⟩
  · rintro ⟨hread, htyped⟩
    exact (decodeManifest_iff h hread).mpr htyped

/-- A byte order mark that the client keeps is no checksum line. -/
theorem mark_not_read (hT : Swift.Documented P.tables) {s text : JsString} (hs : s = text ∨
    s = 0xFEFF :: text) (hparse : (parseChecksums P.tables s).1 = []) : s = text := by
  refine hs.resolve_right ?_
  rintro rfl
  obtain ⟨read, -, hread, -, -⟩ := (parseLines_iff hT).mp
    (Prod.ext hparse rfl : parseChecksums P.tables (0xFEFF :: text) = ([], _))
  have hreads : ∀ raw ∈ lines P.tables (0xFEFF :: text),
      ∃ digest path, Reads P.tables raw digest path := by
    intro raw hraw
    obtain ⟨c, -, hc⟩ := (ImportReferences.mem_of_forall₂ hread).1 raw hraw
    exact ⟨_, _, hc⟩
  have hlines := lines_eq hT (return_of_lines hT hreads)
  have hsplit : (0xFEFF :: text).splitOn 10 = (text.splitOn 10).modifyHead ((0xFEFF : UInt16) :: ·) := by
    rw [List.splitOn_cons_eq_if_modifyHead]
    rfl
  obtain ⟨part, parts, hparts⟩ := List.exists_cons_of_ne_nil (List.splitOn_ne_nil (10 : UInt16) text)
  rw [hparts, List.modifyHead_cons] at hsplit
  have hmem : P.tables.characters (0xFEFF :: part) ∈ lines P.tables (0xFEFF :: text) := by
    rw [hlines, hsplit]
    exact List.mem_map_of_mem (List.mem_filter.mpr ⟨List.mem_cons_self, rfl⟩)
  obtain ⟨digest, path, hline⟩ := hreads _ hmem
  obtain ⟨u, rest, hu, hhex⟩ := head_of_reads hT hline (hT.nonempty _)
  rw [hT.flatten] at hu
  rw [← (List.cons.inj hu).1] at hhex
  cases hhex

theorem checkedEntries_eq (h : verifyArchiveEntries entries limits = some report) :
    report.checkedEntries = (readChecksums (entries.get checksumsPath)).2.length := by
  rw [verifyArchiveEntries, verifyArchiveEntriesBase] at h
  obtain ⟨read, -, h⟩ := Option.bind_eq_some_iff.mp h
  obtain ⟨checked, -, h⟩ := Option.bind_eq_some_iff.mp h
  obtain ⟨blobs, -, h⟩ := Option.bind_eq_some_iff.mp h
  cases h
  rfl

/-- The list of the server begins with a digest. -/
theorem head_of_server {text : JsString} {init : Checksums} {last : JsString × JsString}
    (h : Server entries text init last) : ∃ u rest, trimEnd text = u :: rest ∧ u ≠ 0xFEFF := by
  obtain ⟨c, read, hread⟩ := List.exists_cons_of_ne_nil (List.append_ne_nil_of_right_ne_nil init
    (List.cons_ne_nil last []))
  have hlisted := h.listed c (by rw [hread]; exact List.mem_cons_self)
  have hne : c.2 ≠ [] := by
    intro hnil
    have hlength := isSha256_length hlisted.digest
    rw [hnil] at hlength
    cases hlength
  obtain ⟨u, digits, hdigits⟩ := List.exists_cons_of_ne_nil hne
  have hu := digit_of_sha256 hlisted.digest (hdigits ▸ List.mem_cons_self)
  have hlines := h.lines
  rw [splitAt_eq, hread, List.map_cons, lineText, hdigits] at hlines
  have htext : [10].intercalate ((trimEnd text).splitOn 10) = trimEnd text :=
    List.intercalate_splitOn 10
  rw [hlines] at htext
  have hmark : u ≠ 0xFEFF := by
    rintro rfl
    revert hu
    decide
  cases read with
  | nil => exact ⟨u, _, htext.symm.trans (by simp; rfl), hmark⟩
  | cons c' read =>
    rw [List.map_cons, List.intercalate_cons_cons, List.cons_append, List.cons_append,
      List.cons_append] at htext
    exact ⟨u, _, htext.symm, hmark⟩

/-- The client reports an archive that the server accepts valid, with the same number of checksums,
exactly when the archive meets what the client asks beyond the server. -/
theorem verifies_iff_portable (P : Platform) (hP : P.Documented) (entries : EntryMap)
    (limits : ArchiveVerificationLimits) (report : VerificationReport)
    (h : verifyArchiveEntries entries limits = some report) (hvalid : report.valid = true) :
    Verifies P entries report.checkedEntries ↔ Portable P entries := by
  have hT := hP.tables
  have hpassed := ArchiveVerify.passed_of_issues h (ArchiveVerify.issues_of_valid h hvalid)
  obtain ⟨data, text, init, last, hdata, htext, hserver, hread⟩ := server_of_passed hpassed
  obtain ⟨manifestData, manifestText, members, lineage, hmanifestData, hmanifestText, hjson,
    hmanifest⟩ := manifest_of_passed hpassed
  have hsafe := safe_of_passed hpassed
  have hcount : report.checkedEntries = (init ++ [last]).length := by
    rw [checkedEntries_eq h, hdata]
    exact congrArg List.length hread
  have hvalue : value P.tables entries.entries checksumsPath = some data := by
    rw [value_literal hT (by decide)]
    exact hdata
  obtain ⟨s, hs, hmark⟩ := hP.utf8 data text htext
  obtain ⟨hverify, hlength⟩ := verify_eq hvalue hs
  rw [pathIssues_iff hT hsafe, readManifest_iff hP hmanifestData hmanifestText hjson hmanifest]
    at hverify
  obtain ⟨tail, htail, hspaces⟩ := trimEnd_append text
  have hlines : (trimEnd text).splitOn 10 = (init ++ [last]).map lineText := by
    rw [← splitAt_eq, hserver.lines]
  constructor
  · rintro ⟨hkeys, hvalidClient, -⟩
    obtain ⟨hpaths, ⟨hjsonValue, htyped⟩, hparse, hissues⟩ := hverify.mp hvalidClient
    obtain rfl := mark_not_read hT hmark hparse
    have hparsed : parseChecksums P.tables (trimEnd s ++ tail) =
        ([], (parseChecksums P.tables s).2) := by
      rw [← htail]
      exact Prod.ext hparse rfl
    obtain ⟨space, e, rfl, hend, hresult, hstarts, hsafeAll, hdistinct⟩ :=
      tail_of_parse hT hserver.listed hlines hspaces hparsed
    rw [hresult] at hissues hsafeAll hdistinct
    refine ⟨hkeys, hpaths, ?_, ?_⟩
    · exact ⟨manifestData, members, lineage, hmanifestData, hjsonValue, hmanifest.auditLineage,
        htyped⟩
    · refine ⟨data, s, space, e, hdata, htext, by rw [hs, ← htail], hend, ?_⟩
      exact checked_of_issues hT hkeys hserver hstarts hsafeAll hdistinct hissues
  · rintro ⟨hkeys, hpaths, hmanifestRead, hchecksums⟩
    obtain ⟨data', text', space, e, hdata', htext', hs', hend, hchecked⟩ := hchecksums
    rw [hdata, Option.some.injEq] at hdata'
    subst hdata'
    rw [htext, Option.some.injEq] at htext'
    subst htext'
    rw [hs, Option.some.injEq] at hs'
    subst hs'
    have hsame : trimEnd text ++ (space ++ e) = text := by
      refine hmark.resolve_right fun hmarked => ?_
      obtain ⟨u, rest, hu, hne⟩ := head_of_server hserver
      rw [hu] at hmarked
      exact hne (List.cons.inj hmarked).1
    have htails : tail = space ++ e := List.append_cancel_left (htail.symm.trans hsame.symm)
    have hspace : ∀ u ∈ space, isStrWhiteSpace u = true := fun u hu =>
      hspaces u (htails ▸ List.mem_append_left _ hu)
    have hsafeEntry : ∀ c ∈ init ++ [last], isSafeArchivePath P.tables c.1 = true := by
      intro c hc
      obtain ⟨bytes, hentry, -⟩ := hserver.entry c hc
      exact (isSafeArchivePath_iff hT (hsafe _ hentry)).mpr (hpaths _ hentry)
    have hsafeAll : ∀ c ∈ init ++ [(last.1 ++ space, last.2)],
        isSafeArchivePath P.tables c.1 = true := by
      intro c hc
      rcases List.mem_append.mp hc with hc | hc
      · exact hsafeEntry c (List.mem_append_left _ hc)
      · rw [List.mem_singleton.mp hc]
        obtain rfl | hrenamed := hchecked.space
        · rw [List.append_nil]
          exact hsafeEntry last (by simp)
        · have hrenamedSafe := hrenamed.safe
          rwa [lastPath_eq hserver] at hrenamedSafe
    have hstarts : ∀ c ∈ init ++ [last], Starts P.tables c.1 := by
      intro c hc
      refine hchecked.starts c.1 ?_
      rw [listedPaths_eq hserver]
      exact List.mem_map_of_mem hc
    have hparse := parse_of_tail hT hserver.listed hlines hspace hend hstarts hsafeAll
      (distinct_of_checked hkeys hserver hchecked)
    obtain ⟨manifestData', members', lineage', hmanifestData', hjsonValue, hlineage, htyped⟩ :=
      hmanifestRead
    rw [hmanifestData, Option.some.injEq] at hmanifestData'
    subst hmanifestData'
    obtain rfl := JsValue.object.inj (hP.json _ _ _ _ hmanifestText hjson hjsonValue)
    obtain rfl := JsValue.object.inj (hmanifest.auditLineage.symm.trans hlineage)
    rw [hparse] at hverify hlength
    refine ⟨hkeys, hverify.mpr ⟨hpaths, ⟨hjsonValue, htyped⟩, rfl, ?_⟩, ?_⟩
    · exact issues_of_checked hT hkeys hserver hchecked
    · rw [hlength, hcount]
      simp

/-- The bare archive is one that the client verifies too. -/
theorem verifies_iff_portable_sample : Portable unitPlatform ArchiveVerify.bareEntries := by
  have hreport : (verifyArchiveEntries ArchiveVerify.bareEntries ArchiveVerify.defaults).map
      (fun report => (report.valid, report.checkedEntries)) = some (true, 1) := by
    decide +kernel
  have hverifies : Verifies unitPlatform ArchiveVerify.bareEntries 1 := by
    unfold Verifies Distinct
    decide +kernel
  obtain ⟨report, hreport, heq⟩ := Option.map_eq_some_iff.mp hreport
  obtain ⟨hvalid, hcount⟩ := Prod.mk.inj heq
  refine (verifies_iff_portable unitPlatform documented_unitPlatform ArchiveVerify.bareEntries
    ArchiveVerify.defaults report hreport hvalid).mp ?_
  rw [hcount]
  exact hverifies

/-- An archive with a colon in a path below its top directory. -/
def colonEntries : EntryMap :=
  let entries := (EntryMap.empty.set manifestPath
    (textEncode ((canonicalJson ArchiveVerify.emptyManifest.value).getD [] ++ [10]))).set
      (js "notes/a:b") []
  entries.set checksumsPath (ArchiveAssemble.checksumFile unitsLe entries)

/-- The server accepts the colon, and the client refuses it. -/
theorem colon_refused : (verifyArchiveEntries colonEntries ArchiveVerify.defaults).map
      (fun report => report.valid) = some true ∧
    Distinct unitTables colonEntries.entries ∧ (verify unitPlatform colonEntries).valid = false := by
  refine ⟨?_, ?_, ?_⟩
  · decide +kernel
  · unfold Distinct
    decide +kernel
  · decide +kernel

end Agreement

end TrustCore.SwiftArchive
