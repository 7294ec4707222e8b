import TrustCore.ArchiveVerify
import TrustCore.JsonRoundTrip

/-!
# The lines of the checksum file

A checksum file that is read without an issue is the lines of its list, and the lines of a list of
distinct safe paths are read back as that list.
-/

namespace TrustCore.ArchiveVerify

open TrustCore.Utf TrustCore.Json TrustCore.Dynamic TrustCore.Sha256 TrustCore.ArchiveFormat

/-- The line of a path and its digest. -/
def lineText (c : JsString × JsString) : JsString := c.2 ++ 32 :: 32 :: c.1

/-- What `readChecksums` takes into its map. -/
structure Listed (c : JsString × JsString) : Prop where
  digest : isSha256 c.2 = true
  nonempty : c.1 ≠ []
  terminators : ∀ u ∈ c.1, isLineTerminator u = false
  safe : isSafeArchivePath c.1 = true

theorem checksumLine_eq_some {line digest path : JsString}
    (h : checksumLine line = some (digest, path)) :
    line = lineText (path, digest) ∧ isSha256 digest = true ∧ path ≠ [] ∧
      ∀ u ∈ path, isLineTerminator u = false := by
  rw [checksumLine] at h
  split at h
  · rename_i rest hdrop
    split at h
    · rename_i hline
      simp only [Bool.and_eq_true, bne_iff_ne, List.all_eq_true, Bool.not_eq_true'] at hline
      obtain ⟨⟨hdigest, hne⟩, hterminators⟩ := hline
      obtain ⟨rfl, rfl⟩ := Prod.mk.inj (Option.some.inj h)
      refine ⟨?_, hdigest, hne, hterminators⟩
      rw [lineText, ← hdrop, List.take_append_drop]
    · cases h
  · cases h

theorem readChecksum_issues (state : List ArchiveIssue × Checksums) (lines : List JsString)
    (h : (lines.foldl readChecksum state).1 = []) : state.1 = [] := by
  induction lines generalizing state with
  | nil => exact h
  | cons line lines ih =>
    have hstep := ih _ h
    rw [readChecksum] at hstep
    split at hstep
    · exact (List.append_eq_nil_iff.mp hstep).1
    · split at hstep
      · exact (List.append_eq_nil_iff.mp hstep).1
      · exact (List.append_eq_nil_iff.mp hstep).1

/-- A line without an issue is added at the end. -/
theorem readChecksum_eq {sums : Checksums} {line : JsString}
    (h : (readChecksum ([], sums) line).1 = []) :
    ∃ c, Listed c ∧ line = lineText c ∧ c.1 ∉ sums.map Prod.fst ∧
      readChecksum ([], sums) line = ([], sums ++ [c]) := by
  rw [readChecksum] at h
  cases hline : checksumLine line with
  | none =>
    rw [hline] at h
    cases h
  | some c =>
    obtain ⟨digest, path⟩ := c
    rw [hline] at h
    simp only at h
    split at h
    · rename_i hsafe
      rw [List.nil_append] at h
      obtain ⟨htext, hdigest, hne, hterminators⟩ := checksumLine_eq_some hline
      have hnone : (sums.lookup path).isSome = false := by
        rw [Bool.eq_false_iff]
        intro hsome
        rw [if_pos hsome] at h
        cases h
      have hnew : path ∉ sums.map Prod.fst := by
        intro hmem
        obtain ⟨c, hc, rfl⟩ := List.mem_map.mp hmem
        rw [Option.isSome_eq_false_iff, Option.isNone_iff_eq_none, List.lookup_eq_none_iff] at hnone
        simpa using hnone c hc
      refine ⟨(path, digest), ⟨hdigest, hne, hterminators, hsafe⟩, htext, hnew, ?_⟩
      rw [readChecksum, hline]
      simp only [hsafe, if_true, hnone, Bool.false_eq_true, if_false, List.append_nil]
      rw [setMember_fresh path digest sums hnew]
    · cases h

/-- The lines of a list without an issue. -/
theorem lines_of_readChecksum {lines : List JsString} {sums result : Checksums}
    (h : lines.foldl readChecksum ([], sums) = ([], result)) (hn : (sums.map Prod.fst).Nodup) :
    ∃ read : Checksums, result = sums ++ read ∧ lines = read.map lineText ∧ (∀ c ∈ read, Listed c) ∧
      (result.map Prod.fst).Nodup := by
  induction lines generalizing sums with
  | nil =>
    obtain rfl := (Prod.mk.inj h).2
    exact ⟨[], by simp, rfl, by simp, hn⟩
  | cons line lines ih =>
    rw [List.foldl_cons] at h
    have hissues := readChecksum_issues _ lines (by rw [h])
    obtain ⟨c, hlisted, hline, hnew, heq⟩ := readChecksum_eq hissues
    rw [heq] at h
    have hnodup : ((sums ++ [c]).map Prod.fst).Nodup := by
      rw [List.map_append, List.map_singleton, ← List.concat_eq_append]
      exact hn.concat hnew
    obtain ⟨read, hresult, hlines, hread, hpaths⟩ := ih h hnodup
    refine ⟨c :: read, by rw [hresult]; simp, by rw [hline, hlines]; rfl, ?_, hpaths⟩
    rw [List.forall_mem_cons]
    exact ⟨hlisted, hread⟩

theorem checksumLine_lineText {c : JsString × JsString} (h : Listed c) :
    checksumLine (lineText c) = some (c.2, c.1) := by
  have hlen := isSha256_length h.digest
  have htake : (lineText c).take 64 = c.2 := by
    rw [lineText, List.take_append_of_le_length (by omega), ← hlen, List.take_length]
  have hdrop : (lineText c).drop 64 = 32 :: 32 :: c.1 := by
    rw [lineText, ← hlen, List.drop_left]
  have hall : c.1.all (fun u => !isLineTerminator u) = true := by
    rw [List.all_eq_true]
    intro u hu
    rw [h.terminators u hu]
    rfl
  have hne : (c.1 != []) = true := bne_iff_ne.mpr h.nonempty
  simp only [checksumLine, hdrop, htake, h.digest, hne, hall, Bool.and_self, if_true]

/-- Fresh lines of safe paths are all entered into the map. -/
theorem foldl_readChecksum (cs sums : Checksums) (hn : ((sums ++ cs).map Prod.fst).Nodup)
    (hlisted : ∀ c ∈ cs, Listed c) :
    (cs.map lineText).foldl readChecksum ([], sums) = ([], sums ++ cs) := by
  induction cs generalizing sums with
  | nil => simp
  | cons c cs ih =>
    obtain ⟨hc, hcs⟩ := List.forall_mem_cons.mp hlisted
    have hfresh : c.1 ∉ sums.map Prod.fst := by
      intro hmem
      rw [List.map_append] at hn
      exact (List.nodup_append.mp hn).2.2 c.1 hmem c.1 List.mem_cons_self rfl
    have hlookup : (sums.lookup c.1).isSome = false := by
      rw [lookup_eq_none hfresh]
      rfl
    have hstep : readChecksum ([], sums) (lineText c) = ([], sums ++ [c]) := by
      simp only [readChecksum, checksumLine_lineText hc, hc.safe, if_true, hlookup,
        Bool.false_eq_true, if_false, List.append_nil, setMember_fresh _ _ _ hfresh]
    have hrest : ((sums ++ [c] ++ cs).map Prod.fst).Nodup := by
      rwa [List.append_assoc, List.singleton_append]
    rw [List.map_cons, List.foldl_cons, hstep, ih _ hrest hcs, List.append_assoc,
      List.singleton_append]

/-- A path that a checksum line may name. -/
structure Nameable (path : JsString) : Prop where
  safe : isSafeArchivePath path = true
  terminators : ∀ u ∈ path, isLineTerminator u = false
  wellFormed : isWellFormed path = true

theorem Nameable.nonempty {path : JsString} (h : Nameable path) : path ≠ [] := by
  intro hnil
  have hsafe := h.safe
  rw [hnil] at hsafe
  cases hsafe

theorem Nameable.listed {path : JsString} (h : Nameable path) (bytes : Bytes) :
    Listed (path, sha256 bytes) :=
  ⟨isSha256_sha256 bytes, h.nonempty, h.terminators, h.safe⟩

/-- The checksum file of an archive names no other path. -/
theorem nameable_of_readChecksums {bytes : Option Bytes} (h : (readChecksums bytes).1 = []) :
    ∀ c ∈ (readChecksums bytes).2, Nameable c.1 := by
  cases bytes with
  | none => cases h
  | some data =>
    cases htext : textDecode data with
    | none => simp [readChecksums, htext] at h
    | some text =>
      simp only [readChecksums, htext] at h ⊢
      cases hstate : (splitAt 10 (trimEnd text)).foldl readChecksum ([], []) with
      | mk issues result =>
        rw [hstate] at h
        obtain rfl : issues = [] := h
        obtain ⟨read, hresult, hlines, hlisted, -⟩ := lines_of_readChecksum hstate List.nodup_nil
        have hwell : ∀ line ∈ splitAt 10 (trimEnd text), isWellFormed line = true :=
          isWellFormed_splitAt rfl (isWellFormed_trimEnd (isWellFormed_textDecode htext))
        rw [List.nil_append] at hresult
        intro c hc
        replace hc : c ∈ read := hresult ▸ hc
        have hline : isWellFormed (lineText c) = true := by
          apply hwell
          rw [hlines]
          exact List.mem_map_of_mem hc
        rw [lineText] at hline
        have hpath := (isWellFormed_append_cons rfl hline).2
        rw [isWellFormed_cons 32 _ rfl] at hpath
        exact ⟨(hlisted c hc).safe, (hlisted c hc).terminators, hpath⟩

end TrustCore.ArchiveVerify
