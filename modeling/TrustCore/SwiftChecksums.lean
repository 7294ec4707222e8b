import TrustCore.ChecksumLines
import TrustCore.SwiftLines

/-!
# The checksum file on both sides

What the client reads from a checksum file that the server takes: the same lines, but that it keeps
the white space at the end of the text where the server drops it.
-/

namespace TrustCore.SwiftArchive

open TrustCore.Utf TrustCore.Json TrustCore.Dynamic TrustCore.Sha256
open TrustCore.ArchiveFormat TrustCore.Swift
open TrustCore.ArchiveVerify (checksumLine readChecksum isLineTerminator Listed lineText)

/-! ## White space at the end -/

theorem not_hexDigit_of_space {u : UInt16} (h : isStrWhiteSpace u = true) :
    isHexDigit [u] = false := by
  have hbounds := space_bounds h
  simp only [isHexDigit, Bool.or_eq_false_iff, decide_eq_false_iff_not]
  omega

section Tail

variable {T : Tables}

theorem scalars_head_append {s t : JsString} (hs : s ≠ [])
    (ht : ∀ u ∈ t.head?, isLowSurrogate u = false) : (scalars (s ++ t)).head? = (scalars s).head? := by
  obtain ⟨u, s, rfl⟩ := List.exists_cons_of_ne_nil hs
  cases s with
  | nil =>
    cases t with
    | nil => rfl
    | cons v t =>
      have hv := ht v rfl
      simp [scalars, hv]
  | cons v s =>
    rw [List.cons_append, List.cons_append, scalars, scalars]
    split <;> rfl

/-- White space at the end leaves the first scalar as it is. -/
theorem starts_append {s t : JsString} (hs : s ≠ []) (ht : ∀ u ∈ t, isStrWhiteSpace u = true) :
    Starts T (s ++ t) ↔ Starts T s := by
  have hhead : ∀ u ∈ t.head?, isLowSurrogate u = false := fun u hu =>
    (Bool.or_eq_false_iff.mp (not_surrogate_of_space (ht u (List.mem_of_mem_head? hu)))).2
  rw [Starts, Starts, scalars_head_append hs hhead]

theorem return_of_listed {c : JsString × JsString} (h : Listed c) : (13 : UInt16) ∉ c.1 := by
  intro hmem
  have hterminator := h.terminators 13 hmem
  cases hterminator

variable (hT : Documented T)

include hT

/-- The paths and the digests that the client takes from the lines of the server, the last of which
goes on as the client has it. -/
theorem read_of_lines {init result : Checksums} {digest rest : JsString}
    (hinit : ∀ c ∈ init, Listed c) (hdigest : isSha256 digest = true)
    (h : List.Forall₂ (fun raw c => Reads T raw c.2 c.1)
      ((init.map lineText ++ [digest ++ 32 :: 32 :: rest]).map T.characters) result) :
    ∃ path, result = init ++ [(path, digest)] ∧ (∀ c ∈ init, Starts T c.1) ∧ Starts T rest ∧
      (rest = path ∨ rest = path ++ [13]) := by
  induction init generalizing result with
  | nil =>
    cases h with
    | cons hreads hnil =>
      cases hnil
      rename_i c
      obtain ⟨path, d⟩ := c
      obtain ⟨rfl, hstarts, hrest⟩ := line_of_reads hT hdigest hreads
      exact ⟨path, rfl, by simp, hstarts, hrest⟩
  | cons c init ih =>
    rw [List.forall_mem_cons] at hinit
    cases h with
    | cons hreads hread =>
      rename_i c' result
      obtain ⟨path, rfl, hstarts, hlast⟩ := ih hinit.2 hread
      obtain ⟨hd, hstarts', hrest⟩ := line_of_reads hT hinit.1.digest hreads
      have hpath : c.1 = c'.1 := by
        refine hrest.resolve_right fun heq => ?_
        refine return_of_listed hinit.1 ?_
        rw [heq]
        simp
      refine ⟨path, ?_, ?_, hlast⟩
      · rw [← Prod.ext hpath hd.symm]
        rfl
      · rw [List.forall_mem_cons]
        exact ⟨hstarts', hstarts⟩

omit hT in
theorem lineText_ne_nil (c : JsString × JsString) : lineText c ≠ [] := by simp [lineText]

/-- Nothing but line feeds, or one carriage return. -/
def IsEnd (e : JsString) : Prop := e = [13] ∨ ∃ n, e = List.replicate n 10

omit hT in
theorem replicate_feed (n : Nat) :
    (List.replicate n (10 : UInt16)).splitOn 10 = List.replicate (n + 1) [] := by
  induction n with
  | zero => rfl
  | succ n ih =>
    rw [List.replicate_succ, List.splitOn_cons_eq_if_modifyHead, ih]
    rfl

omit hT in
theorem intercalate_replicate (w : JsString) (n : Nat) :
    [10].intercalate (w :: List.replicate n []) = w ++ List.replicate n (10 : UInt16) := by
  induction n generalizing w with
  | zero => simp
  | succ n ih =>
    rw [List.replicate_succ, List.intercalate_cons_cons, ih, List.replicate_succ]
    simp

section Parse

variable {init result : Checksums} {last : JsString × JsString} {text tail : JsString}

omit hT in
/-- The lines of the text with its end, where the end goes on with the last of them. -/
theorem parts_of_text (htext : text.splitOn 10 = (init ++ [last]).map lineText) {p : JsString}
    {parts : List JsString} (hp : tail.splitOn 10 = p :: parts) :
    (text ++ tail).splitOn 10 =
      init.map lineText ++ (last.2 ++ 32 :: 32 :: (last.1 ++ p)) :: parts := by
  rw [List.map_append, List.map_singleton] at htext
  rw [splitOn_append htext hp, lineText]
  simp

omit hT in
/-- The parts that are not blank. -/
theorem filter_parts {line : JsString} (hline : line ≠ []) {parts : List JsString}
    (hparts : ∀ part ∈ parts, part = []) :
    (init.map lineText ++ line :: parts).filter (· != []) = init.map lineText ++ [line] := by
  have hinit : (init.map lineText).filter (· != []) = init.map lineText := by
    rw [List.filter_eq_self]
    intro line hline
    obtain ⟨c, -, rfl⟩ := List.mem_map.mp hline
    simpa using lineText_ne_nil c
  have hnil : parts.filter (· != []) = [] :=
    List.filter_eq_nil_iff.mpr fun part hpart => by simp [hparts part hpart]
  rw [List.filter_append, hinit, List.filter_cons_of_pos (by simpa using hline), hnil]

/-- The client reads no more than the white space at the end of the last line. -/
theorem tail_of_parse (hlisted : ∀ c ∈ init ++ [last], Listed c)
    (htext : text.splitOn 10 = (init ++ [last]).map lineText)
    (htail : ∀ u ∈ tail, isStrWhiteSpace u = true)
    (h : parseChecksums T (text ++ tail) = ([], result)) :
    ∃ w e, tail = w ++ e ∧ IsEnd e ∧ result = init ++ [(last.1 ++ w, last.2)] ∧
      (∀ c ∈ init ++ [last], Starts T c.1) ∧ (∀ c ∈ result, isSafeArchivePath T c.1 = true) ∧
      result.Pairwise (fun a b => T.same a.1 b.1 = false) := by
  obtain ⟨read, hresult, hread, hpairs, -⟩ := (parseLines_iff hT).mp h
  rw [List.nil_append] at hresult
  subst hresult
  have hsafe : ∀ c ∈ result, isSafeArchivePath T c.1 = true := by
    intro c hc
    obtain ⟨raw, -, hraw⟩ := (ImportReferences.mem_of_forall₂ hread).2 c hc
    exact hraw.safe
  have hreads : ∀ raw ∈ lines T (text ++ tail), ∃ digest path, Reads T raw digest path := by
    intro raw hraw
    obtain ⟨c, -, hc⟩ := (ImportReferences.mem_of_forall₂ hread).1 raw hraw
    exact ⟨_, _, hc⟩
  have hreturn := return_of_lines hT hreads
  have hlines := lines_eq hT hreturn
  have hinit : ∀ c ∈ init, Listed c := fun c hc => hlisted c (List.mem_append_left _ hc)
  have hlast : Listed last := hlisted last (by simp)
  obtain ⟨p, parts, hp⟩ := List.exists_cons_of_ne_nil (List.splitOn_ne_nil 10 tail)
  have hparts := parts_of_text htext hp
  -- a part of white space is no line
  have hempty : ∀ part ∈ parts, part = [] := by
    intro part hpart
    by_contra hne
    have hmem : T.characters part ∈ lines T (text ++ tail) := by
      rw [hlines, hparts]
      refine List.mem_map_of_mem (List.mem_filter.mpr ⟨?_, by simpa using hne⟩)
      exact List.mem_append_right _ (List.mem_cons_of_mem _ hpart)
    obtain ⟨digest, path, hpath⟩ := hreads _ hmem
    obtain ⟨u, s, hus, hu⟩ := head_of_reads hT hpath (hT.nonempty part)
    rw [hT.flatten] at hus
    obtain ⟨a, b, hab, -, -⟩ := intercalate_mem (x := (10 : UInt16)) (hp ▸ List.mem_cons_of_mem p hpart)
    rw [List.intercalate_splitOn] at hab
    have hspace : isStrWhiteSpace u = true := htail u (by rw [hab, hus]; simp)
    rw [not_hexDigit_of_space hspace] at hu
    cases hu
  rw [hlines, hparts, filter_parts (by simp) hempty] at hread
  obtain ⟨path, hresult, hstarts, hstartsLast, hrest⟩ :=
    read_of_lines hT hinit hlast.digest hread
  have htailParts : tail = [10].intercalate (p :: parts) := by
    rw [← hp, List.intercalate_splitOn]
  have hspace : ∀ u ∈ p, isStrWhiteSpace u = true := by
    intro u hu
    refine htail u ?_
    rw [htailParts]
    cases parts with
    | nil => simpa using hu
    | cons q parts => simp [List.intercalate_cons_cons, hu]
  have hallStart : ∀ c ∈ init ++ [last], Starts T c.1 := by
    intro c hc
    rcases List.mem_append.mp hc with hc | hc
    · exact hstarts c hc
    · rw [List.mem_singleton.mp hc]
      exact (starts_append hlast.nonempty hspace).mp hstartsLast
  have hreplicate : parts = List.replicate parts.length [] := List.eq_replicate_of_mem hempty
  obtain rfl | hrest := hrest
  · refine ⟨p, List.replicate parts.length 10, ?_, .inr ⟨_, rfl⟩, hresult, hallStart, hsafe, hpairs⟩
    rw [← intercalate_replicate, ← hreplicate, ← htailParts]
  · have hne : p ≠ [] := by
      rintro rfl
      refine return_of_listed hlast ?_
      rw [List.append_nil] at hrest
      rw [hrest]
      simp
    obtain ⟨w, u, rfl⟩ := (List.eq_nil_or_concat' p).resolve_left hne
    rw [← List.append_assoc] at hrest
    obtain ⟨rfl, hu⟩ := List.append_inj' hrest rfl
    obtain rfl := List.singleton_inj.mp hu
    have hend : parts = [] := by
      by_contra hparts'
      refine hreturn (last.2 ++ 32 :: 32 :: (last.1 ++ (w ++ [13]))) ?_ ?_
      · rw [hparts, List.dropLast_append_of_ne_nil (by simp), List.dropLast_cons_of_ne_nil hparts']
        exact List.mem_append_right _ List.mem_cons_self
      · rw [← List.append_assoc last.1, ← List.cons_append, ← List.cons_append, ← List.append_assoc]
        exact List.getLast?_concat
    refine ⟨w, [13], ?_, .inl rfl, hresult, hallStart, hsafe, hpairs⟩
    rw [htailParts, hend, List.intercalate_singleton]

theorem lines_of_listed {line : JsString} {c : JsString × JsString} (hinit : ∀ c ∈ init, Listed c)
    (hstarts : ∀ c ∈ init, Starts T c.1) (hsafe : ∀ c ∈ init, isSafeArchivePath T c.1 = true)
    (hline : Reads T (T.characters line) c.2 c.1) :
    List.Forall₂ (fun raw c => Reads T raw c.2 c.1)
      ((init.map lineText ++ [line]).map T.characters) (init ++ [c]) := by
  induction init with
  | nil => exact .cons hline .nil
  | cons c' init ih =>
    rw [List.forall_mem_cons] at hinit hstarts hsafe
    exact .cons (reads_line hT hinit.1.digest hstarts.1 hsafe.1) (ih hinit.2 hstarts.2 hsafe.2)

omit hT in
theorem return_of_line {digest path : JsString} (hne : path ≠ []) (hpath : (13 : UInt16) ∉ path) :
    (digest ++ 32 :: 32 :: path).getLast? ≠ some 13 := by
  obtain ⟨path, u, rfl⟩ := (List.eq_nil_or_concat' path).resolve_left hne
  rw [← List.cons_append, ← List.cons_append, ← List.append_assoc, List.getLast?_concat]
  intro hu
  exact hpath (by simp [Option.some.inj hu])

/-- White space that is safe in a path, and an end, are read. -/
theorem parse_of_tail {w e : JsString} (hlisted : ∀ c ∈ init ++ [last], Listed c)
    (htext : text.splitOn 10 = (init ++ [last]).map lineText)
    (hw : ∀ u ∈ w, isStrWhiteSpace u = true) (he : IsEnd e)
    (hstarts : ∀ c ∈ init ++ [last], Starts T c.1)
    (hsafe : ∀ c ∈ init ++ [(last.1 ++ w, last.2)], isSafeArchivePath T c.1 = true)
    (hpairs : (init ++ [(last.1 ++ w, last.2)]).Pairwise fun a b => T.same a.1 b.1 = false) :
    parseChecksums T (text ++ (w ++ e)) = ([], init ++ [(last.1 ++ w, last.2)]) := by
  have hinit : ∀ c ∈ init, Listed c := fun c hc => hlisted c (List.mem_append_left _ hc)
  have hlast : Listed last := hlisted last (by simp)
  have hsafeLast : isSafeArchivePath T (last.1 ++ w) = true := hsafe (last.1 ++ w, last.2) (by simp)
  have hstartsLast : Starts T (last.1 ++ w) :=
    (starts_append hlast.nonempty hw).mpr (hstarts last (by simp))
  have hfeed : (10 : UInt16) ∉ w := fun hmem =>
    not_mem_of_safe hsafeLast (by decide) (by decide) (List.mem_append_right last.1 hmem)
  have hreturn : (13 : UInt16) ∉ last.1 ++ w := not_mem_of_safe hsafeLast (by decide) (by decide)
  have hinitReturn : ∀ part ∈ init.map lineText, part.getLast? ≠ some 13 := by
    intro part hpart
    obtain ⟨c, hc, rfl⟩ := List.mem_map.mp hpart
    exact return_of_line (hinit c hc).nonempty (return_of_listed (hinit c hc))
  have hread : ∀ line, Reads T (T.characters line) last.2 (last.1 ++ w) →
      List.Forall₂ (fun raw c => Reads T raw c.2 c.1)
        ((init.map lineText ++ [line]).map T.characters) (init ++ [(last.1 ++ w, last.2)]) :=
    fun line hline => lines_of_listed hT (c := (last.1 ++ w, last.2)) hinit
      (fun c hc => hstarts c (List.mem_append_left _ hc))
      (fun c hc => hsafe c (List.mem_append_left _ hc)) hline
  refine (parseLines_iff hT).mpr ⟨_, rfl, ?_, hpairs, by simp⟩
  obtain rfl | ⟨n, rfl⟩ := he
  · have hp : (w ++ [13]).splitOn 10 = [w ++ [13]] := List.splitOn_eq_singleton (by simp [hfeed])
    have hparts := parts_of_text htext hp
    have hline : last.2 ++ 32 :: 32 :: (last.1 ++ (w ++ [13])) =
        last.2 ++ 32 :: 32 :: (last.1 ++ w) ++ [13] := by simp
    rw [lines_eq hT (by rwa [hparts, List.dropLast_concat]), hparts,
      filter_parts (by simp) (by simp), hline]
    exact hread _ (reads_return hT hlast.digest hstartsLast hsafeLast)
  · have hp : (w ++ List.replicate n 10).splitOn 10 = w :: List.replicate n [] := by
      have hsingle : w.splitOn 10 = [] ++ [w] := List.splitOn_eq_singleton hfeed
      rw [splitOn_append hsingle (replicate_feed n), List.append_nil, List.nil_append]
    have hparts := parts_of_text htext hp
    have hends : ∀ part ∈ ((text ++ (w ++ List.replicate n 10)).splitOn 10).dropLast,
        part.getLast? ≠ some 13 := by
      intro part hpart
      have hmem := List.mem_of_mem_dropLast hpart
      rw [hparts] at hmem
      rcases List.mem_append.mp hmem with hmem | hmem
      · exact hinitReturn part hmem
      · rcases List.mem_cons.mp hmem with rfl | hmem
        · exact return_of_line (List.append_ne_nil_of_left_ne_nil hlast.nonempty w) hreturn
        · rw [List.eq_of_mem_replicate hmem]
          simp
    rw [lines_eq hT hends, hparts,
      filter_parts (by simp) fun part hpart => List.eq_of_mem_replicate hpart]
    exact hread _ (reads_line hT hlast.digest hstartsLast hsafeLast)

end Parse

end Tail

end TrustCore.SwiftArchive
