import TrustCore.SwiftArchive
import TrustCore.ArchiveText

/-!
# Paths and checksum lines on both sides

A path that the server takes is refused by the client for a colon, or for a control or format
character. A checksum file that the client reads without an issue has the same lines on both sides.
-/

namespace TrustCore.SwiftArchive

open TrustCore.Utf TrustCore.Json TrustCore.Dynamic TrustCore.Sha256
open TrustCore.ArchiveFormat TrustCore.Swift

/-! ## Splitting -/

section Splitting

variable {α : Type} {x : α}

/-- A part stands between two separators, or at an end. -/
theorem intercalate_mem {parts : List (List α)} {part : List α} (h : part ∈ parts) :
    ∃ s t, [x].intercalate parts = s ++ part ++ t ∧ (s = [] ∨ ∃ s', s = s' ++ [x]) ∧
      (t = [] ∨ ∃ t', t = x :: t') := by
  induction parts with
  | nil => cases h
  | cons p parts ih =>
    cases parts with
    | nil =>
      rw [List.mem_singleton] at h
      exact ⟨[], [], by rw [h]; simp, .inl rfl, .inl rfl⟩
    | cons p' parts =>
      rw [List.intercalate_cons_cons]
      rcases List.mem_cons.mp h with rfl | h
      · exact ⟨[], x :: [x].intercalate (p' :: parts), by simp, .inl rfl, .inr ⟨_, rfl⟩⟩
      · obtain ⟨s, t, hst, hs, ht⟩ := ih h
        rw [hst]
        refine ⟨p ++ [x] ++ s, t, by simp only [List.append_assoc], .inr ?_, ht⟩
        obtain rfl | ⟨s', rfl⟩ := hs
        · exact ⟨p, by simp⟩
        · exact ⟨p ++ [x] ++ s', by simp only [List.append_assoc]⟩

theorem intercalate_dropLast {parts : List (List α)} {part : List α} (h : part ∈ parts.dropLast) :
    ∃ s t, [x].intercalate parts = s ++ part ++ x :: t := by
  induction parts with
  | nil => cases h
  | cons p parts ih =>
    cases parts with
    | nil => cases h
    | cons p' parts =>
      rw [List.intercalate_cons_cons]
      rcases List.mem_cons.mp h with rfl | h
      · exact ⟨[], [x].intercalate (p' :: parts), by simp⟩
      · obtain ⟨s, t, hst⟩ := ih h
        exact ⟨p ++ [x] ++ s, t, by rw [hst]; simp only [List.append_assoc]⟩

theorem flatten_intercalate (parts : List (List (List α))) :
    ([[x]].intercalate parts).flatten = [x].intercalate (parts.map List.flatten) := by
  induction parts with
  | nil => rfl
  | cons p parts ih =>
    cases parts with
    | nil => simp
    | cons p' parts =>
      rw [List.intercalate_cons_cons, List.flatten_append, List.flatten_append, ih]
      simp [List.intercalate_cons_cons]

theorem intercalate_append (init : List (List α)) (a b : List α) (parts : List (List α)) :
    [x].intercalate (init ++ [a]) ++ [x].intercalate (b :: parts) =
      [x].intercalate (init ++ (a ++ b) :: parts) := by
  induction init with
  | nil => cases parts <;> simp [List.intercalate_cons_cons]
  | cons p init ih =>
    have hcons : ∀ parts : List (List α), parts ≠ [] →
        [x].intercalate (p :: parts) = p ++ [x] ++ [x].intercalate parts :=
      fun _ h => List.intercalate_cons_of_ne_nil h
    rw [List.cons_append, List.cons_append, hcons _ (by simp), hcons _ (by simp),
      List.append_assoc, ih]

variable [DecidableEq α]

theorem mem_splitOn {s part t : List α} (hx : x ∉ part) (hs : s = [] ∨ ∃ s', s = s' ++ [x])
    (ht : t = [] ∨ ∃ t', t = x :: t') : part ∈ (s ++ part ++ t).splitOn x := by
  have hrest : part ∈ (part ++ t).splitOn x := by
    obtain rfl | ⟨t', rfl⟩ := ht
    · rw [List.append_nil, List.splitOn_eq_singleton hx]
      exact List.mem_singleton_self part
    · rw [List.splitOn_append_cons_self_of_not_mem hx]
      exact List.mem_cons_self
  obtain rfl | ⟨s', rfl⟩ := hs
  · exact hrest
  · rw [List.append_assoc, List.append_assoc, List.singleton_append,
      List.splitOn_append_cons_self]
    exact List.mem_append_right _ hrest

theorem not_mem_of_mem_splitOn {s part : List α} (h : part ∈ s.splitOn x) : x ∉ part := by
  induction s generalizing part with
  | nil =>
    rw [List.splitOn_nil, List.mem_singleton] at h
    rw [h]
    exact List.not_mem_nil
  | cons y s ih =>
    rw [List.splitOn_cons_eq_if_modifyHead] at h
    by_cases hy : y = x
    · simp only [hy, beq_self_eq_true, if_true, List.mem_cons] at h
      obtain rfl | h := h
      · exact List.not_mem_nil
      · exact ih h
    · simp only [beq_iff_eq, hy, if_false] at h
      cases hs : s.splitOn x with
      | nil => exact absurd hs (List.splitOn_ne_nil _ _)
      | cons p parts =>
        rw [hs, List.modifyHead_cons, List.mem_cons] at h
        obtain rfl | h := h
        · rw [List.mem_cons, not_or]
          exact ⟨Ne.symm hy, ih (hs ▸ List.mem_cons_self)⟩
        · exact ih (hs ▸ List.mem_cons_of_mem _ h)

/-- What is appended goes on with the last part. -/
theorem splitOn_append {s t a b : List α} {init parts : List (List α)}
    (hs : s.splitOn x = init ++ [a]) (ht : t.splitOn x = b :: parts) :
    (s ++ t).splitOn x = init ++ (a ++ b) :: parts := by
  have hst : s ++ t = [x].intercalate (init ++ (a ++ b) :: parts) := by
    rw [← intercalate_append, ← hs, ← ht, List.intercalate_splitOn, List.intercalate_splitOn]
  have hinit : ∀ part ∈ init ++ [a], x ∉ part := fun part hpart =>
    not_mem_of_mem_splitOn (hs ▸ hpart)
  have hparts : ∀ part ∈ b :: parts, x ∉ part := fun part hpart =>
    not_mem_of_mem_splitOn (ht ▸ hpart)
  rw [hst]
  refine List.splitOn_intercalate x ?_ (by simp)
  intro part hpart
  rcases List.mem_append.mp hpart with hpart | hpart
  · exact hinit part (List.mem_append_left _ hpart)
  · rcases List.mem_cons.mp hpart with rfl | hpart
    · rw [List.mem_append, not_or]
      exact ⟨hinit a (by simp), hparts b List.mem_cons_self⟩
    · exact hparts part (List.mem_cons_of_mem _ hpart)

/-- A part without the separator is one for the units too. -/
theorem flatten_mem_splitOn {cs part : List (List α)} (hpart : part ∈ cs.splitOn [x])
    (hx : x ∉ part.flatten) : part.flatten ∈ cs.flatten.splitOn x := by
  obtain ⟨s, t, hst, hs, ht⟩ := intercalate_mem (x := [x]) hpart
  rw [List.intercalate_splitOn] at hst
  rw [hst, List.flatten_append, List.flatten_append]
  refine mem_splitOn hx ?_ ?_
  · obtain rfl | ⟨s', rfl⟩ := hs
    · exact .inl rfl
    · exact .inr ⟨s'.flatten, by simp⟩
  · obtain rfl | ⟨t', rfl⟩ := ht
    · exact .inl rfl
    · exact .inr ⟨t'.flatten, rfl⟩

/-- Where no part has a separator within, the units are divided like the Characters. -/
theorem splitOn_flatten {cs : List (List α)} (h : ∀ part ∈ cs.splitOn [x], x ∉ part.flatten) :
    cs.flatten.splitOn x = (cs.splitOn [x]).map List.flatten := by
  have hcs : cs.flatten = [x].intercalate ((cs.splitOn [x]).map List.flatten) := by
    rw [← flatten_intercalate, List.intercalate_splitOn]
  rw [hcs]
  refine List.splitOn_intercalate x ?_ (by simp)
  intro part hpart
  obtain ⟨p, hp, rfl⟩ := List.mem_map.mp hpart
  exact h p hp

end Splitting

theorem splitAt_eq (sep : UInt16) (s : JsString) : splitAt sep s = s.splitOn sep := by
  induction s with
  | nil => rfl
  | cons u s ih =>
    rw [splitAt, List.splitOn_cons_eq_if_modifyHead, ih]
    by_cases hu : u = sep
    · simp [hu]
    · simp only [hu, if_false, beq_iff_eq]
      cases hs : s.splitOn sep with
      | nil => exact absurd hs (List.splitOn_ne_nil _ _)
      | cons part parts => rfl

/-! ## Paths -/

theorem mem_scalars {s : JsString} {u : UInt16} (hu : u ∈ s) (hs : isSurrogate u = false) :
    u.toNat ∈ scalars s := by
  induction s using scalars.induct with
  | case1 => cases hu
  | case2 v =>
    rw [List.mem_singleton] at hu
    subst hu
    simp [scalars, hs]
  | case3 v w rest hpair ih =>
    simp only [scalars, hpair, if_true]
    have hhigh : isSurrogate v = true ∧ isSurrogate w = true := by
      rw [Bool.and_eq_true] at hpair
      simp [isSurrogate, hpair.1, hpair.2]
    refine List.mem_cons_of_mem _ (ih ?_)
    rcases List.mem_cons.mp hu with rfl | hu
    · rw [hs] at hhigh
      exact absurd hhigh.1 (by decide)
    · rcases List.mem_cons.mp hu with rfl | hu
      · rw [hs] at hhigh
        exact absurd hhigh.2 (by decide)
      · exact hu
  | case4 v w rest hpair ih =>
    simp only [scalars, hpair]
    rcases List.mem_cons.mp hu with rfl | hu
    · simp [hs]
    · exact List.mem_cons_of_mem _ (ih hu)

section Paths

variable {T : Tables} {path : JsString}

/-- What the server asks of a path, as far as the client asks it too. -/
structure Accepted (path : JsString) : Prop where
  nonempty : path ≠ []
  head : path.head? ≠ some 47
  backslash : (92 : UInt16) ∉ path
  segments : ∀ segment ∈ path.splitOn 47, segment ≠ [] ∧ segment ≠ js "." ∧ segment ≠ js ".."

theorem accepted_of_safe (h : ArchiveFormat.isSafeArchivePath path = true) : Accepted path := by
  simp only [ArchiveFormat.isSafeArchivePath, Bool.and_eq_true, Bool.not_eq_true',
    Bool.or_eq_false_iff, List.all_eq_true] at h
  obtain ⟨⟨⟨⟨⟨⟨⟨hlength, -⟩, hhead⟩, -⟩, -⟩, hbackslash⟩, -⟩, hsegments⟩ := h
  refine ⟨?_, ?_, ?_, ?_⟩
  · rintro rfl
    cases hlength
  · simpa using hhead
  · simpa using hbackslash
  · intro segment hsegment
    rw [← splitAt_eq] at hsegment
    have hs := hsegments segment hsegment
    simp only [beq_eq_false_iff_ne, ne_eq] at hs
    exact ⟨hs.1.1, hs.1.2, hs.2⟩

variable (hT : Documented T)

include hT

/-- Each segment of the client is one or several segments of the server. -/
theorem safe_segment (hpath : Accepted path) {segment : List JsString}
    (h : segment ∈ (T.characters path).splitOn [47]) {s : JsString} (hs : (47 : UInt16) ∉ s)
    (hne : s = [] ∨ s = js "." ∨ s = js "..") : segment.flatten ≠ s := by
  rintro rfl
  have hmem := flatten_mem_splitOn h hs
  rw [hT.flatten] at hmem
  obtain ⟨h₁, h₂, h₃⟩ := hpath.segments _ hmem
  rcases hne with hne | hne | hne
  · exact h₁ hne
  · exact h₂ hne
  · exact h₃ hne

theorem isSafeArchivePath_iff (h : ArchiveFormat.isSafeArchivePath path = true) :
    isSafeArchivePath T path = true ↔
      js ":" ∉ T.characters path ∧ (scalars path).any isControl = false := by
  have hpath := accepted_of_safe h
  have hslash : T.hasPrefix path (js "/") = false := by
    rw [Bool.eq_false_iff]
    intro hp
    obtain ⟨rest, rfl, -⟩ := (hasPrefix_iff hT rfl rfl (by decide)).mp hp
    exact hpath.head rfl
  have hback : js "\\" ∉ T.characters path := fun hc =>
    hpath.backslash (mem_of_character hT hc List.mem_cons_self)
  have hbackslash : T.hasPrefix path (js "\\") = false := by
    rw [Bool.eq_false_iff]
    intro hp
    obtain ⟨rest, rfl, -⟩ := (hasPrefix_iff hT rfl rfl (by decide)).mp hp
    exact hpath.backslash List.mem_cons_self
  have hcontains : T.containsCharacter path (js "\\") = false := by
    rw [Bool.eq_false_iff, ne_eq, contains_literal hT rfl]
    exact hback
  have hsegments : ((T.split (js "/") (T.characters path)).all fun segment =>
      segment != [] && !T.same segment.flatten (js ".") && !T.same segment.flatten (js "..")) =
        true := by
    rw [List.all_eq_true]
    intro segment hsegment
    rw [split_eq hT rfl, ← List.splitOn_eq_splitOnP] at hsegment
    have hne : ∀ s, (47 : UInt16) ∉ s → s = [] ∨ s = js "." ∨ s = js ".." → segment.flatten ≠ s :=
      fun s hs hs' => safe_segment hT hpath hsegment hs hs'
    have hdot : T.same segment.flatten (js ".") = false := by
      rw [Bool.eq_false_iff, ne_eq, same_iff hT rfl]
      exact hne _ (by decide) (.inr (.inl rfl))
    have hdots : T.same segment.flatten (js "..") = false := by
      rw [Bool.eq_false_iff, ne_eq, same_iff hT rfl]
      exact hne _ (by decide) (.inr (.inr rfl))
    have hsome : segment ≠ [] := by
      rintro rfl
      exact hne [] (by simp) (.inl rfl) rfl
    rw [hdot, hdots]
    simpa using hsome
  have hnonempty : (path != []) = true := by simpa using hpath.nonempty
  rw [isSafeArchivePath, hnonempty, hslash, hbackslash, hcontains, hsegments]
  simp only [Bool.not_false, Bool.and_true, Bool.true_and, Bool.and_eq_true, Bool.not_eq_true']
  rw [← contains_literal hT (by decide : isLiteral (js ":") = true), Bool.not_eq_true]

omit hT in
/-- A safe path has no line break. -/
theorem not_mem_of_safe (h : isSafeArchivePath T path = true) {u : UInt16}
    (hs : isSurrogate u = false) (hu : isControl u.toNat = true) : u ∉ path := by
  simp only [isSafeArchivePath, Bool.and_eq_true, Bool.not_eq_true'] at h
  intro hmem
  have hcontrol := List.any_eq_false.mp h.1.2 _ (mem_scalars hmem hs)
  exact hcontrol hu

end Paths

/-! ## Lines -/

section Lines

variable (T : Tables)

/-- The line without the carriage return of a CR-LF pair. -/
def bare (raw : List JsString) : List JsString :=
  if raw.getLast?.any (fun c => T.same c [13]) then raw.dropLast else raw

/-- The client takes this digest and this path from the line. -/
structure Reads (raw : List JsString) (digest path : JsString) : Prop where
  long : 66 < (bare T raw).length
  digits : ((bare T raw).take 64).flatten = digest
  separator : (((bare T raw).drop 64).take 2).flatten = js "  "
  rest : ((bare T raw).drop 66).flatten = path
  hex : (T.characters digest).all isHexDigit = true
  lower : T.same digest (lowercased digest) = true
  safe : isSafeArchivePath T path = true

variable {T} {raw : List JsString} {digest path : JsString}

theorem value_eq_none {α : Type} {d : List (JsString × α)} {key : JsString} :
    (value T d key).isSome = false ↔ ∀ e ∈ d, T.same e.1 key = false := by
  rw [value, Option.isSome_map, ← Bool.not_eq_true, List.find?_isSome]
  push Not
  simp only [ne_eq, Bool.not_eq_true]

section Step

variable (hT : Documented T)

include hT

/-- A line is read, or it is an issue. -/
theorem parseLine_cases (state : List ArchiveIssue × Checksums) (raw : List JsString) :
    (∃ digest path, Reads T raw digest path ∧ (value T state.2 path).isSome = false ∧
      parseLine T state raw = (state.1, state.2 ++ [(path, digest)])) ∨
    (∃ issue, parseLine T state raw = (state.1 ++ [issue], state.2)) ∧
      ∀ digest path, Reads T raw digest path → (value T state.2 path).isSome = true := by
  have hspace : ∀ s, T.same s (js "  ") = true ↔ s = js "  " := fun s => same_iff hT rfl
  by_cases hlong : (bare T raw).length ≤ 66
  · have hparse : parseLine T state raw = (state.1 ++
        [⟨js "ARCHIVE_CHECKSUM_FILE_INVALID", js "Checksum line is invalid.", none⟩], state.2) := by
      simp only [parseLine]
      rw [← bare, if_pos hlong]
    exact .inr ⟨⟨_, hparse⟩, fun digest path hreads => absurd hreads.long (by omega)⟩
  · have hparse : parseLine T state raw =
        if T.same (((bare T raw).drop 64).take 2).flatten (js "  ") &&
            (T.characters ((bare T raw).take 64).flatten).all isHexDigit &&
            T.same ((bare T raw).take 64).flatten (lowercased ((bare T raw).take 64).flatten) &&
            isSafeArchivePath T ((bare T raw).drop 66).flatten then
          if (value T state.2 ((bare T raw).drop 66).flatten).isSome then
            (state.1 ++ [⟨js "ARCHIVE_CHECKSUM_DUPLICATE", js "Checksum path is duplicated.",
              some ((bare T raw).drop 66).flatten⟩], state.2)
          else (state.1, state.2 ++ [(((bare T raw).drop 66).flatten,
            ((bare T raw).take 64).flatten)])
        else (state.1 ++ [⟨js "ARCHIVE_CHECKSUM_FILE_INVALID", js "Checksum line is invalid.",
          some ((bare T raw).drop 66).flatten⟩], state.2) := by
      simp only [parseLine]
      rw [← bare, if_neg hlong]
    rw [hparse]
    split
    · rename_i hline
      simp only [Bool.and_eq_true, hspace] at hline
      obtain ⟨⟨⟨hseparator, hhex⟩, hlower⟩, hsafe⟩ := hline
      split
      · rename_i hsome
        refine .inr ⟨⟨_, rfl⟩, fun digest path hreads => ?_⟩
        rwa [← hreads.rest]
      · rename_i hnone
        exact .inl ⟨_, _, ⟨by omega, rfl, hseparator, rfl, hhex, hlower, hsafe⟩, by simpa using hnone,
          rfl⟩
    · rename_i hline
      refine .inr ⟨⟨_, rfl⟩, fun digest path hreads => absurd ?_ hline⟩
      rw [hreads.separator, hreads.digits, hreads.rest, hreads.hex, hreads.lower, hreads.safe,
        (hspace _).mpr rfl]
      rfl

/-- An issue stays. -/
theorem parseLine_issues (state : List ArchiveIssue × Checksums) (raws : List (List JsString))
    (h : (raws.foldl (parseLine T) state).1 = []) : state.1 = [] := by
  induction raws generalizing state with
  | nil => exact h
  | cons raw raws ih =>
    have hstep := ih _ h
    obtain ⟨_, _, -, -, heq⟩ | ⟨⟨_, heq⟩, -⟩ := parseLine_cases hT state raw
    · rwa [heq] at hstep
    · rw [heq] at hstep
      exact (List.append_eq_nil_iff.mp hstep).1

/-- The checksums of lines that are all read. -/
theorem parseLines_iff {raws : List (List JsString)} {checksums result : Checksums} :
    raws.foldl (parseLine T) ([], checksums) = ([], result) ↔
      ∃ read : Checksums, result = checksums ++ read ∧
        List.Forall₂ (fun raw c => Reads T raw c.2 c.1) raws read ∧
        read.Pairwise (fun a b => T.same a.1 b.1 = false) ∧
        ∀ a ∈ checksums, ∀ b ∈ read, T.same a.1 b.1 = false := by
  induction raws generalizing checksums with
  | nil =>
    rw [List.foldl_nil, Prod.mk.injEq]
    constructor
    · rintro ⟨-, rfl⟩
      exact ⟨[], by simp, .nil, .nil, by simp⟩
    · rintro ⟨read, rfl, hread, -, -⟩
      cases hread
      simp
  | cons raw raws ih =>
    rw [List.foldl_cons]
    obtain ⟨digest, path, hreads, hnone, heq⟩ | ⟨⟨issue, heq⟩, hsome⟩ :=
      parseLine_cases hT ([], checksums) raw
    · rw [heq, ih]
      rw [value_eq_none] at hnone
      constructor
      · rintro ⟨read, rfl, hread, hpairs, hnew⟩
        refine ⟨(path, digest) :: read, by simp, .cons hreads hread, ?_, ?_⟩
        · exact .cons (fun b hb => hnew (path, digest) (by simp) b hb) hpairs
        · intro a ha b hb
          rcases List.mem_cons.mp hb with rfl | hb
          · exact hnone a ha
          · exact hnew a (List.mem_append_left _ ha) b hb
      · rintro ⟨read, rfl, hread, hpairs, hnew⟩
        cases hread with
        | cons hfirst hread =>
          rename_i c read
          have hc : c = (path, digest) := Prod.ext (hfirst.rest.symm.trans hreads.rest)
            (hfirst.digits.symm.trans hreads.digits)
          subst hc
          rw [List.pairwise_cons] at hpairs
          refine ⟨read, by simp, hread, hpairs.2, ?_⟩
          intro a ha b hb
          rcases List.mem_append.mp ha with ha | ha
          · exact hnew a ha b (List.mem_cons_of_mem _ hb)
          · rw [List.mem_singleton.mp ha]
            exact hpairs.1 b hb
    · rw [heq]
      constructor
      · intro hrun
        have hnil := parseLine_issues hT ([] ++ [issue], checksums) raws (by rw [hrun])
        cases hnil
      · rintro ⟨read, -, hread, -, hnew⟩
        cases hread with
        | cons hfirst hread =>
          rename_i c read
          have hfresh := hsome c.2 c.1 hfirst
          rw [value_eq_none.mpr fun e he => hnew e he c List.mem_cons_self] at hfresh
          cases hfresh

end Step

section Reading

variable (hT : Documented T)

include hT

theorem bare_cases (raw : List JsString) : bare T raw = raw ∨ raw = bare T raw ++ [[13]] := by
  rw [bare]
  split
  · rename_i hlast
    obtain ⟨c, hc, hsame⟩ := Option.any_eq_true _ _ |>.mp hlast
    rw [same_iff hT rfl] at hsame
    subst hsame
    exact .inr (List.dropLast_append_getLast? _ hc).symm
  · exact .inl rfl

theorem hexDigit_of_mem {s : JsString} (h : (T.characters s).all isHexDigit = true) {u : UInt16}
    (hu : u ∈ s) : isHexDigit [u] = true := by
  rw [← hT.flatten s] at hu
  obtain ⟨c, hc, hu⟩ := List.mem_flatten.mp hu
  have hhex := List.all_eq_true.mp h c hc
  match c, hu with
  | [v], hu => rwa [List.mem_singleton.mp hu]
  | v :: w :: c, _ => cases hhex

/-- The units of a line that is read. -/
theorem flatten_of_reads (h : Reads T raw digest path) :
    raw.flatten = digest ++ 32 :: 32 :: path ∨
      raw.flatten = digest ++ 32 :: 32 :: path ++ [13] ∧ raw.getLast? = some [13] := by
  have hbare : (bare T raw).flatten = digest ++ 32 :: 32 :: path := by
    have htake : (bare T raw).take 64 ++ ((bare T raw).drop 64).take 2 ++ (bare T raw).drop 66 =
        bare T raw := by
      rw [← List.take_add, List.take_append_drop]
    rw [← htake, List.flatten_append, List.flatten_append, h.digits, h.separator, h.rest,
      List.append_assoc]
    rfl
  obtain heq | heq := bare_cases hT raw
  · rw [heq] at hbare
    exact .inl hbare
  · refine .inr ⟨?_, ?_⟩
    · rw [heq, List.flatten_append, hbare]
      rfl
    · rw [heq, List.getLast?_concat]

omit hT in
theorem path_of_reads (h : Reads T raw digest path) : path ≠ [] := by
  rintro rfl
  have hsafe := h.safe
  rw [isSafeArchivePath] at hsafe
  cases hsafe

/-- A line that is read begins with a hexadecimal digit. -/
theorem head_of_reads (h : Reads T raw digest path) (hraw : ∀ c ∈ raw, c ≠ []) :
    ∃ u s, raw.flatten = u :: s ∧ isHexDigit [u] = true := by
  have hne : digest ≠ [] := by
    intro hnil
    have hlong := h.long
    have hflatten := h.digits
    rw [hnil, List.flatten_eq_nil_iff] at hflatten
    cases hbare : bare T raw with
    | nil =>
      rw [hbare] at hlong
      cases hlong
    | cons c cs =>
      rw [hbare] at hflatten
      have hc : c ∈ raw := by
        obtain heq | heq := bare_cases hT raw
        · rw [← heq, hbare]
          exact List.mem_cons_self
        · rw [heq, hbare]
          exact List.mem_append_left _ List.mem_cons_self
      exact hraw c hc (hflatten c (by simp))
  obtain ⟨u, s, rfl⟩ := List.exists_cons_of_ne_nil hne
  have hu : isHexDigit [u] = true := hexDigit_of_mem hT h.hex List.mem_cons_self
  obtain heq | ⟨heq, -⟩ := flatten_of_reads hT h
  · exact ⟨u, _, heq, hu⟩
  · exact ⟨u, _, heq, hu⟩

/-- A line that is read has no line feed within. -/
theorem feed_of_reads (h : Reads T raw digest path) : (10 : UInt16) ∉ raw.flatten := by
  have hdigest : (10 : UInt16) ∉ digest := fun hmem => by
    have hhex := hexDigit_of_mem hT h.hex hmem
    cases hhex
  have hpath : (10 : UInt16) ∉ path := not_mem_of_safe h.safe (by decide) (by decide)
  obtain heq | ⟨heq, -⟩ := flatten_of_reads hT h
  · rw [heq]
    simp [hdigest, hpath]
  · rw [heq]
    simp [hdigest, hpath]

/-- A carriage return at its end is a Character. -/
theorem return_of_reads (h : Reads T raw digest path) (hlast : raw.flatten.getLast? = some 13) :
    raw.getLast? = some [13] := by
  obtain heq | ⟨-, heq⟩ := flatten_of_reads hT h
  · have hpath := path_of_reads h
    obtain ⟨path, u, rfl⟩ := (List.eq_nil_or_concat' path).resolve_left hpath
    have hu : u = 13 := by
      rw [heq] at hlast
      simpa [List.getLast?_cons] using hlast
    have hmem : (13 : UInt16) ∉ path ++ [u] := not_mem_of_safe h.safe (by decide) (by decide)
    exact absurd (by simp [hu]) hmem
  · exact heq

omit hT in
theorem digit_of_sha256 (h : isSha256 digest = true) {u : UInt16} (hu : u ∈ digest) :
    48 ≤ u.toNat ∧ u.toNat < 58 ∨ 97 ≤ u.toNat ∧ u.toNat < 103 := by
  simpa only [isLowerHex, decide_eq_true_eq] using isSha256_isLowerHex h u hu

omit hT in
theorem printable_of_sha256 (h : isSha256 digest = true) : digest.all isPrintable = true := by
  rw [List.all_eq_true]
  intro u hu
  have hdigit := digit_of_sha256 h hu
  simp only [isPrintable, decide_eq_true_eq]
  omega

theorem hexDigits_of_sha256 (h : isSha256 digest = true) :
    (T.characters digest).all isHexDigit = true := by
  rw [characters_ascii hT (printable_of_sha256 h), List.all_map, List.all_eq_true]
  intro u hu
  have hdigit := digit_of_sha256 h hu
  simp only [Function.comp_apply, isHexDigit, Bool.or_eq_true, decide_eq_true_eq]
  omega

omit hT in
theorem lowercased_of_sha256 (h : isSha256 digest = true) : lowercased digest = digest := by
  rw [lowercased]
  conv_rhs => rw [← List.map_id digest]
  refine List.map_congr_left fun u hu => ?_
  have hdigit := digit_of_sha256 h hu
  rw [if_neg (by omega), id]

theorem characters_line (hdigest : isSha256 digest = true) (hstarts : Starts T path) :
    T.characters (digest ++ 32 :: 32 :: path) =
      digest.map (fun u => [u]) ++ [32] :: [32] :: T.characters path := by
  have hspace : isPrintable 32 = true := by decide
  have hprintable : (digest ++ [32, 32]).all isPrintable = true := by
    rw [List.all_append, printable_of_sha256 hdigest]
    decide
  have hline := characters_printable hT hprintable hstarts
  rwa [List.append_assoc, List.map_append, List.append_assoc] at hline

theorem reads_of_bare (hdigest : isSha256 digest = true) (hsafe : isSafeArchivePath T path = true)
    (hbare : bare T raw = digest.map (fun u => [u]) ++ [32] :: [32] :: T.characters path) :
    Reads T raw digest path := by
  have hlength : (digest.map fun u => [u]).length = 64 := by
    rw [List.length_map, isSha256_length hdigest]
  have hpath : T.characters path ≠ [] := by
    intro hnil
    have hflatten := hT.flatten path
    rw [hnil] at hflatten
    cases hflatten
    rw [isSafeArchivePath] at hsafe
    cases hsafe
  refine ⟨?_, ?_, ?_, ?_, hexDigits_of_sha256 hT hdigest, ?_, hsafe⟩
  · rw [hbare, List.length_append, hlength]
    have hpos := List.length_pos_of_ne_nil hpath
    simp only [List.length_cons]
    omega
  · rw [hbare, List.take_left' hlength, ← List.flatMap_def, List.flatMap_singleton']
  · rw [hbare, List.drop_left' hlength]
    rfl
  · rw [hbare, List.drop_append, hlength, List.drop_eq_nil_of_le (by omega)]
    exact hT.flatten path
  · rw [lowercased_of_sha256 hdigest, Tables.same, beq_self_eq_true]

theorem reads_line (hdigest : isSha256 digest = true) (hstarts : Starts T path)
    (hsafe : isSafeArchivePath T path = true) :
    Reads T (T.characters (digest ++ 32 :: 32 :: path)) digest path := by
  refine reads_of_bare hT hdigest hsafe ?_
  obtain heq | heq := bare_cases hT (T.characters (digest ++ 32 :: 32 :: path))
  · rw [heq, characters_line hT hdigest hstarts]
  · -- no carriage return stands at the end of a safe path
    have hlast : (digest ++ 32 :: 32 :: path).getLast? = some 13 := by
      rw [← hT.flatten (digest ++ 32 :: 32 :: path), heq, List.flatten_append]
      exact List.getLast?_concat
    obtain ⟨path, u, rfl⟩ := (List.eq_nil_or_concat' path).resolve_left (by
      rintro rfl
      rw [isSafeArchivePath] at hsafe
      cases hsafe)
    have hu : u = 13 := by simpa [List.getLast?_cons] using hlast
    have hmem : (13 : UInt16) ∉ path ++ [u] := not_mem_of_safe hsafe (by decide) (by decide)
    exact absurd (by simp [hu]) hmem

theorem reads_return (hdigest : isSha256 digest = true) (hstarts : Starts T path)
    (hsafe : isSafeArchivePath T path = true) :
    Reads T (T.characters (digest ++ 32 :: 32 :: path ++ [13])) digest path := by
  refine reads_of_bare hT hdigest hsafe ?_
  rw [characters_return hT, bare, List.getLast?_concat, Option.any_some, (same_iff hT rfl).mpr rfl,
    if_pos rfl, List.dropLast_concat, characters_line hT hdigest hstarts]

/-- What the client takes from a line of the server. -/
theorem line_of_reads {rest d : JsString} (hdigest : isSha256 digest = true)
    (h : Reads T (T.characters (digest ++ 32 :: 32 :: rest)) d path) :
    d = digest ∧ Starts T rest ∧ (rest = path ∨ rest = path ++ [13]) := by
  have htake : ∀ n ≤ 66, (bare T (T.characters (digest ++ 32 :: 32 :: rest))).take n =
      (T.characters (digest ++ 32 :: 32 :: rest)).take n := by
    intro n hn
    obtain heq | heq := bare_cases hT (T.characters (digest ++ 32 :: 32 :: rest))
    · rw [heq]
    · have hlong := h.long
      conv_rhs => rw [heq]
      rw [List.take_append_of_le_length (by omega)]
  have hlength : (digest.map fun u => [u]).length = 64 := by
    rw [List.length_map, isSha256_length hdigest]
  have hspace : Starts T (32 :: rest) := starts_printable hT (by decide) rest
  have hcharacters : T.characters (digest ++ 32 :: 32 :: rest) =
      digest.map (fun u => [u]) ++ [32] :: T.characters (32 :: rest) := by
    have hprintable : (digest ++ [32]).all isPrintable = true := by
      rw [List.all_append, printable_of_sha256 hdigest]
      decide
    have hline := characters_printable hT hprintable hspace
    rwa [List.append_assoc, List.map_append, List.append_assoc] at hline
  have hd : d = digest := by
    rw [← h.digits, htake 64 (by omega), hcharacters, List.take_left' hlength, ← List.flatMap_def,
      List.flatMap_singleton']
  have hstarts : Starts T rest := by
    by_contra hstays
    refine hT.joined 32 rest (by decide) hstays ?_
    have hseparator := h.separator
    rw [List.take_drop, htake 66 (by omega), hcharacters, List.drop_take,
      List.drop_left' hlength] at hseparator
    cases hcs : T.characters (32 :: rest) with
    | nil =>
      have hflatten := hT.flatten (32 :: rest)
      rw [hcs] at hflatten
      cases hflatten
    | cons c cs =>
      rw [hcs] at hseparator
      have hc : 32 :: (c ++ []) = [32, 32] := hseparator
      rw [List.append_nil] at hc
      rw [List.head?_cons, (List.cons.inj hc).2]
  refine ⟨hd, hstarts, ?_⟩
  have hunits := flatten_of_reads hT h
  rw [hT.flatten, hd] at hunits
  obtain hunits | ⟨hunits, -⟩ := hunits
  · exact .inl (by simpa using hunits)
  · rw [List.append_assoc] at hunits
    exact .inr (by simpa using hunits)

end Reading

/-! ## The checksum file -/

section File

variable (hT : Documented T)

include hT

theorem characters_eq_nil {s : JsString} : T.characters s = [] ↔ s = [] := by
  constructor
  · intro hnil
    rw [← hT.flatten s, hnil, List.flatten_nil]
  · rintro rfl
    exact characters_nil hT

theorem characters_intercalate {parts : List JsString}
    (h : ∀ part ∈ parts.dropLast, part.getLast? ≠ some 13) :
    T.characters ([10].intercalate parts) = [[10]].intercalate (parts.map T.characters) := by
  induction parts with
  | nil => exact characters_nil hT
  | cons p parts ih =>
    cases parts with
    | nil => simp
    | cons p' parts =>
      rw [List.map_cons, List.map_cons, List.intercalate_cons_cons, List.intercalate_cons_cons,
        List.append_assoc, List.singleton_append, characters_feed hT (h p List.mem_cons_self),
        ih fun part hpart => h part (List.mem_cons_of_mem _ hpart), List.map_cons]
      simp

/-- Without a CR-LF pair the client divides the text where the server does. -/
theorem lines_eq {s : JsString} (h : ∀ part ∈ (s.splitOn 10).dropLast, part.getLast? ≠ some 13) :
    lines T s = ((s.splitOn 10).filter (· != [])).map T.characters := by
  have hcharacters : T.characters s = [[10]].intercalate ((s.splitOn 10).map T.characters) := by
    rw [← characters_intercalate hT h, List.intercalate_splitOn]
  have hparts : (T.characters s).splitOn [10] = (s.splitOn 10).map T.characters := by
    rw [hcharacters]
    refine List.splitOn_intercalate _ ?_ (by simp)
    intro cs hcs hmem
    obtain ⟨part, hpart, rfl⟩ := List.mem_map.mp hcs
    exact not_mem_of_mem_splitOn hpart (mem_of_character hT hmem List.mem_cons_self)
  rw [lines, split_eq hT rfl, ← List.splitOn_eq_splitOnP, hparts, List.filter_map]
  congr 1
  refine List.filter_congr fun part _ => ?_
  rw [Function.comp_apply, Bool.eq_iff_iff, bne_iff_ne, bne_iff_ne, ne_eq, ne_eq,
    characters_eq_nil hT]

/-- A text whose lines are all read has no CR-LF pair. -/
theorem return_of_lines {s : JsString} (h : ∀ raw ∈ lines T s, ∃ digest path, Reads T raw digest path) :
    ∀ part ∈ (s.splitOn 10).dropLast, part.getLast? ≠ some 13 := by
  have hread : ∀ raw ∈ (T.characters s).splitOn [10], raw = [] ∨ ∃ digest path, Reads T raw digest path := by
    intro raw hraw
    by_cases hnil : raw = []
    · exact .inl hnil
    · refine .inr (h raw ?_)
      rw [lines, split_eq hT rfl, ← List.splitOn_eq_splitOnP, List.mem_filter]
      exact ⟨hraw, by simpa using hnil⟩
  have hparts : s.splitOn 10 = ((T.characters s).splitOn [10]).map List.flatten := by
    conv_lhs => rw [← hT.flatten s]
    refine splitOn_flatten fun raw hraw => ?_
    obtain rfl | ⟨digest, path, hreads⟩ := hread raw hraw
    · exact List.not_mem_nil
    · exact feed_of_reads hT hreads
  intro part hpart hlast
  rw [hparts, ← List.map_dropLast] at hpart
  obtain ⟨raw, hraw, rfl⟩ := List.mem_map.mp hpart
  obtain rfl | ⟨digest, path, hreads⟩ := hread raw (List.mem_of_mem_dropLast hraw)
  · cases hlast
  · obtain ⟨a, b, hab⟩ := intercalate_dropLast (x := [10]) hraw
    have hreturn := return_of_reads hT hreads hlast
    rw [List.intercalate_splitOn, ← List.dropLast_append_getLast? _ hreturn] at hab
    refine hT.crlf s (a ++ raw.dropLast) b ?_
    rw [hab]
    simp

end File

end Lines

end TrustCore.SwiftArchive
