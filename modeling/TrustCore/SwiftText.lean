import TrustCore.Dynamic

/-!
# Swift strings

A Swift string is compared and divided by Characters, the extended grapheme clusters of Unicode, and
`==` is canonical equivalence. A string is given here by its UTF-16 view. The tables of the platform
are not written out: what they say of ASCII, of line ends and of text in general is assumed.
-/

namespace TrustCore.Swift

open TrustCore.Utf TrustCore.Dynamic

/-- The Unicode tables of the platform. -/
structure Tables where
  /-- The Characters of a string. -/
  characters : JsString → List JsString
  /-- The normal form that `==` compares. -/
  normal : JsString → JsString
  /-- The scalars that stay with the Character before them. -/
  isExtending : Nat → Bool

/-- Printable ASCII, and the space. -/
def isPrintable (u : UInt16) : Bool := decide (32 ≤ u.toNat ∧ u.toNat < 127)

/-- ASCII that no other scalar decomposes to. -/
def isLiteral (s : JsString) : Bool :=
  s.all fun u => decide (u.toNat < 128) && !(u == 59 || u == 75 || u == 96)

/-- The first scalar is none that stays with the Character before it. -/
def Starts (T : Tables) (t : JsString) : Prop :=
  ∀ n, (scalars t).head? = some n → T.isExtending n = false

/-- Where a Character ends: around a line feed and before a carriage return, but not within a CR-LF
pair, and between printable ASCII and what does not stay with it. -/
inductive Boundary (T : Tables) (s t : JsString) : Prop where
  | afterFeed (h : s.getLast? = some 10)
  | beforeFeed (h : t.head? = some 10) (hreturn : s.getLast? ≠ some 13)
  | beforeReturn (h : t.head? = some 13)
  | printable (u : UInt16) (h : s.getLast? = some u) (hprintable : isPrintable u = true)
      (hstarts : Starts T t)

/-- What Unicode says of the tables. -/
structure Documented (T : Tables) : Prop where
  flatten : ∀ s, (T.characters s).flatten = s
  nonempty : ∀ s, ∀ c ∈ T.characters s, c ≠ []
  boundary : ∀ s t, Boundary T s t → T.characters (s ++ t) = T.characters s ++ T.characters t
  joined : ∀ u t, isPrintable u = true → ¬ Starts T t → (T.characters (u :: t)).head? ≠ some [u]
  crlf : ∀ s a b, T.characters s ≠ a ++ [13] :: [10] :: b
  ascii : ∀ n < 128, T.isExtending n = false
  literal : ∀ s t, isLiteral t = true → T.normal s = T.normal t → s = t
  longer : ∀ s t, T.normal (s ++ t) = T.normal s → t = []

/-- The general categories Cc and Cf, which `CharacterSet.controlCharacters` has. -/
def formatRanges : List (Nat × Nat) :=
  [(0xAD, 0xAD), (0x600, 0x605), (0x61C, 0x61C), (0x6DD, 0x6DD), (0x70F, 0x70F), (0x890, 0x891),
    (0x8E2, 0x8E2), (0x180E, 0x180E), (0x200B, 0x200F), (0x202A, 0x202E), (0x2060, 0x2064),
    (0x2066, 0x206F), (0xFEFF, 0xFEFF), (0xFFF9, 0xFFFB), (0x110BD, 0x110BD), (0x110CD, 0x110CD),
    (0x13430, 0x1343F), (0x1BCA0, 0x1BCA3), (0x1D173, 0x1D17A), (0xE0001, 0xE0001),
    (0xE0020, 0xE007F)]

def isControl (n : Nat) : Bool :=
  decide (n < 0x20) || decide (0x7F ≤ n ∧ n < 0xA0) ||
    formatRanges.any fun r => decide (r.1 ≤ n ∧ n ≤ r.2)

namespace Tables

variable (T : Tables)

/-- `s == t`. -/
def same (s t : JsString) : Bool := T.normal s == T.normal t

/-- `s.hasPrefix(t)`. -/
def hasPrefix (s t : JsString) : Bool :=
  ((T.characters s).take (T.characters t).length).map T.normal == (T.characters t).map T.normal

/-- `s.contains(c)`, of one Character. -/
def containsCharacter (s c : JsString) : Bool := (T.characters s).any fun x => T.same x c

/-- `s.split(separator: c)`, empty parts included. -/
def split (c : JsString) (s : List JsString) : List (List JsString) := s.splitOnP fun x => T.same x c

end Tables

/-! ## Characters -/

section Characters

variable {T : Tables} (hT : Documented T)

include hT

theorem characters_nil : T.characters [] = [] := by
  have hflatten := hT.flatten []
  rw [List.flatten_eq_nil_iff] at hflatten
  exact List.eq_nil_iff_forall_not_mem.mpr fun c hc => hT.nonempty [] c hc (hflatten c hc)

theorem characters_single (u : UInt16) : T.characters [u] = [[u]] := by
  have hflatten := hT.flatten [u]
  have hnonempty := hT.nonempty [u]
  cases hcs : T.characters [u] with
  | nil =>
    rw [hcs] at hflatten
    cases hflatten
  | cons c cs =>
    rw [hcs] at hflatten hnonempty
    cases c with
    | nil => exact absurd rfl (hnonempty [] List.mem_cons_self)
    | cons v c =>
      simp only [List.flatten_cons, List.cons_append, List.cons.injEq, List.append_eq_nil_iff] at hflatten
      obtain ⟨rfl, rfl, hrest⟩ := hflatten
      rw [List.flatten_eq_nil_iff] at hrest
      have hcs : cs = [] := List.eq_nil_iff_forall_not_mem.mpr fun d hd =>
        hnonempty d (List.mem_cons_of_mem _ hd) (hrest d hd)
      rw [hcs]

theorem same_iff {s t : JsString} (ht : isLiteral t = true) : T.same s t = true ↔ s = t := by
  rw [Tables.same, beq_iff_eq]
  exact ⟨hT.literal s t ht, fun h => h ▸ rfl⟩

/-- A Character of the string that is a literal one is found in it. -/
theorem contains_literal {s c : JsString} (hc : isLiteral c = true) :
    T.containsCharacter s c = true ↔ c ∈ T.characters s := by
  rw [Tables.containsCharacter, List.any_eq_true]
  constructor
  · rintro ⟨x, hx, hsame⟩
    rwa [← (same_iff hT hc).mp hsame]
  · exact fun h => ⟨c, h, (same_iff hT hc).mpr rfl⟩

theorem mem_of_character {s c : JsString} {u : UInt16} (hc : c ∈ T.characters s) (hu : u ∈ c) :
    u ∈ s := by
  rw [← hT.flatten s]
  exact List.mem_flatten.mpr ⟨c, hc, hu⟩

theorem split_eq {c : JsString} (hc : isLiteral c = true) (s : List JsString) :
    T.split c s = s.splitOnP (· == c) := by
  have hsame : (fun x => T.same x c) = (· == c) := by
    funext x
    rw [Bool.eq_iff_iff, same_iff hT hc, beq_iff_eq]
  rw [Tables.split, hsame]

theorem starts_printable {u : UInt16} (hu : isPrintable u = true) (t : JsString) :
    Starts T (u :: t) := by
  have hascii : u.toNat < 127 ∧ isHighSurrogate u = false ∧ isSurrogate u = false := by
    simp only [isPrintable, decide_eq_true_eq] at hu
    have hhigh : isHighSurrogate u = false := by
      simp only [isHighSurrogate, decide_eq_false_iff_not]
      omega
    have hlow : isLowSurrogate u = false := by
      simp only [isLowSurrogate, decide_eq_false_iff_not]
      omega
    exact ⟨hu.2, hhigh, by rw [isSurrogate, hhigh, hlow]; rfl⟩
  intro n hn
  have hhead : (scalars (u :: t)).head? = some u.toNat := by
    cases t with
    | nil => simp [scalars, hascii]
    | cons v t => simp [scalars, hascii]
  rw [hhead, Option.some.injEq] at hn
  exact hT.ascii n (by omega)

/-- Printable ASCII is divided into its units. -/
theorem characters_printable {s t : JsString} (hs : s.all isPrintable = true) (ht : Starts T t) :
    T.characters (s ++ t) = s.map (fun u => [u]) ++ T.characters t := by
  induction s with
  | nil => rfl
  | cons u s ih =>
    rw [List.all_cons, Bool.and_eq_true] at hs
    have hstarts : Starts T (s ++ t) := by
      cases s with
      | nil => exact ht
      | cons v s =>
        rw [List.all_cons, Bool.and_eq_true] at hs
        exact starts_printable hT hs.2.1 (s ++ t)
    have hfirst : T.characters ([u] ++ (s ++ t)) = T.characters [u] ++ T.characters (s ++ t) :=
      hT.boundary _ _ (.printable u rfl hs.1 hstarts)
    rw [List.cons_append, List.map_cons, List.cons_append, ← ih hs.2]
    rwa [characters_single hT] at hfirst

theorem characters_ascii {s : JsString} (hs : s.all isPrintable = true) :
    T.characters s = s.map fun u => [u] := by
  have hstarts : Starts T [] := fun n hn => by cases hn
  have happend := characters_printable hT hs hstarts
  rwa [List.append_nil, characters_nil hT, List.append_nil] at happend

/-- A line feed ends a line. -/
theorem characters_feed {s t : JsString} (hs : s.getLast? ≠ some 13) :
    T.characters (s ++ 10 :: t) = T.characters s ++ [10] :: T.characters t := by
  have hfeed : T.characters ([10] ++ t) = T.characters [10] ++ T.characters t :=
    hT.boundary _ _ (.afterFeed rfl)
  rw [characters_single hT] at hfeed
  rw [hT.boundary s (10 :: t) (.beforeFeed rfl hs)]
  exact congrArg (T.characters s ++ ·) hfeed

theorem characters_return (s : JsString) : T.characters (s ++ [13]) = T.characters s ++ [[13]] := by
  rw [hT.boundary s [13] (.beforeReturn rfl), characters_single hT]

theorem map_normal_literal {cs : List JsString} {t : JsString} (ht : isLiteral t = true) :
    cs.map T.normal = (t.map fun u => [u]).map T.normal ↔ cs = t.map fun u => [u] := by
  refine ⟨fun h => ?_, fun h => h ▸ rfl⟩
  induction t generalizing cs with
  | nil => simpa using h
  | cons u t ih =>
    rw [isLiteral, List.all_cons, Bool.and_eq_true] at ht
    cases cs with
    | nil => cases h
    | cons c cs =>
      simp only [List.map_cons, List.cons.injEq] at h ⊢
      have hunit : isLiteral [u] = true := by
        rw [isLiteral, List.all_cons, ht.1]
        rfl
      exact ⟨hT.literal c [u] hunit h.1, ih ht.2 h.2⟩

/-- What stays with the last unit of printable ASCII is not divided from it. -/
theorem starts_of_characters {t rest : JsString} {cs : List JsString}
    (ht : t.all isPrintable = true) (hne : t ≠ [])
    (h : T.characters (t ++ rest) = t.map (fun u => [u]) ++ cs) : Starts T rest := by
  obtain ⟨t, u, rfl⟩ := (List.eq_nil_or_concat' t).resolve_left hne
  rw [List.all_append, Bool.and_eq_true] at ht
  have hu : isPrintable u = true := by simpa using ht.2
  by_contra hstays
  refine hT.joined u rest hu hstays ?_
  rw [List.append_assoc, List.singleton_append,
    characters_printable hT ht.1 (starts_printable hT hu rest), List.map_append, List.append_assoc,
    List.append_cancel_left_eq] at h
  rw [h]
  rfl

theorem hasPrefix_iff {s t : JsString} (ht : isLiteral t = true) (hprintable : t.all isPrintable = true)
    (hne : t ≠ []) : T.hasPrefix s t = true ↔ ∃ rest, s = t ++ rest ∧ Starts T rest := by
  rw [Tables.hasPrefix, beq_iff_eq, characters_ascii hT hprintable, List.length_map,
    map_normal_literal hT ht]
  constructor
  · intro htake
    have hcharacters : T.characters s =
        t.map (fun u => [u]) ++ (T.characters s).drop t.length := by
      rw [← htake, List.take_append_drop]
    have hs : s = t ++ ((T.characters s).drop t.length).flatten := by
      have hflatten := congrArg List.flatten hcharacters
      rwa [hT.flatten, List.flatten_append, ← List.flatMap_def, List.flatMap_singleton'] at hflatten
    have hsplit : T.characters (t ++ ((T.characters s).drop t.length).flatten) =
        t.map (fun u => [u]) ++ (T.characters s).drop t.length := by
      rw [← hs]
      exact hcharacters
    exact ⟨_, hs, starts_of_characters hT hprintable hne hsplit⟩
  · rintro ⟨rest, rfl, hstarts⟩
    rw [characters_printable hT hprintable hstarts, List.take_left' (List.length_map _)]

end Characters

end TrustCore.Swift
