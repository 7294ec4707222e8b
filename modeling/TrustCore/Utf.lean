import Mathlib.Data.List.Basic
import Mathlib.Tactic.Ring
import Mathlib.Tactic.SplitIfs

/-!
# ECMAScript strings and UTF-8

An ECMAScript string is an arbitrary sequence of UTF-16 code units, paired or
not. `textEncode` is the UTF-8 encoder of the platform (unpaired surrogates
become U+FFFD) and `textDecode` its fatal decoder, one byte at a time with the
boundaries of the Encoding Standard. Decoding inverts encoding exactly on the
strings without unpaired surrogates that do not start with a byte order mark.
-/

namespace TrustCore.Utf

abbrev JsString := List UInt16

abbrev Bytes := List UInt8

instance lawfulBEqString : LawfulBEq JsString := inferInstance

/-- A statement about the units of a string is decided unit by unit, not over all units. -/
instance (priority := high) decidableUnits (p : UInt16 → Prop) [DecidablePred p] (s : JsString) :
    Decidable (∀ u ∈ s, p u) := List.decidableBAll p s

def isHighSurrogate (u : UInt16) : Bool := decide (0xD800 ≤ u.toNat ∧ u.toNat < 0xDC00)

def isLowSurrogate (u : UInt16) : Bool := decide (0xDC00 ≤ u.toNat ∧ u.toNat < 0xE000)

def isSurrogate (u : UInt16) : Bool := isHighSurrogate u || isLowSurrogate u

/-- The supplementary code point of a surrogate pair. -/
def pairScalar (u v : UInt16) : Nat :=
  0x10000 + (u.toNat - 0xD800) * 0x400 + (v.toNat - 0xDC00)

/-- Conversion to Unicode scalar values, unpaired surrogates replaced. -/
def scalars : JsString → List Nat
  | [] => []
  | [u] => [if isSurrogate u then 0xFFFD else u.toNat]
  | u :: v :: rest =>
    if isHighSurrogate u && isLowSurrogate v then pairScalar u v :: scalars rest
    else (if isSurrogate u then 0xFFFD else u.toNat) :: scalars (v :: rest)

/-- `String.prototype.isWellFormed`: no unpaired surrogate. -/
def isWellFormed : JsString → Bool
  | [] => true
  | [u] => !isSurrogate u
  | u :: v :: rest =>
    if isHighSurrogate u && isLowSurrogate v then isWellFormed rest
    else !isSurrogate u && isWellFormed (v :: rest)

def scalarUnits (n : Nat) : JsString :=
  if n < 0x10000 then [.ofNat n]
  else [.ofNat (0xD800 + (n - 0x10000) / 0x400), .ofNat (0xDC00 + (n - 0x10000) % 0x400)]

def fromScalars (ns : List Nat) : JsString := ns.flatMap scalarUnits

/-- A text that a truth test lets through. -/
def truthy (s : Option JsString) : Option JsString := s.filter fun t => !t.isEmpty

theorem truthy_eq_some {s : JsString} (h : s ≠ []) : truthy (some s) = some s := by
  cases s with
  | nil => exact absurd rfl h
  | cons u s => rfl

/-- The lower case of an ASCII letter. -/
def lowerUnit (u : UInt16) : UInt16 := if 65 ≤ u.toNat ∧ u.toNat ≤ 90 then u + 32 else u

/-- A code unit string with the text of a literal. -/
def js (s : String) : JsString := fromScalars (s.toList.map Char.toNat)

def encodeScalar (n : Nat) : Bytes :=
  if n < 0x80 then [.ofNat n]
  else if n < 0x800 then [.ofNat (0xC0 + n / 64), .ofNat (0x80 + n % 64)]
  else if n < 0x10000 then
    [.ofNat (0xE0 + n / 4096), .ofNat (0x80 + n / 64 % 64), .ofNat (0x80 + n % 64)]
  else
    [.ofNat (0xF0 + n / 262144), .ofNat (0x80 + n / 4096 % 64), .ofNat (0x80 + n / 64 % 64),
      .ofNat (0x80 + n % 64)]

/-- `TextEncoder.encode`, also the reading of a string by a hash function. -/
def textEncode (s : JsString) : Bytes := (scalars s).flatMap encodeScalar

/-- The partial code point of the decoder, with the bounds of the next byte. -/
structure Decoder where
  codePoint : Nat := 0
  needed : Nat := 0
  lower : Nat := 0x80
  upper : Nat := 0xBF
  deriving DecidableEq, Repr

/-- One byte: the next decoder and the code point it completes, if any. -/
def decodeByte (d : Decoder) (b : Nat) : Option (Decoder × List Nat) :=
  match d.needed with
  | 0 =>
    if b < 0x80 then some ({}, [b])
    else if 0xC2 ≤ b ∧ b < 0xE0 then some ({ codePoint := b - 0xC0, needed := 1 }, [])
    else if 0xE0 ≤ b ∧ b < 0xF0 then
      some (⟨b - 0xE0, 2, if b = 0xE0 then 0xA0 else 0x80, if b = 0xED then 0x9F else 0xBF⟩, [])
    else if 0xF0 ≤ b ∧ b < 0xF5 then
      some (⟨b - 0xF0, 3, if b = 0xF0 then 0x90 else 0x80, if b = 0xF4 then 0x8F else 0xBF⟩, [])
    else none
  | k + 1 =>
    if d.lower ≤ b ∧ b ≤ d.upper then
      let c := d.codePoint * 64 + (b - 0x80)
      if k = 0 then some ({}, [c]) else some ({ codePoint := c, needed := k }, [])
    else none

def decodeScalars (d : Decoder) : Bytes → Option (List Nat)
  | [] => if d.needed = 0 then some [] else none
  | b :: bs =>
    match decodeByte d b.toNat with
    | none => none
    | some (d', ns) => (decodeScalars d' bs).map (ns ++ ·)

def stripBom : Bytes → Bytes
  | 0xEF :: 0xBB :: 0xBF :: rest => rest
  | bs => bs

/-- `TextDecoder("utf-8", { fatal: true }).decode`. -/
def textDecode (bs : Bytes) : Option JsString := (decodeScalars {} (stripBom bs)).map fromScalars

/-- A Unicode scalar value: a code point outside the surrogates. -/
def IsScalar (n : Nat) : Prop := n < 0xD800 ∨ (0xE000 ≤ n ∧ n < 0x110000)

theorem decode_one (n : Nat) (h : n < 0x80) (rest : Bytes) :
    decodeScalars {} (encodeScalar n ++ rest) = (decodeScalars {} rest).map (n :: ·) := by
  have hb : (UInt8.ofNat n).toNat = n := by simp; omega
  simp [encodeScalar, h, decodeScalars, decodeByte, hb]

theorem decode_two (n : Nat) (h₁ : 0x80 ≤ n) (h₂ : n < 0x800) (rest : Bytes) :
    decodeScalars {} (encodeScalar n ++ rest) = (decodeScalars {} rest).map (n :: ·) := by
  have ha : (UInt8.ofNat (0xC0 + n / 64)).toNat = 0xC0 + n / 64 := by simp; omega
  have hb : (UInt8.ofNat (0x80 + n % 64)).toNat = 0x80 + n % 64 := by simp; omega
  have hn : n / 64 * 64 + n % 64 = n := by omega
  rw [encodeScalar, if_neg (by omega), if_pos h₂]
  simp only [List.cons_append, List.nil_append, decodeScalars, decodeByte, ha, hb]
  rw [if_neg (by omega), if_pos (by omega)]
  simp only [Nat.add_sub_cancel_left]
  rw [if_pos (by omega)]
  simp [hn, Function.comp_def]

theorem decode_three (n : Nat) (h₁ : 0x800 ≤ n) (h₂ : n < 0x10000)
    (hs : n < 0xD800 ∨ 0xE000 ≤ n) (rest : Bytes) :
    decodeScalars {} (encodeScalar n ++ rest) = (decodeScalars {} rest).map (n :: ·) := by
  have ha : (UInt8.ofNat (0xE0 + n / 4096)).toNat = 0xE0 + n / 4096 := by simp; omega
  have hb : (UInt8.ofNat (0x80 + n / 64 % 64)).toNat = 0x80 + n / 64 % 64 := by simp; omega
  have hc : (UInt8.ofNat (0x80 + n % 64)).toNat = 0x80 + n % 64 := by simp; omega
  have hn : (n / 4096 * 64 + n / 64 % 64) * 64 + n % 64 = n := by omega
  have hlow : (if 0xE0 + n / 4096 = 0xE0 then 0xA0 else 0x80) ≤ 0x80 + n / 64 % 64 := by
    split <;> omega
  have hup : 0x80 + n / 64 % 64 ≤ (if 0xE0 + n / 4096 = 0xED then 0x9F else 0xBF) := by
    split <;> omega
  rw [encodeScalar, if_neg (by omega), if_neg (by omega), if_pos h₂]
  simp only [List.cons_append, List.nil_append, decodeScalars, decodeByte, ha, hb, hc]
  rw [if_neg (by omega), if_neg (by omega), if_pos (by omega)]
  simp only [Nat.add_sub_cancel_left]
  rw [if_pos ⟨hlow, hup⟩]
  simp only [Nat.succ_ne_zero, ↓reduceIte, Option.map_map]
  rw [if_pos (by omega)]
  simp [hn, Function.comp_def]

theorem decode_four (n : Nat) (h₁ : 0x10000 ≤ n) (h₂ : n < 0x110000) (rest : Bytes) :
    decodeScalars {} (encodeScalar n ++ rest) = (decodeScalars {} rest).map (n :: ·) := by
  have ha : (UInt8.ofNat (0xF0 + n / 262144)).toNat = 0xF0 + n / 262144 := by simp; omega
  have hb : (UInt8.ofNat (0x80 + n / 4096 % 64)).toNat = 0x80 + n / 4096 % 64 := by simp; omega
  have hc : (UInt8.ofNat (0x80 + n / 64 % 64)).toNat = 0x80 + n / 64 % 64 := by simp; omega
  have hd : (UInt8.ofNat (0x80 + n % 64)).toNat = 0x80 + n % 64 := by simp; omega
  have hn : ((n / 262144 * 64 + n / 4096 % 64) * 64 + n / 64 % 64) * 64 + n % 64 = n := by omega
  have hlow : (if 0xF0 + n / 262144 = 0xF0 then 0x90 else 0x80) ≤ 0x80 + n / 4096 % 64 := by
    split <;> omega
  have hup : 0x80 + n / 4096 % 64 ≤ (if 0xF0 + n / 262144 = 0xF4 then 0x8F else 0xBF) := by
    split <;> omega
  rw [encodeScalar, if_neg (by omega), if_neg (by omega), if_neg (by omega)]
  simp only [List.cons_append, List.nil_append, decodeScalars, decodeByte, ha, hb, hc, hd]
  rw [if_neg (by omega), if_neg (by omega), if_neg (by omega), if_pos (by omega)]
  simp only [Nat.add_sub_cancel_left]
  rw [if_pos ⟨hlow, hup⟩]
  simp only [Nat.succ_ne_zero, ↓reduceIte, Option.map_map]
  rw [if_pos (by omega)]
  simp only [Option.map_map]
  rw [if_pos (by omega)]
  simp [hn, Function.comp_def]

/-- The decoder reads back one encoded scalar value and nothing more. -/
theorem decode_encodeScalar (n : Nat) (h : IsScalar n) (rest : Bytes) :
    decodeScalars {} (encodeScalar n ++ rest) = (decodeScalars {} rest).map (n :: ·) := by
  by_cases h₁ : n < 0x80
  · exact decode_one n h₁ rest
  by_cases h₂ : n < 0x800
  · exact decode_two n (by omega) h₂ rest
  by_cases h₃ : n < 0x10000
  · exact decode_three n (by omega) h₃ (by unfold IsScalar at h; omega) rest
  · exact decode_four n (by omega) (by unfold IsScalar at h; omega) rest

theorem decode_scalars (ns : List Nat) (h : ∀ n ∈ ns, IsScalar n) :
    decodeScalars {} (ns.flatMap encodeScalar) = some ns := by
  induction ns with
  | nil => rfl
  | cons n ns ih =>
    rw [List.flatMap_cons, decode_encodeScalar n (h n (by simp)),
      ih (fun m hm => h m (by simp [hm]))]
    rfl

theorem toNat_lt (u : UInt16) : u.toNat < 0x10000 := u.toNat_lt

theorem isSurrogate_iff (u : UInt16) :
    isSurrogate u = true ↔ 0xD800 ≤ u.toNat ∧ u.toNat < 0xE000 := by
  simp only [isSurrogate, isHighSurrogate, isLowSurrogate, Bool.or_eq_true, decide_eq_true_eq]
  omega

theorem pair_bounds {u v : UInt16} (h : (isHighSurrogate u && isLowSurrogate v) = true) :
    0xD800 ≤ u.toNat ∧ u.toNat < 0xDC00 ∧ 0xDC00 ≤ v.toNat ∧ v.toNat < 0xE000 := by
  simp only [isHighSurrogate, isLowSurrogate, Bool.and_eq_true, decide_eq_true_eq] at h
  omega

theorem lone_isScalar (u : UInt16) : IsScalar (if isSurrogate u then 0xFFFD else u.toNat) := by
  have hu := toNat_lt u
  split
  · exact Or.inr (by omega)
  · rename_i h
    rw [isSurrogate_iff] at h
    unfold IsScalar
    omega

theorem scalars_isScalar (s : JsString) : ∀ n ∈ scalars s, IsScalar n := by
  induction s using scalars.induct with
  | case1 => simp [scalars]
  | case2 u =>
    intro n hn
    simp only [scalars, List.mem_singleton] at hn
    subst hn
    exact lone_isScalar u
  | case3 u v rest h ih =>
    intro n hn
    simp only [scalars, h, ↓reduceIte, List.mem_cons] at hn
    rcases hn with hn | hn
    · have hb := pair_bounds h
      unfold pairScalar at hn
      unfold IsScalar
      omega
    · exact ih n hn
  | case4 u v rest h ih =>
    intro n hn
    simp only [scalars, h, Bool.false_eq_true, ↓reduceIte, List.mem_cons] at hn
    rcases hn with rfl | hn
    · exact lone_isScalar u
    · exact ih n hn

theorem scalarUnits_unit (u : UInt16) : scalarUnits u.toNat = [u] := by
  rw [scalarUnits, if_pos (toNat_lt u), UInt16.ofNat_toNat]

theorem scalarUnits_pair {u v : UInt16} (h : (isHighSurrogate u && isLowSurrogate v) = true) :
    scalarUnits (pairScalar u v) = [u, v] := by
  have hb := pair_bounds h
  rw [scalarUnits, if_neg (by unfold pairScalar; omega)]
  have hu : 0xD800 + (pairScalar u v - 0x10000) / 0x400 = u.toNat := by unfold pairScalar; omega
  have hv : 0xDC00 + (pairScalar u v - 0x10000) % 0x400 = v.toNat := by unfold pairScalar; omega
  rw [hu, hv, UInt16.ofNat_toNat, UInt16.ofNat_toNat]

/-- A well formed string is determined by its scalar values. -/
theorem fromScalars_scalars (s : JsString) (h : isWellFormed s = true) :
    fromScalars (scalars s) = s := by
  induction s using scalars.induct with
  | case1 => rfl
  | case2 u =>
    simp only [isWellFormed, Bool.not_eq_true'] at h
    simp [fromScalars, scalars, h, scalarUnits_unit]
  | case3 u v rest hp ih =>
    simp only [isWellFormed, hp, ↓reduceIte] at h
    simpa [fromScalars, scalars, hp, scalarUnits_pair hp] using ih h
  | case4 u v rest hp ih =>
    simp only [isWellFormed, hp, Bool.false_eq_true, ↓reduceIte, Bool.and_eq_true,
      Bool.not_eq_true'] at h
    simpa [fromScalars, scalars, hp, h.1, scalarUnits_unit] using ih h.2

theorem isWellFormed_cons (u : UInt16) (s : JsString) (hu : isSurrogate u = false) :
    isWellFormed (u :: s) = isWellFormed s := by
  have hh : isHighSurrogate u = false := by
    simp only [isSurrogate, Bool.or_eq_false_iff] at hu
    exact hu.1
  cases s with
  | nil => simp [isWellFormed, hu]
  | cons v rest => simp [isWellFormed, hh, hu]

/-- Well formedness is compositional: no pair straddles two well formed strings. -/
theorem isWellFormed_append (s t : JsString) (hs : isWellFormed s = true)
    (ht : isWellFormed t = true) : isWellFormed (s ++ t) = true := by
  induction s using scalars.induct with
  | case1 => simpa using ht
  | case2 u =>
    simp only [isWellFormed, Bool.not_eq_true'] at hs
    simpa [isWellFormed_cons u t hs] using ht
  | case3 u v rest hp ih =>
    simp only [isWellFormed, hp, ↓reduceIte] at hs
    simpa [isWellFormed, hp] using ih hs
  | case4 u v rest hp ih =>
    simp only [isWellFormed, hp, Bool.false_eq_true, ↓reduceIte, Bool.and_eq_true,
      Bool.not_eq_true'] at hs
    rw [List.cons_append, isWellFormed_cons u _ hs.1]
    exact ih hs.2

theorem isWellFormed_scalarUnits {n : Nat} (h : IsScalar n) :
    isWellFormed (scalarUnits n) = true := by
  rw [scalarUnits]
  unfold IsScalar at h
  split
  · rename_i hn
    have hunit : isSurrogate (UInt16.ofNat n) = false := by
      rw [Bool.eq_false_iff, ne_eq, isSurrogate_iff, UInt16.toNat_ofNat_of_lt' hn]
      omega
    simp [isWellFormed, hunit]
  · have hpair : (isHighSurrogate (UInt16.ofNat (0xD800 + (n - 0x10000) / 0x400)) &&
        isLowSurrogate (UInt16.ofNat (0xDC00 + (n - 0x10000) % 0x400))) = true := by
      simp only [isHighSurrogate, isLowSurrogate, Bool.and_eq_true, decide_eq_true_eq]
      rw [UInt16.toNat_ofNat_of_lt' (by simp only [UInt16.size]; omega),
        UInt16.toNat_ofNat_of_lt' (by simp only [UInt16.size]; omega)]
      omega
    rw [isWellFormed, if_pos hpair]
    rfl

theorem isWellFormed_fromScalars {ns : List Nat} (h : ∀ n ∈ ns, IsScalar n) :
    isWellFormed (fromScalars ns) = true := by
  induction ns with
  | nil => rfl
  | cons n ns ih =>
    rw [fromScalars, List.flatMap_cons]
    exact isWellFormed_append _ _ (isWellFormed_scalarUnits (h n (by simp)))
      (ih fun m hm => h m (by simp [hm]))

theorem isWellFormed_of_forall (s : JsString) (h : ∀ u ∈ s, isSurrogate u = false) :
    isWellFormed s = true := by
  induction s with
  | nil => rfl
  | cons u s ih =>
    rw [isWellFormed_cons u s (h u (by simp))]
    exact ih (fun v hv => h v (by simp [hv]))

/-- Only U+FEFF encodes to the byte order mark, so nothing else is stripped. -/
theorem stripBom_encode (ns : List Nat) (h : ∀ n ∈ ns, IsScalar n)
    (hb : ns.head? ≠ some 0xFEFF) :
    stripBom (ns.flatMap encodeScalar) = ns.flatMap encodeScalar := by
  have hd := decode_scalars ns h
  unfold stripBom
  split
  · rename_i rest heq
    have hm : decodeScalars {} (0xEF :: 0xBB :: 0xBF :: rest) =
        (decodeScalars {} rest).map (0xFEFF :: ·) := by
      simp [decodeScalars, decodeByte, Function.comp_def]
    rw [heq, hm, Option.map_eq_some_iff] at hd
    obtain ⟨ms, -, rfl⟩ := hd
    exact False.elim (hb rfl)
  · rfl

theorem scalars_head (s : JsString) (h : s.head? ≠ some 0xFEFF) :
    (scalars s).head? ≠ some 0xFEFF := by
  have lone : ∀ u : UInt16, u ≠ 0xFEFF →
      (if isSurrogate u then 0xFFFD else u.toNat) ≠ 0xFEFF := by
    intro u hu
    split
    · decide
    · intro he
      apply hu
      rw [← UInt16.toNat_inj, he]
      rfl
  rcases s with _ | ⟨u, _ | ⟨v, rest⟩⟩
  · simp [scalars]
  · simpa [scalars] using lone u (by simpa using h)
  · by_cases hp : (isHighSurrogate u && isLowSurrogate v) = true
    · have hb := pair_bounds hp
      rw [scalars, if_pos hp, List.head?_cons, ne_eq, Option.some.injEq]
      unfold pairScalar
      omega
    · rw [scalars, if_neg hp, List.head?_cons, ne_eq, Option.some.injEq]
      exact lone u (by simpa using h)

/-- Decoding inverts encoding on well formed text that carries no leading mark. -/
theorem textDecode_textEncode (s : JsString) (hw : isWellFormed s = true)
    (hb : s.head? ≠ some 0xFEFF) : textDecode (textEncode s) = some s := by
  have hs := scalars_isScalar s
  rw [textDecode, textEncode, stripBom_encode _ hs (scalars_head s hb), decode_scalars _ hs,
    Option.map_some, fromScalars_scalars s hw]

theorem textEncode_injective {s t : JsString} (hs : isWellFormed s = true)
    (ht : isWellFormed t = true) (h : textEncode s = textEncode t) : s = t := by
  have hd := decode_scalars _ (scalars_isScalar s)
  have he := decode_scalars _ (scalars_isScalar t)
  rw [← textEncode, h, textEncode, he, Option.some.injEq] at hd
  rw [← fromScalars_scalars s hs, ← hd, fromScalars_scalars t ht]

theorem scalars_cons (u : UInt16) (s : JsString) (hu : isSurrogate u = false) :
    scalars (u :: s) = u.toNat :: scalars s := by
  have hh : isHighSurrogate u = false := by
    simp only [isSurrogate, Bool.or_eq_false_iff] at hu
    exact hu.1
  cases s with
  | nil => simp [scalars, hu]
  | cons v rest => simp [scalars, hh, hu]

theorem scalars_append (s t : JsString) (hs : isWellFormed s = true) :
    scalars (s ++ t) = scalars s ++ scalars t := by
  induction s using scalars.induct with
  | case1 => simp [scalars]
  | case2 u =>
    simp only [isWellFormed, Bool.not_eq_true'] at hs
    simp [scalars_cons u _ hs, scalars, hs]
  | case3 u v rest hp ih =>
    simp only [isWellFormed, hp, ↓reduceIte] at hs
    simp [scalars, hp, ih hs]
  | case4 u v rest hp ih =>
    simp only [isWellFormed, hp, Bool.false_eq_true, ↓reduceIte, Bool.and_eq_true,
      Bool.not_eq_true'] at hs
    rw [List.cons_append, scalars_cons u _ hs.1, ih hs.2, scalars_cons u _ hs.1,
      List.cons_append]

theorem textEncode_append (s t : JsString) (hs : isWellFormed s = true) :
    textEncode (s ++ t) = textEncode s ++ textEncode t := by
  rw [textEncode, scalars_append s t hs, List.flatMap_append, textEncode, textEncode]

/-- The code points a decoder may still complete are scalar values. -/
def Decoder.Fits (d : Decoder) : Prop :=
  d.needed = 0 ∨
    (d.needed = 1 ∧ ∀ b, d.lower ≤ b → b ≤ d.upper → IsScalar (d.codePoint * 64 + (b - 0x80))) ∨
    (d.needed = 2 ∧ ∀ b, d.lower ≤ b → b ≤ d.upper →
      d.codePoint * 64 + (b - 0x80) < 0x360 ∨
        (0x380 ≤ d.codePoint * 64 + (b - 0x80) ∧ d.codePoint * 64 + (b - 0x80) < 0x4400)) ∨
    (d.needed = 3 ∧ ∀ b, d.lower ≤ b → b ≤ d.upper →
      0x10 ≤ d.codePoint * 64 + (b - 0x80) ∧ d.codePoint * 64 + (b - 0x80) < 0x110)

theorem fits_decodeByte {d d' : Decoder} {b : Nat} {ns : List Nat} (hd : d.Fits)
    (h : decodeByte d b = some (d', ns)) : d'.Fits ∧ ∀ n ∈ ns, IsScalar n := by
  rw [decodeByte] at h
  split at h
  · split at h
    · obtain ⟨rfl, rfl⟩ := Prod.mk.inj (Option.some.inj h)
      refine ⟨Or.inl rfl, ?_⟩
      intro n hn
      rw [List.mem_singleton] at hn
      unfold IsScalar
      omega
    split at h
    · obtain ⟨rfl, rfl⟩ := Prod.mk.inj (Option.some.inj h)
      refine ⟨Or.inr (Or.inl ⟨rfl, ?_⟩), by simp⟩
      intro c _ _
      unfold IsScalar
      dsimp only at *
      omega
    split at h
    · obtain ⟨rfl, rfl⟩ := Prod.mk.inj (Option.some.inj h)
      refine ⟨Or.inr (Or.inr (Or.inl ⟨rfl, ?_⟩)), by simp⟩
      intro c hlower hupper
      dsimp only at hlower hupper ⊢
      split at hlower
      · split at hupper <;> omega
      · split at hupper <;> omega
    split at h
    · obtain ⟨rfl, rfl⟩ := Prod.mk.inj (Option.some.inj h)
      refine ⟨Or.inr (Or.inr (Or.inr ⟨rfl, ?_⟩)), by simp⟩
      intro c hlower hupper
      dsimp only at hlower hupper ⊢
      split at hlower
      · split at hupper <;> omega
      · split at hupper <;> omega
    · cases h
  · rename_i k hk
    split at h
    · rename_i hb
      split at h
      · rename_i hzero
        obtain ⟨rfl, rfl⟩ := Prod.mk.inj (Option.some.inj h)
        refine ⟨Or.inl rfl, ?_⟩
        intro n hn
        rw [List.mem_singleton] at hn
        rcases hd with hd | ⟨-, hd⟩ | ⟨hd, -⟩ | ⟨hd, -⟩
        · omega
        · rw [hn]
          exact hd b hb.1 hb.2
        · omega
        · omega
      · obtain ⟨rfl, rfl⟩ := Prod.mk.inj (Option.some.inj h)
        refine ⟨?_, by simp⟩
        rcases hd with hd | ⟨hd, -⟩ | ⟨hd, hpoint⟩ | ⟨hd, hpoint⟩
        · omega
        · omega
        · refine Or.inr (Or.inl ⟨by dsimp only; omega, ?_⟩)
          intro c hlower hupper
          have := hpoint b hb.1 hb.2
          unfold IsScalar
          dsimp only at hlower hupper ⊢
          omega
        · refine Or.inr (Or.inr (Or.inl ⟨by dsimp only; omega, ?_⟩))
          intro c hlower hupper
          have := hpoint b hb.1 hb.2
          dsimp only at hlower hupper ⊢
          omega
    · cases h

theorem isScalar_decodeScalars {bs : Bytes} {d : Decoder} {ns : List Nat} (hd : d.Fits)
    (h : decodeScalars d bs = some ns) : ∀ n ∈ ns, IsScalar n := by
  induction bs generalizing d ns with
  | nil =>
    rw [decodeScalars] at h
    split at h
    · cases h
      simp
    · cases h
  | cons b bs ih =>
    rw [decodeScalars] at h
    split at h
    · cases h
    · rename_i d' read hread
      obtain ⟨rest, hrest, rfl⟩ := Option.map_eq_some_iff.mp h
      obtain ⟨hd', hscalars⟩ := fits_decodeByte hd hread
      intro n hn
      rcases List.mem_append.mp hn with hn | hn
      · exact hscalars n hn
      · exact ih hd' hrest n hn

/-- What the decoder returns has no unpaired surrogate. -/
theorem isWellFormed_textDecode {bs : Bytes} {s : JsString} (h : textDecode bs = some s) :
    isWellFormed s = true := by
  obtain ⟨ns, hns, rfl⟩ := Option.map_eq_some_iff.mp h
  exact isWellFormed_fromScalars (isScalar_decodeScalars (Or.inl rfl) hns)

/-- A unit that is no surrogate separates what stands before it from what stands after. -/
theorem isWellFormed_append_cons {s t : JsString} {u : UInt16} (hu : isSurrogate u = false)
    (h : isWellFormed (s ++ u :: t) = true) : isWellFormed s = true ∧ isWellFormed t = true := by
  induction s using scalars.induct with
  | case1 =>
    rw [List.nil_append, isWellFormed_cons u t hu] at h
    exact ⟨rfl, h⟩
  | case2 v =>
    have hlow : isLowSurrogate u = false := (Bool.or_eq_false_iff.mp hu).2
    simp only [List.cons_append, List.nil_append, isWellFormed, hlow, Bool.and_false,
      Bool.false_eq_true, if_false, Bool.and_eq_true] at h
    rw [isWellFormed_cons u t hu] at h
    exact h
  | case3 v w rest hp ih =>
    simp only [List.cons_append, isWellFormed, hp, if_true] at h ⊢
    exact ih h
  | case4 v w rest hp ih =>
    simp only [List.cons_append, isWellFormed, hp, Bool.false_eq_true, if_false,
      Bool.and_eq_true] at h ⊢
    obtain ⟨hrest, ht⟩ := ih h.2
    exact ⟨⟨h.1, hrest⟩, ht⟩

end TrustCore.Utf
