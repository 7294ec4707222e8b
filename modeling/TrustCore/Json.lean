import Mathlib.Data.List.Sort
import Mathlib.Data.List.Forall2
import TrustCore.Numbers
import TrustCore.Sha256

/-!
# Values, canonical JSON text and its parser

`JsValue` is the untyped data the services exchange, `undefined` included. An
`Encoder` fixes the order of object keys and the text of an undefined item, the
two places where the canonical encoders differ. `parseJson` is `JSON.parse`.
Parsing the text of a JSON value gives the value back with its keys in encoder
order, whatever follows the text, so an encoded object is self delimiting.
-/

namespace TrustCore.Json

open TrustCore.Utf TrustCore.Numbers

inductive JsValue where
  | undefined
  | null
  | bool (b : Bool)
  | number (n : JsNumber)
  | string (s : JsString)
  | array (items : List JsValue)
  | object (members : List (JsString × JsValue))

/-- The order of `Array.prototype.sort` on strings: by code unit. -/
def unitsLe : JsString → JsString → Bool
  | [], _ => true
  | _ :: _, [] => false
  | u :: s, v :: t => decide (u.toNat < v.toNat) || (u == v && unitsLe s t)

/-- A canonical encoder: its key order, and what stands for an undefined item
of an array or member of an object (`none` refuses to encode it). -/
structure Encoder where
  keyLe : JsString → JsString → Bool
  undefinedItem : Option JsString
  undefinedMember : Option JsString

def unicodeEscape (u : UInt16) : JsString :=
  [92, 117, Sha256.hexDigit (u.toNat / 4096), Sha256.hexDigit (u.toNat / 256 % 16),
    Sha256.hexDigit (u.toNat / 16 % 16), Sha256.hexDigit (u.toNat % 16)]

def shortEscape (u : UInt16) : Option UInt16 :=
  if u = 8 then some 98
  else if u = 9 then some 116
  else if u = 10 then some 110
  else if u = 12 then some 102
  else if u = 13 then some 114
  else if u = 34 then some 34
  else if u = 92 then some 92
  else none

def escapeUnit (u : UInt16) : JsString :=
  match shortEscape u with
  | some c => [92, c]
  | none => if u.toNat < 32 || isSurrogate u then unicodeEscape u else [u]

/-- The body of `QuoteJSONString`: surrogate pairs stay, lone ones are escaped. -/
def quoteUnits : JsString → JsString
  | [] => []
  | [u] => escapeUnit u
  | u :: v :: rest =>
    if isHighSurrogate u && isLowSurrogate v then u :: v :: quoteUnits rest
    else escapeUnit u ++ quoteUnits (v :: rest)

def quote (s : JsString) : JsString := 34 :: (quoteUnits s ++ [34])

def joinComma : List JsString → JsString
  | [] => []
  | [t] => t
  | t :: ts => t ++ 44 :: joinComma ts

def memberText (m : JsString × JsString) : JsString := quote m.1 ++ 58 :: m.2

def sortByKey {α : Type} (E : Encoder) (ms : List (JsString × α)) : List (JsString × α) :=
  ms.insertionSort (fun a b => E.keyLe a.1 b.1 = true)

mutual
def encode (E : Encoder) : JsValue → Option JsString
  | .undefined => none
  | .null => some (js "null")
  | .bool b => some (if b then js "true" else js "false")
  | .number n => some (numberText n)
  | .string s => some (quote s)
  | .array xs => (encodeItems E xs).map fun ts => 91 :: (joinComma ts ++ [93])
  | .object ms =>
    (encodeMembers E ms).map fun ts => 123 :: (joinComma ((sortByKey E ts).map memberText) ++ [125])

def encodeItems (E : Encoder) : List JsValue → Option (List JsString)
  | [] => some []
  | x :: xs =>
    match encode E x <|> E.undefinedItem with
    | none => none
    | some t => (encodeItems E xs).map (t :: ·)

def encodeMembers (E : Encoder) : List (JsString × JsValue) → Option (List (JsString × JsString))
  | [] => some []
  | (k, x) :: ms =>
    match encode E x <|> E.undefinedMember with
    | none => none
    | some t => (encodeMembers E ms).map ((k, t) :: ·)
end

def isWhitespace (u : UInt16) : Bool := u == 9 || u == 10 || u == 13 || u == 32

def skipWhitespace : JsString → JsString
  | [] => []
  | u :: rest => if isWhitespace u then skipWhitespace rest else u :: rest

def hexValue (u : UInt16) : Option Nat :=
  if 48 ≤ u.toNat ∧ u.toNat < 58 then some (u.toNat - 48)
  else if 97 ≤ u.toNat ∧ u.toNat < 103 then some (u.toNat - 87)
  else if 65 ≤ u.toNat ∧ u.toNat < 71 then some (u.toNat - 55)
  else none

def unescape (c : UInt16) : Option UInt16 :=
  if c = 34 then some 34
  else if c = 92 then some 92
  else if c = 47 then some 47
  else if c = 98 then some 8
  else if c = 102 then some 12
  else if c = 110 then some 10
  else if c = 114 then some 13
  else if c = 116 then some 9
  else none

def unicodeUnit (a b c d : UInt16) : Option UInt16 :=
  match hexValue a, hexValue b, hexValue c, hexValue d with
  | some a, some b, some c, some d => some (.ofNat (((a * 16 + b) * 16 + c) * 16 + d))
  | _, _, _, _ => none

/-- The units of a string literal after its opening quote, and what follows. -/
def parseUnits : JsString → Option (JsString × JsString)
  | [] => none
  | u :: rest =>
    if u = 34 then some ([], rest)
    else if u = 92 then
      match rest with
      | [] => none
      | c :: rest =>
        if c = 117 then
          match rest with
          | h₁ :: h₂ :: h₃ :: h₄ :: rest =>
            match unicodeUnit h₁ h₂ h₃ h₄ with
            | some v => (parseUnits rest).map fun p => (v :: p.1, p.2)
            | none => none
          | _ => none
        else
          match unescape c with
          | some v => (parseUnits rest).map fun p => (v :: p.1, p.2)
          | none => none
    else if u.toNat < 32 then none
    else (parseUnits rest).map fun p => (u :: p.1, p.2)

def parseWord (w : JsString) (v : JsValue) (s : JsString) : Option (JsValue × JsString) :=
  if w.isPrefixOf s then some (v, s.drop w.length) else none

/-- A repeated key keeps its first place and its last value. -/
def setMember {α : Type} (k : JsString) (v : α) : List (JsString × α) → List (JsString × α)
  | [] => [(k, v)]
  | m :: ms => if m.1 = k then (k, v) :: ms else m :: setMember k v ms

def buildObject (ms : List (JsString × JsValue)) : List (JsString × JsValue) :=
  ms.foldl (fun o m => setMember m.1 m.2 o) []

mutual
/-- One value and what follows it; each nested value has less fuel. -/
def parseValue : Nat → JsString → Option (JsValue × JsString)
  | 0, _ => none
  | fuel + 1, s =>
    match skipWhitespace s with
    | [] => none
    | u :: rest =>
      if u = 123 then
        match skipWhitespace rest with
        | [] => none
        | v :: rest' =>
          if v = 125 then some (.object [], rest')
          else (parseMembers fuel (v :: rest')).map fun p => (.object (buildObject p.1), p.2)
      else if u = 91 then
        match skipWhitespace rest with
        | [] => none
        | v :: rest' =>
          if v = 93 then some (.array [], rest')
          else (parseItems fuel (v :: rest')).map fun p => (.array p.1, p.2)
      else if u = 34 then (parseUnits rest).map fun p => (.string p.1, p.2)
      else if u = 110 then parseWord (js "null") .null (u :: rest)
      else if u = 116 then parseWord (js "true") (.bool true) (u :: rest)
      else if u = 102 then parseWord (js "false") (.bool false) (u :: rest)
      else (parseNumber (u :: rest)).map fun p => (.number p.1, p.2)

def parseItems : Nat → JsString → Option (List JsValue × JsString)
  | 0, _ => none
  | fuel + 1, s =>
    match parseValue fuel s with
    | none => none
    | some (v, s₁) =>
      match skipWhitespace s₁ with
      | [] => none
      | u :: rest =>
        if u = 44 then (parseItems fuel rest).map fun p => (v :: p.1, p.2)
        else if u = 93 then some ([v], rest)
        else none

def parseMembers : Nat → JsString → Option (List (JsString × JsValue) × JsString)
  | 0, _ => none
  | fuel + 1, s =>
    match skipWhitespace s with
    | [] => none
    | q :: s =>
      if q = 34 then
        match parseUnits s with
        | none => none
        | some (k, s₁) =>
          match skipWhitespace s₁ with
          | [] => none
          | c :: s₂ =>
            if c = 58 then
              match parseValue fuel s₂ with
              | none => none
              | some (v, s₃) =>
                match skipWhitespace s₃ with
                | [] => none
                | u :: rest =>
                  if u = 44 then (parseMembers fuel rest).map fun p => ((k, v) :: p.1, p.2)
                  else if u = 125 then some ([(k, v)], rest)
                  else none
            else none
      else none
end

/-- `JSON.parse`; nesting is never deeper than the text is long. -/
def parseJson (s : JsString) : Option JsValue :=
  match parseValue (s.length + 1) s with
  | none => none
  | some (v, rest) => if skipWhitespace rest = [] then some v else none

mutual
/-- A JSON value: nothing undefined, finite numbers, distinct keys. -/
def isJson : JsValue → Bool
  | .undefined => false
  | .number (.finite _ _) => true
  | .number _ => false
  | .array xs => isJsonItems xs
  | .object ms => isJsonMembers ms && decide ((ms.map Prod.fst).Nodup)
  | _ => true

def isJsonItems : List JsValue → Bool
  | [] => true
  | x :: xs => isJson x && isJsonItems xs

def isJsonMembers : List (JsString × JsValue) → Bool
  | [] => true
  | (_, x) :: ms => isJson x && isJsonMembers ms
end

theorem isJsonItems_cons (x : JsValue) (xs : List JsValue) :
    isJsonItems (x :: xs) = (isJson x && isJsonItems xs) := rfl

theorem isJsonMembers_cons (m : JsString × JsValue) (ms : List (JsString × JsValue)) :
    isJsonMembers (m :: ms) = (isJson m.2 && isJsonMembers ms) := rfl

mutual
/-- The same value with the keys of every object in encoder order. -/
def sortKeys (E : Encoder) : JsValue → JsValue
  | .array xs => .array (sortKeysItems E xs)
  | .object ms => .object (sortByKey E (sortKeysMembers E ms))
  | v => v

def sortKeysItems (E : Encoder) : List JsValue → List JsValue
  | [] => []
  | x :: xs => sortKeys E x :: sortKeysItems E xs

def sortKeysMembers (E : Encoder) : List (JsString × JsValue) → List (JsString × JsValue)
  | [] => []
  | (k, x) :: ms => (k, sortKeys E x) :: sortKeysMembers E ms
end

theorem hexDigit_toNat (n : Nat) (h : n < 16) :
    (Sha256.hexDigit n).toNat = if n < 10 then 48 + n else 87 + n := by
  unfold Sha256.hexDigit
  rw [UInt16.toNat_ofNat']
  split <;> omega

theorem hexValue_hexDigit (n : Nat) (h : n < 16) : hexValue (Sha256.hexDigit n) = some n := by
  unfold hexValue
  rw [hexDigit_toNat n h]
  by_cases hn : n < 10
  · rw [if_pos hn, if_pos (by omega)]
    congr 1
    omega
  · rw [if_neg hn, if_neg (by omega), if_pos (by omega)]
    congr 1
    omega

theorem unicodeUnit_hexDigit (u : UInt16) :
    unicodeUnit (Sha256.hexDigit (u.toNat / 4096)) (Sha256.hexDigit (u.toNat / 256 % 16))
      (Sha256.hexDigit (u.toNat / 16 % 16)) (Sha256.hexDigit (u.toNat % 16)) = some u := by
  have hu := toNat_lt u
  have hv : ((u.toNat / 4096 * 16 + u.toNat / 256 % 16) * 16 + u.toNat / 16 % 16) * 16 +
      u.toNat % 16 = u.toNat := by omega
  simp only [unicodeUnit, hexValue_hexDigit _ (show u.toNat / 4096 < 16 by omega),
    hexValue_hexDigit _ (Nat.mod_lt _ (by decide : 0 < 16)), hv, UInt16.ofNat_toNat]

theorem parseUnits_plain (u : UInt16) (t : JsString) (h₁ : u ≠ 34) (h₂ : u ≠ 92)
    (h₃ : ¬u.toNat < 32) :
    parseUnits (u :: t) = (parseUnits t).map fun p => (u :: p.1, p.2) := by
  rw [parseUnits.eq_def]
  simp only [h₁, h₂, h₃, ↓reduceIte]

theorem parseUnits_short (u c : UInt16) (t : JsString) (h : shortEscape u = some c) :
    parseUnits (92 :: c :: t) = (parseUnits t).map fun p => (u :: p.1, p.2) := by
  have hc : c ≠ 117 ∧ unescape c = some u := by
    unfold shortEscape at h
    split_ifs at h <;> cases h <;> rename_i hu <;> subst hu <;> decide
  rw [parseUnits.eq_def]
  simp [hc.1, hc.2]

/-- An escaped unit is read back as the unit it escapes. -/
theorem parseUnits_escape (u : UInt16) (t : JsString) :
    parseUnits (escapeUnit u ++ t) = (parseUnits t).map fun p => (u :: p.1, p.2) := by
  unfold escapeUnit
  cases h : shortEscape u with
  | some c => exact parseUnits_short u c t h
  | none =>
    have hne : u ≠ 34 ∧ u ≠ 92 := by
      constructor <;> intro he <;> subst he <;> simp [shortEscape] at h
    by_cases hs : (u.toNat < 32 || isSurrogate u) = true
    · simp only [hs, ↓reduceIte, unicodeEscape, List.cons_append, List.nil_append]
      rw [parseUnits.eq_def]
      simp [unicodeUnit_hexDigit u]
    · simp only [hs, Bool.false_eq_true, ↓reduceIte, List.cons_append, List.nil_append]
      simp only [Bool.or_eq_true, decide_eq_true_eq, not_or] at hs
      exact parseUnits_plain u t hne.1 hne.2 hs.1

theorem surrogate_plain {u : UInt16} (h : 0xD800 ≤ u.toNat) :
    u ≠ 34 ∧ u ≠ 92 ∧ ¬u.toNat < 32 := by
  refine ⟨?_, ?_, by omega⟩ <;> intro he <;> subst he <;> revert h <;> decide

/-- A quoted string ends at its closing quote and reads back as itself. -/
theorem parseUnits_quoteUnits (s rest : JsString) :
    parseUnits (quoteUnits s ++ 34 :: rest) = some (s, rest) := by
  have hend : parseUnits (34 :: rest) = some ([], rest) := by
    rw [parseUnits.eq_def]
    simp
  induction s using quoteUnits.induct with
  | case1 => exact hend
  | case2 u => simp [quoteUnits, parseUnits_escape, hend]
  | case3 u v s hp ih =>
    have hb := pair_bounds hp
    obtain ⟨hu₁, hu₂, hu₃⟩ := surrogate_plain hb.1
    obtain ⟨hv₁, hv₂, hv₃⟩ := surrogate_plain (u := v) (by omega)
    simp [quoteUnits, hp, parseUnits_plain u _ hu₁ hu₂ hu₃, parseUnits_plain v _ hv₁ hv₂ hv₃, ih]
  | case4 u v s hp ih => simp [quoteUnits, hp, parseUnits_escape, ih]

theorem isWellFormed_ascii (s : JsString) (h : ∀ u ∈ s, u.toNat < 128) : isWellFormed s = true := by
  apply isWellFormed_of_forall
  intro u hu
  have := h u hu
  rw [Bool.eq_false_iff, ne_eq, isSurrogate_iff]
  omega

theorem isWellFormed_cons_ascii (u : UInt16) (s : JsString) (h : u.toNat < 128) :
    isWellFormed (u :: s) = isWellFormed s := by
  apply isWellFormed_cons
  rw [Bool.eq_false_iff, ne_eq, isSurrogate_iff]
  omega

theorem hexDigit_ascii (n : Nat) (h : n < 16) : (Sha256.hexDigit n).toNat < 128 := by
  rw [hexDigit_toNat n h]
  split <;> omega

theorem isWellFormed_escapeUnit (u : UInt16) : isWellFormed (escapeUnit u) = true := by
  unfold escapeUnit
  cases h : shortEscape u with
  | some c =>
    unfold shortEscape at h
    split_ifs at h <;> cases h <;> rfl
  | none =>
    by_cases hs : (u.toNat < 32 || isSurrogate u) = true
    · simp only [hs, ↓reduceIte, unicodeEscape]
      apply isWellFormed_ascii
      have hu := toNat_lt u
      intro v hv
      simp only [List.mem_cons, List.not_mem_nil, or_false] at hv
      rcases hv with rfl | rfl | rfl | rfl | rfl | rfl
      · decide
      · decide
      · exact hexDigit_ascii _ (by omega)
      · exact hexDigit_ascii _ (by omega)
      · exact hexDigit_ascii _ (by omega)
      · exact hexDigit_ascii _ (by omega)
    · simp only [hs, Bool.false_eq_true, ↓reduceIte]
      simp only [Bool.or_eq_true, not_or, Bool.not_eq_true] at hs
      simp [isWellFormed, hs.2]

/-- Escaping removes every unpaired surrogate. -/
theorem isWellFormed_quoteUnits (s : JsString) : isWellFormed (quoteUnits s) = true := by
  induction s using quoteUnits.induct with
  | case1 => rfl
  | case2 u => simpa [quoteUnits] using isWellFormed_escapeUnit u
  | case3 u v s hp ih => simpa [quoteUnits, hp, isWellFormed] using ih
  | case4 u v s hp ih =>
    simp only [quoteUnits, hp, Bool.false_eq_true, ↓reduceIte]
    exact isWellFormed_append _ _ (isWellFormed_escapeUnit u) ih

theorem isWellFormed_quote (s : JsString) : isWellFormed (quote s) = true := by
  rw [quote, isWellFormed_cons_ascii 34 _ (by decide)]
  exact isWellFormed_append _ _ (isWellFormed_quoteUnits s) rfl

end TrustCore.Json
