import Mathlib.Algebra.Order.Field.Rat
import Mathlib.Algebra.Order.Field.Power
import Mathlib.Tactic.Ring
import TrustCore.Json

/-!
# Untyped values as the services read them

Property reads, strict equality, `Number(…)` and the string methods that the
archive code applies to parsed JSON. `none` is a thrown `TypeError`.
-/

namespace TrustCore.Dynamic

open TrustCore.Utf TrustCore.Json TrustCore.Numbers

/-- White space and line terminators, as `trim` removes them. -/
def isStrWhiteSpace (u : UInt16) : Bool :=
  (decide (9 ≤ u.toNat ∧ u.toNat ≤ 13)) || u == 32 || u == 0xA0 || u == 0x1680 ||
    decide (0x2000 ≤ u.toNat ∧ u.toNat ≤ 0x200A) || u == 0x2028 || u == 0x2029 || u == 0x202F ||
    u == 0x205F || u == 0x3000 || u == 0xFEFF

def trimStart (s : JsString) : JsString := s.dropWhile isStrWhiteSpace

def trimEnd (s : JsString) : JsString := (s.reverse.dropWhile isStrWhiteSpace).reverse

def trim (s : JsString) : JsString := trimEnd (trimStart s)

/-- `split` at one code unit: always at least one part. -/
def splitAt (sep : UInt16) : JsString → List JsString
  | [] => [[]]
  | u :: s =>
    if u = sep then [] :: splitAt sep s
    else
      match splitAt sep s with
      | [] => [[u]]
      | part :: parts => (u :: part) :: parts

/-- An own property, or `undefined`. -/
def field (members : List (JsString × JsValue)) (key : JsString) : JsValue :=
  (members.lookup key).getD .undefined

/-- `value[key]` for a key that no prototype has. -/
def property (value : JsValue) (key : JsString) : Option JsValue :=
  match value with
  | .undefined => none
  | .null => none
  | .object members => some (field members key)
  | _ => some .undefined

/-- `key in value` for a key that no prototype has. -/
def hasProperty (value : JsValue) (key : JsString) : Option Bool :=
  match value with
  | .object members => some (members.lookup key).isSome
  | .array _ => some false
  | _ => none

def asString : JsValue → Option JsString
  | .string s => some s
  | _ => none

def isNullish : JsValue → Bool
  | .undefined => true
  | .null => true
  | _ => false

/-- `===`; two objects of different origin are never the same. -/
def strictEq : JsValue → JsValue → Bool
  | .undefined, .undefined => true
  | .null, .null => true
  | .bool a, .bool b => a == b
  | .number a, .number b => a != .nan && a == b
  | .string a, .string b => a == b
  | _, _ => false

/-- `Number::toString`, where JSON text has `null` for what is not finite. -/
def numberName : JsNumber → JsString
  | .finite d _ => finiteText d
  | .infinite neg => if neg then js "-Infinity" else js "Infinity"
  | .nan => js "NaN"

mutual
/-- `String(value)`: an object with an own `toString` has no primitive value. -/
def toText : JsValue → Option JsString
  | .undefined => some (js "undefined")
  | .null => some (js "null")
  | .bool b => some (if b then js "true" else js "false")
  | .number n => some (numberName n)
  | .string s => some s
  | .array items => (joinTexts items).map joinComma
  | .object members =>
    if (members.lookup (js "toString")).isSome then none else some (js "[object Object]")

/-- The parts of `Array.prototype.join`. -/
def joinTexts : List JsValue → Option (List JsString)
  | [] => some []
  | item :: items =>
    match if isNullish item then some [] else toText item with
    | none => none
    | some t => (joinTexts items).map (t :: ·)
end

def radixDigit (radix : Nat) (u : UInt16) : Option Nat :=
  match hexValue u with
  | some d => if d < radix then some d else none
  | none => none

/-- The digits of a `0x`, `0o` or `0b` literal. -/
def radixValue (radix : Nat) (s : JsString) : JsNumber :=
  match s.mapM (radixDigit radix) with
  | some (d :: ds) => ofDecimal ⟨false, (d :: ds).foldl (fun a d => a * radix + d) 0, 0⟩
  | _ => .nan

def takePoint : JsString → List Nat × JsString
  | [] => ([], [])
  | u :: rest => if u = 46 then takeDigits rest else ([], u :: rest)

/-- `StrDecimalLiteral` after its sign. -/
def decimalValue (neg : Bool) (s : JsString) : JsNumber :=
  if s = js "Infinity" then .infinite neg
  else
    let whole := takeDigits s
    let fraction := takePoint whole.2
    if whole.1 = [] ∧ fraction.1 = [] then .nan
    else
      match takeExponent fraction.2 with
      | some (e, []) =>
        ofDecimal ⟨neg, digitsValue (whole.1 ++ fraction.1), e - fraction.1.length⟩
      | _ => .nan

/-- `StringToNumber`. -/
def textToNumber (text : JsString) : JsNumber :=
  match trim text with
  | [] => ofDecimal ⟨false, 0, 0⟩
  | 48 :: 120 :: s => radixValue 16 s
  | 48 :: 88 :: s => radixValue 16 s
  | 48 :: 111 :: s => radixValue 8 s
  | 48 :: 79 :: s => radixValue 8 s
  | 48 :: 98 :: s => radixValue 2 s
  | 48 :: 66 :: s => radixValue 2 s
  | 43 :: s => decimalValue false s
  | 45 :: s => decimalValue true s
  | s => decimalValue false s

/-- `Number(value)`. -/
def toNumber : JsValue → Option JsNumber
  | .undefined => some .nan
  | .null => some (ofDecimal ⟨false, 0, 0⟩)
  | .bool b => some (ofDecimal ⟨false, if b then 1 else 0, 0⟩)
  | .number n => some n
  | v => (toText v).map textToNumber

def decimalLe (a b : Decimal) : Bool :=
  let e := min a.exp b.exp
  let scaled (d : Decimal) : Int :=
    (if d.neg then -1 else 1) * ((d.coeff * 10 ^ (d.exp - e).toNat : Nat) : Int)
  decide (scaled a ≤ scaled b)

/-- `a <= b`. -/
def numberLe : JsNumber → JsNumber → Bool
  | .nan, _ => false
  | _, .nan => false
  | .infinite neg, b => neg || b == .infinite false
  | .finite _ _, .infinite neg => !neg
  | .finite a _, .finite b _ => decimalLe a b

@[simp] theorem strictEq_string {v : JsValue} {s : JsString} :
    strictEq v (.string s) = true ↔ v = .string s := by
  cases v <;> simp [strictEq]

theorem strictEq_self (s : JsString) : strictEq (.string s) (.string s) = true :=
  strictEq_string.mpr rfl

theorem splitAt_append {sep : UInt16} (part rest : JsString) (h : ∀ u ∈ part, u ≠ sep) :
    splitAt sep (part ++ sep :: rest) = part :: splitAt sep rest := by
  induction part with
  | nil => simp [splitAt]
  | cons u part ih =>
    have hu : u ≠ sep := h u List.mem_cons_self
    rw [List.cons_append, splitAt, if_neg hu, ih fun v hv => h v (List.mem_cons_of_mem _ hv)]

theorem splitAt_last {sep : UInt16} (part : JsString) (h : ∀ u ∈ part, u ≠ sep) :
    splitAt sep part = [part] := by
  induction part with
  | nil => rfl
  | cons u part ih =>
    have hu : u ≠ sep := h u List.mem_cons_self
    rw [splitAt, if_neg hu, ih fun v hv => h v (List.mem_cons_of_mem _ hv)]

theorem trimEnd_append (s : JsString) :
    ∃ tail, s = trimEnd s ++ tail ∧ ∀ u ∈ tail, isStrWhiteSpace u = true := by
  refine ⟨(s.reverse.takeWhile isStrWhiteSpace).reverse, ?_, ?_⟩
  · rw [trimEnd, ← List.reverse_append, List.takeWhile_append_dropWhile, List.reverse_reverse]
  · intro u hu
    rw [List.mem_reverse] at hu
    exact List.all_eq_true.mp List.all_takeWhile u hu

theorem space_bounds {u : UInt16} (h : isStrWhiteSpace u = true) :
    u.toNat ≤ 32 ∨ 0xA0 ≤ u.toNat ∧ u.toNat ≤ 0x3000 ∨ u.toNat = 0xFEFF := by
  simp only [isStrWhiteSpace, Bool.or_eq_true, decide_eq_true_eq, beq_iff_eq] at h
  rcases h with ((((((((((h | rfl) | rfl) | rfl) | h) | rfl) | rfl) | rfl) | rfl) | rfl) | rfl)
  case inl => omega
  all_goals first | omega | decide

theorem not_surrogate_of_space {u : UInt16} (h : isStrWhiteSpace u = true) :
    isSurrogate u = false := by
  have hbounds := space_bounds h
  simp only [isSurrogate, isHighSurrogate, isLowSurrogate, Bool.or_eq_false_iff,
    decide_eq_false_iff_not]
  omega

/-- The parts of a string without an unpaired surrogate have none. -/
theorem isWellFormed_splitAt {sep : UInt16} (hsep : isSurrogate sep = false) {s : JsString}
    (h : isWellFormed s = true) : ∀ part ∈ splitAt sep s, isWellFormed part = true := by
  induction hn : s.length using Nat.strong_induction_on generalizing s with
  | _ n ih =>
    by_cases hmem : sep ∈ s
    · obtain ⟨part, rest, rfl, hpart⟩ := List.eq_append_cons_of_mem hmem
      obtain ⟨hwell, hrest⟩ := isWellFormed_append_cons hsep h
      rw [List.length_append, List.length_cons] at hn
      rw [splitAt_append part rest fun u hu => ne_of_mem_of_not_mem hu hpart, List.forall_mem_cons]
      exact ⟨hwell, ih rest.length (by omega) hrest rfl⟩
    · rw [splitAt_last s fun u hu => ne_of_mem_of_not_mem hu hmem]
      simpa using h

theorem isWellFormed_trimEnd {s : JsString} (h : isWellFormed s = true) :
    isWellFormed (trimEnd s) = true := by
  obtain ⟨tail, hs, htail⟩ := trimEnd_append s
  cases tail with
  | nil =>
    rw [List.append_nil] at hs
    rwa [← hs]
  | cons u tail =>
    rw [hs] at h
    exact (isWellFormed_append_cons (not_surrogate_of_space (htail u List.mem_cons_self)) h).1

theorem eq_of_strictEq {v w : JsValue} (h : strictEq v w = true) : v = w := by
  cases v <;> cases w <;> simp_all [strictEq]

def decimalSign (d : Decimal) : Int := if d.neg then -1 else 1

/-- The value of a decimal. -/
def decimalValueOf (d : Decimal) : ℚ := decimalSign d * d.coeff * (10 : ℚ) ^ d.exp

theorem scaled_decimal (d : Decimal) (e : Int) (h : e ≤ d.exp) :
    ((decimalSign d * ((d.coeff * 10 ^ (d.exp - e).toNat : Nat) : Int) : Int) : ℚ) =
      decimalValueOf d * (10 : ℚ) ^ (-e) := by
  have hexp : ((d.exp - e).toNat : Int) = d.exp + -e := by omega
  have hpow : ((10 : ℚ) ^ (d.exp - e).toNat) = (10 : ℚ) ^ d.exp * (10 : ℚ) ^ (-e) := by
    rw [← zpow_natCast, hexp, zpow_add₀ (by decide)]
  push_cast
  rw [hpow, decimalValueOf]
  ring

theorem decimalLe_iff {a b : Decimal} :
    decimalLe a b = true ↔ decimalValueOf a ≤ decimalValueOf b := by
  have hpos : (0 : ℚ) < (10 : ℚ) ^ (-(min a.exp b.exp)) := zpow_pos (by decide) _
  have ha := scaled_decimal a (min a.exp b.exp) (min_le_left _ _)
  have hb := scaled_decimal b (min a.exp b.exp) (min_le_right _ _)
  rw [← mul_le_mul_iff_of_pos_right hpos, ← ha, ← hb, Int.cast_le]
  exact decide_eq_true_iff

/-- Any two numbers compare, `NaN` apart. -/
theorem numberLe_total {a b : JsNumber} (ha : a ≠ .nan) (hb : b ≠ .nan) :
    numberLe a b = true ∨ numberLe b a = true := by
  cases a with
  | nan => exact absurd rfl ha
  | infinite neg => cases b <;> cases neg <;> simp_all [numberLe]
  | finite d hd =>
    cases b with
    | nan => exact absurd rfl hb
    | infinite neg => cases neg <;> simp [numberLe]
    | finite d' hd' =>
      rw [numberLe, numberLe, decimalLe_iff, decimalLe_iff]
      exact le_total _ _

theorem numberLe_trans {a b c : JsNumber} (hab : numberLe a b = true)
    (hbc : numberLe b c = true) : numberLe a c = true := by
  cases a with
  | nan => simp [numberLe] at hab
  | infinite neg =>
    cases b <;> cases c <;> cases neg <;> simp_all [numberLe]
  | finite d hd =>
    cases b with
    | nan => simp [numberLe] at hab
    | infinite neg => cases c <;> cases neg <;> simp_all [numberLe]
    | finite d' hd' =>
      cases c with
      | nan => simp [numberLe] at hbc
      | infinite neg => simpa [numberLe] using hbc
      | finite d'' hd'' =>
        rw [numberLe, decimalLe_iff] at hab hbc ⊢
        exact le_trans hab hbc

theorem lookup_of_mem {α : Type} {k : JsString} {v : α} {ms : List (JsString × α)}
    (hn : (ms.map Prod.fst).Nodup) (h : (k, v) ∈ ms) : ms.lookup k = some v := by
  induction ms with
  | nil => cases h
  | cons m ms ih =>
    obtain ⟨k', v'⟩ := m
    rw [List.map_cons, List.nodup_cons] at hn
    rcases List.mem_cons.mp h with heq | hmem
    · cases heq
      rw [List.lookup_cons_self]
    · have hne : k ≠ k' := by
        intro he
        rw [he] at hmem
        exact hn.1 (List.mem_map.mpr ⟨(k', v), hmem, rfl⟩)
      rw [List.lookup_cons, beq_false_of_ne hne]
      exact ih hn.2 hmem

theorem mem_of_lookup {α : Type} {k : JsString} {v : α} {ms : List (JsString × α)}
    (h : ms.lookup k = some v) : (k, v) ∈ ms := by
  obtain ⟨before, after, rfl, -⟩ := List.lookup_eq_some_iff.mp h
  exact List.mem_append_right _ List.mem_cons_self

theorem lookup_eq_none {α : Type} {k : JsString} {ms : List (JsString × α)}
    (h : k ∉ ms.map Prod.fst) : ms.lookup k = none := by
  rw [List.lookup_eq_none_iff]
  intro p hp
  rw [bne_iff_ne]
  intro he
  rw [he] at h
  exact h (List.mem_map_of_mem hp)

/-- With distinct keys the order of the members does not matter. -/
theorem lookup_perm {α : Type} {ms ns : List (JsString × α)} (hn : (ms.map Prod.fst).Nodup)
    (hp : ms.Perm ns) (k : JsString) : ms.lookup k = ns.lookup k := by
  have hn' : (ns.map Prod.fst).Nodup := (hp.map Prod.fst).nodup_iff.mp hn
  by_cases hk : k ∈ ms.map Prod.fst
  · obtain ⟨⟨k', v⟩, hm, rfl⟩ := List.mem_map.mp hk
    rw [lookup_of_mem hn hm, lookup_of_mem hn' (hp.mem_iff.mp hm)]
  · rw [lookup_eq_none hk, lookup_eq_none fun hk' => hk ((hp.map Prod.fst).mem_iff.mpr hk')]

theorem lookup_setMember_self {α : Type} (k : JsString) (v : α) (ms : List (JsString × α)) :
    (setMember k v ms).lookup k = some v := by
  induction ms with
  | nil => simp [setMember]
  | cons m ms ih =>
    obtain ⟨k', x⟩ := m
    by_cases h : k' = k
    · simp [setMember, h]
    · have hne : (k == k') = false := by simpa using Ne.symm h
      simp [setMember, h, List.lookup_cons, hne, ih]

theorem lookup_setMember_ne {α : Type} {k k' : JsString} (v : α) (ms : List (JsString × α))
    (h : k' ≠ k) : (setMember k v ms).lookup k' = ms.lookup k' := by
  have hk : (k' == k) = false := by simpa using h
  induction ms with
  | nil => simp [setMember, List.lookup_cons, hk]
  | cons m ms ih =>
    obtain ⟨l, x⟩ := m
    by_cases hl : l = k
    · simp [setMember, hl, List.lookup_cons, hk]
    · cases hk' : k' == l <;> simp [setMember, hl, List.lookup_cons, hk', ih]

@[simp] theorem field_setMember_self (k : JsString) (v : JsValue) (ms : List (JsString × JsValue)) :
    field (setMember k v ms) k = v := by simp [field, lookup_setMember_self]

theorem field_setMember_ne {k k' : JsString} (v : JsValue) (ms : List (JsString × JsValue))
    (h : k' ≠ k) : field (setMember k v ms) k' = field ms k' := by
  simp [field, lookup_setMember_ne v ms h]

theorem isSome_lookup_setMember {α : Type} (k k' : JsString) (v : α) (ms : List (JsString × α)) :
    ((setMember k v ms).lookup k').isSome = true ↔ k' = k ∨ (ms.lookup k').isSome = true := by
  by_cases h : k' = k
  · simp [h, lookup_setMember_self]
  · simp [h, lookup_setMember_ne v ms h]

theorem lookup_of_field {members : List (JsString × JsValue)} {key : JsString} {v : JsValue}
    (h : field members key = v) (hv : v ≠ .undefined) : members.lookup key = some v := by
  rw [field] at h
  cases hlookup : members.lookup key with
  | none =>
    rw [hlookup] at h
    exact absurd h.symm hv
  | some w =>
    rw [hlookup] at h
    rw [← h]
    rfl

/-- An own property that is assigned to itself. -/
theorem setMember_field {members : List (JsString × JsValue)} {key : JsString}
    (h : (members.lookup key).isSome = true) : setMember key (field members key) members = members := by
  induction members with
  | nil => cases h
  | cons m ms ih =>
    obtain ⟨k, v⟩ := m
    by_cases hk : key = k
    · subst hk
      simp [setMember, field]
    · have hne : (key == k) = false := by simpa using hk
      simp only [field, List.lookup_cons, hne] at h ih ⊢
      rw [setMember, if_neg (Ne.symm hk), ih h]

end TrustCore.Dynamic
