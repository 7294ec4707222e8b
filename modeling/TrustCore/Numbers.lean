import Mathlib.Data.Nat.Digits.Defs
import Mathlib.Data.Nat.Digits.Lemmas
import TrustCore.Utf

/-!
# ECMAScript numbers and their decimal text

A finite number is held as the decimal that `Number::toString` prints, the
shortest one that rounds back to it; `nearestDouble` reads an arbitrary decimal
the way the language does, rounding it to binary64 first. The two zeros are one
number here, as they are for `===`, for map keys and in JSON text.
-/

namespace TrustCore.Numbers

open TrustCore.Utf

/-- The number `coeff * 10 ^ exp`, with its sign. -/
structure Decimal where
  neg : Bool
  coeff : Nat
  exp : Int
  deriving DecidableEq, Repr

def ratio (coeff : Nat) (exp : Int) : Nat × Nat :=
  if 0 ≤ exp then (coeff * 10 ^ exp.toNat, 1) else (coeff, 10 ^ (-exp).toNat)

def roundHalfEven (num den : Nat) : Nat :=
  let q := num / den
  let r := num % den
  if 2 * r < den then q else if den < 2 * r then q + 1 else if q % 2 = 0 then q else q + 1

/-- The mantissa of `num / den` in units of `2 ^ e`. -/
def scaled (num den : Nat) (e : Int) : Nat :=
  roundHalfEven (num * 2 ^ (-e).toNat) (den * 2 ^ e.toNat)

/-- Rounding to binary64, ties to even; `none` is an overflow to infinity. -/
def roundBinary (r : Nat × Nat) : Option (Nat × Int) :=
  if r.1 = 0 then some (0, 0)
  else
    let l : Int := (Nat.log2 r.1 : Int) - (Nat.log2 r.2 : Int) - 53
    let e₀ := max l (-1074)
    let e₁ := if r.2 * 2 ^ 53 * 2 ^ e₀.toNat ≤ r.1 * 2 ^ (-e₀).toNat then e₀ + 1 else e₀
    let m := scaled r.1 r.2 e₁
    let x := if m = 2 ^ 53 then (2 ^ 52, e₁ + 1) else (m, e₁)
    if 971 < x.2 then none else some x

def stripZeros : Nat → Nat → Int → Nat × Int
  | 0, c, e => (c, e)
  | n + 1, c, e => if c % 10 = 0 then stripZeros n (c / 10) (e + 1) else (c, e)

/-- The decimals of one to seventeen digits on either side of a binary number. -/
def candidates (x : Nat × Int) : List (Nat × Int) :=
  let num := x.1 * 2 ^ x.2.toNat
  let den := 2 ^ (-x.2).toNat
  let point : Int := ((Nat.digits 10 (num * 10 ^ 330 / den)).length : Int) - 330
  (List.range 17).flatMap fun i =>
    let t : Int := point - (i + 1)
    let n := num * 10 ^ (-t).toNat
    let d := den * 10 ^ t.toNat
    let near := if 2 * (n % d) ≤ d then [n / d, n / d + 1] else [n / d + 1, n / d]
    near.map fun s => stripZeros 20 s t

/-- The shortest decimal of the double nearest to a decimal. -/
def nearestDouble (d : Decimal) : Option Decimal :=
  match roundBinary (ratio d.coeff d.exp) with
  | none => none
  | some x =>
    if x.1 = 0 then some ⟨false, 0, 0⟩
    else
      ((candidates x).find? fun c => roundBinary (ratio c.1 c.2) == some x).map fun c =>
        ⟨d.neg, c.1, c.2⟩

/-- Reading the shortest decimal of a double gives that decimal again. -/
theorem nearestDouble_idem {d d' : Decimal} (h : nearestDouble d = some d') :
    nearestDouble d' = some d' := by
  unfold nearestDouble at h
  cases hx : roundBinary (ratio d.coeff d.exp) with
  | none => simp [hx] at h
  | some x =>
    simp only [hx] at h
    by_cases h0 : x.1 = 0
    · rw [if_pos h0, Option.some.injEq] at h
      subst h
      rfl
    · rw [if_neg h0, Option.map_eq_some_iff] at h
      obtain ⟨c, hc, rfl⟩ := h
      have hr : roundBinary (ratio c.1 c.2) = some x := by
        have := List.find?_some hc
        simpa using this
      simp only [nearestDouble, hr, h0, ↓reduceIte, hc, Option.map_some]

/-- A double other than NaN; a finite one is its own shortest decimal. -/
inductive JsNumber where
  | finite (value : Decimal) (double : nearestDouble value = some value)
  | infinite (neg : Bool)
  | nan
  deriving DecidableEq

def ofDecimal (d : Decimal) : JsNumber :=
  match h : nearestDouble d with
  | some d' => .finite d' (nearestDouble_idem h)
  | none => .infinite d.neg

theorem ofDecimal_eq {d d' : Decimal} (h : nearestDouble d = some d') :
    ofDecimal d = .finite d' (nearestDouble_idem h) := by
  unfold ofDecimal
  split
  · rename_i e he
    rw [h, Option.some.injEq] at he
    subst he
    rfl
  · rename_i he
    simp [h] at he

/-- Trailing zeros of an integer are part of its exponent. -/
theorem nearestDouble_shift (neg : Bool) (c n : Nat) :
    nearestDouble ⟨neg, c * 10 ^ n, 0⟩ = nearestDouble ⟨neg, c, n⟩ := by
  have hr : ratio (c * 10 ^ n) 0 = ratio c n := by simp [ratio]
  simp only [nearestDouble, hr]

/-- An integer below `2 ^ 53` is a double. -/
theorem roundBinary_nat {n : Nat} (h0 : n ≠ 0) (h : n < 2 ^ 53) :
    roundBinary (n, 1) = some (n * 2 ^ (52 - n.log2), (n.log2 : Int) - 52) := by
  have hlow : 2 ^ n.log2 ≤ n := Nat.log2_self_le h0
  have hhigh : n < 2 ^ (n.log2 + 1) := Nat.lt_log2_self
  have hlog : n.log2 < 53 := (Nat.log2_lt h0).mpr h
  have hone : Nat.log2 1 = 0 := by decide
  have he₀ : max ((n.log2 : Int) - (Nat.log2 1 : Int) - 53) (-1074) = (n.log2 : Int) - 53 := by
    rw [hone]
    omega
  have hneg : ((n.log2 : Int) - 53).toNat = 0 := by omega
  have hpos : (-((n.log2 : Int) - 53)).toNat = 53 - n.log2 := by omega
  have hle : 1 * 2 ^ 53 * 2 ^ ((n.log2 : Int) - 53).toNat ≤
      n * 2 ^ (-((n.log2 : Int) - 53)).toNat := by
    rw [hneg, hpos, one_mul, pow_zero, mul_one]
    calc 2 ^ 53 = 2 ^ n.log2 * 2 ^ (53 - n.log2) := by rw [← pow_add]; congr 1; omega
      _ ≤ n * 2 ^ (53 - n.log2) := Nat.mul_le_mul_right _ hlow
  have hexp : (-((n.log2 : Int) - 53 + 1)).toNat = 52 - n.log2 := by omega
  have hexp' : ((n.log2 : Int) - 53 + 1).toNat = 0 := by omega
  have hm : scaled n 1 ((n.log2 : Int) - 53 + 1) = n * 2 ^ (52 - n.log2) := by
    rw [scaled, hexp, hexp', roundHalfEven]
    simp [Nat.mod_one]
  have hlt : n * 2 ^ (52 - n.log2) < 2 ^ 53 := by
    calc n * 2 ^ (52 - n.log2) < 2 ^ (n.log2 + 1) * 2 ^ (52 - n.log2) :=
          Nat.mul_lt_mul_of_pos_right hhigh (by positivity)
      _ = 2 ^ 53 := by rw [← pow_add]; congr 1; omega
  rw [roundBinary, if_neg h0]
  simp only [he₀, if_pos hle, hm, if_neg (Nat.ne_of_lt hlt)]
  rw [if_neg (by omega)]
  congr 2
  omega

theorem stripZeros_value (k c : Nat) (e : Int) :
    e ≤ (stripZeros k c e).2 ∧
      (stripZeros k c e).1 * 10 ^ ((stripZeros k c e).2 - e).toNat = c := by
  induction k generalizing c e with
  | zero => simp [stripZeros]
  | succ k ih =>
    rw [stripZeros]
    split
    · rename_i hc
      obtain ⟨hle, hvalue⟩ := ih (c / 10) (e + 1)
      refine ⟨by omega, ?_⟩
      have hexp : ((stripZeros k (c / 10) (e + 1)).2 - e).toNat =
          ((stripZeros k (c / 10) (e + 1)).2 - (e + 1)).toNat + 1 := by omega
      rw [hexp, pow_succ, ← mul_assoc, hvalue]
      omega
    · simp

/-- The digits of an integer are among the candidates for its double. -/
theorem mem_candidates_nat {n : Nat} (h0 : n ≠ 0) (h : n < 2 ^ 53) :
    stripZeros 20 n 0 ∈ candidates (n * 2 ^ (52 - n.log2), (n.log2 : Int) - 52) := by
  have hlog : n.log2 < 53 := (Nat.log2_lt h0).mpr h
  have hneg : ((n.log2 : Int) - 52).toNat = 0 := by omega
  have hpos : (-((n.log2 : Int) - 52)).toNat = 52 - n.log2 := by omega
  have hden : 0 < 2 ^ (52 - n.log2) := by positivity
  have hdiv : n * 2 ^ (52 - n.log2) * 2 ^ 0 * 10 ^ 330 / 2 ^ (52 - n.log2) = 10 ^ 330 * n := by
    rw [pow_zero, mul_one, mul_right_comm, Nat.mul_div_cancel _ hden, mul_comm]
  have hdigits : (Nat.digits 10 (10 ^ 330 * n)).length = 330 + (Nat.digits 10 n).length := by
    rw [Nat.digits_base_pow_mul (by decide) (Nat.pos_of_ne_zero h0), List.length_append,
      List.length_replicate]
  have hlen : (Nat.digits 10 n).length ≤ 16 := by
    rw [Nat.digits_length_le_iff (by decide)]
    exact lt_trans h (by decide)
  have hlen0 : 0 < (Nat.digits 10 n).length := by
    rw [List.length_pos_iff]
    exact Nat.digits_ne_nil_iff_ne_zero.mpr h0
  rw [candidates]
  simp only [hneg, hpos, hdiv, hdigits]
  rw [List.mem_flatMap]
  refine ⟨(((Nat.digits 10 n).length - 1 : Nat) : Int), ?_, ?_⟩
  · have hrange : (Nat.digits 10 n).length - 1 ∈ List.range 17 := List.mem_range.mpr (by omega)
    exact List.mem_flatMap.mpr ⟨_, hrange, List.mem_singleton_self _⟩
  have ht : ((330 + (Nat.digits 10 n).length : Nat) : Int) - 330 -
      ((((Nat.digits 10 n).length - 1 : Nat) : Int) + 1) = 0 := by omega
  rw [ht]
  have hmod : n * 2 ^ (52 - n.log2) % 2 ^ (52 - n.log2) = 0 := Nat.mul_mod_left _ _
  have hquot : n * 2 ^ (52 - n.log2) / 2 ^ (52 - n.log2) = n := Nat.mul_div_cancel _ hden
  simp only [Int.neg_zero, Int.toNat_zero, pow_zero, mul_one, hmod, mul_zero, Nat.zero_le, if_true,
    hquot]
  exact List.mem_cons_self

/-- An integer below `2 ^ 53` has its shortest decimal, of the same double. -/
theorem nearestDouble_nat {n : Nat} (h : n < 2 ^ 53) :
    ∃ d, nearestDouble ⟨false, n, 0⟩ = some d ∧ d.neg = false ∧
      roundBinary (ratio d.coeff d.exp) = roundBinary (n, 1) := by
  have hratio : ratio n 0 = (n, 1) := by simp [ratio]
  by_cases h0 : n = 0
  · subst h0
    exact ⟨⟨false, 0, 0⟩, rfl, rfl, rfl⟩
  · have hround := roundBinary_nat h0 h
    have hmem := mem_candidates_nat h0 h
    have hne : n * 2 ^ (52 - n.log2) ≠ 0 := by positivity
    have hstrip : roundBinary (ratio (stripZeros 20 n 0).1 (stripZeros 20 n 0).2) =
        some (n * 2 ^ (52 - n.log2), (n.log2 : Int) - 52) := by
      obtain ⟨hle, hvalue⟩ := stripZeros_value 20 n 0
      rw [sub_zero] at hvalue
      rw [ratio, if_pos hle, hvalue, hround]
    have hfound : ((candidates (n * 2 ^ (52 - n.log2), (n.log2 : Int) - 52)).find? fun c =>
        roundBinary (ratio c.1 c.2) == some (n * 2 ^ (52 - n.log2), (n.log2 : Int) - 52)).isSome := by
      rw [List.find?_isSome]
      exact ⟨_, hmem, by rw [hstrip]; exact beq_self_eq_true _⟩
    obtain ⟨c, hc⟩ := Option.isSome_iff_exists.mp hfound
    have hcr := List.find?_some hc
    rw [beq_iff_eq] at hcr
    refine ⟨⟨false, c.1, c.2⟩, ?_, rfl, by rw [hcr, hround]⟩
    rw [nearestDouble]
    simp only [hratio, hround, if_neg hne, hc, Option.map_some]

def digitUnit (d : Nat) : UInt16 := .ofNat (48 + d)

def isDigit (u : UInt16) : Bool := decide (48 ≤ u.toNat ∧ u.toNat < 58)

def decimalDigits (n : Nat) : List Nat := if n = 0 then [0] else (Nat.digits 10 n).reverse

def digitsValue (ds : List Nat) : Nat := ds.foldl (fun a d => a * 10 + d) 0

/-- The integer, fraction and scientific forms of `Number::toString`. -/
def decimalText (ds : List Nat) (n : Int) : JsString :=
  let k : Int := ds.length
  if k ≤ n ∧ n ≤ 21 then ds.map digitUnit ++ List.replicate (n - k).toNat 48
  else if 0 < n ∧ n ≤ 21 then
    (ds.take n.toNat).map digitUnit ++ 46 :: (ds.drop n.toNat).map digitUnit
  else if -6 < n ∧ n ≤ 0 then
    48 :: 46 :: (List.replicate (-n).toNat 48 ++ ds.map digitUnit)
  else
    (ds.take 1).map digitUnit ++ (if k = 1 then [] else 46 :: (ds.drop 1).map digitUnit) ++
      101 :: (if n - 1 < 0 then 45 else 43) :: (decimalDigits (n - 1).natAbs).map digitUnit

/-- `Number::toString` of a finite number. -/
def finiteText (d : Decimal) : JsString :=
  if d.coeff = 0 then [48]
  else
    let ds := decimalDigits d.coeff
    let body := decimalText ds (d.exp + ds.length)
    if d.neg then 45 :: body else body

/-- `JSON.stringify` of a number. -/
def numberText : JsNumber → JsString
  | .finite d _ => finiteText d
  | _ => js "null"

def takeDigits : JsString → List Nat × JsString
  | [] => ([], [])
  | u :: rest =>
    if isDigit u then
      let r := takeDigits rest
      ((u.toNat - 48) :: r.1, r.2)
    else ([], u :: rest)

/-- `Option` of a fraction: a point must be followed by a digit. -/
def takeFraction : JsString → Option (List Nat × JsString)
  | 46 :: rest =>
    let r := takeDigits rest
    if r.1 = [] then none else some r
  | s => some ([], s)

def takeExponent : JsString → Option (Int × JsString)
  | [] => some (0, [])
  | u :: rest =>
    if u = 101 ∨ u = 69 then
      let signed : Bool × JsString :=
        match rest with
        | 45 :: r => (true, r)
        | 43 :: r => (false, r)
        | r => (false, r)
      let r := takeDigits signed.2
      if r.1 = [] then none
      else some (if signed.1 then -(digitsValue r.1 : Int) else digitsValue r.1, r.2)
    else some (0, u :: rest)

def takeSign : JsString → Bool × JsString
  | [] => (false, [])
  | u :: rest => if u = 45 then (true, rest) else (false, u :: rest)

/-- A number of JSON text, with what follows it. -/
def parseNumber (s : JsString) : Option (JsNumber × JsString) :=
  let signed := takeSign s
  let whole := takeDigits signed.2
  if whole.1 = [] ∨ (whole.1.head? = some 0 ∧ 1 < whole.1.length) then none
  else
    match takeFraction whole.2 with
    | none => none
    | some fraction =>
      match takeExponent fraction.2 with
      | none => none
      | some (e, rest) =>
        some (ofDecimal ⟨signed.1, digitsValue (whole.1 ++ fraction.1), e - fraction.1.length⟩, rest)

/-- What may follow a number: nothing that would continue it. -/
def Stops (rest : JsString) : Prop :=
  ∀ u, rest.head? = some u → isDigit u = false ∧ u ≠ 46 ∧ u ≠ 101 ∧ u ≠ 69

theorem digitUnit_toNat (d : Nat) (h : d < 10) : (digitUnit d).toNat = 48 + d := by
  rw [digitUnit, UInt16.toNat_ofNat']
  omega

theorem isDigit_digitUnit (d : Nat) (h : d < 10) : isDigit (digitUnit d) = true := by
  simp only [isDigit, digitUnit_toNat d h, decide_eq_true_eq]
  omega

theorem takeDigits_stop (rest : JsString) (h : ∀ u, rest.head? = some u → isDigit u = false) :
    takeDigits rest = ([], rest) := by
  cases rest with
  | nil => rfl
  | cons u rest => simp [takeDigits, h u (by simp)]

theorem takeDigits_digits (ds : List Nat) (hd : ∀ d ∈ ds, d < 10) (rest : JsString)
    (h : ∀ u, rest.head? = some u → isDigit u = false) :
    takeDigits (ds.map digitUnit ++ rest) = (ds, rest) := by
  induction ds with
  | nil => exact takeDigits_stop rest h
  | cons d ds ih =>
    have hlt := hd d (by simp)
    simp only [List.map_cons, List.cons_append, takeDigits, isDigit_digitUnit d hlt, ↓reduceIte,
      ih (fun e he => hd e (by simp [he])), digitUnit_toNat d hlt, Nat.add_sub_cancel_left]

theorem foldl_digits (ds : List Nat) (a : Nat) :
    ds.foldl (fun a d => a * 10 + d) a = a * 10 ^ ds.length + digitsValue ds := by
  induction ds generalizing a with
  | nil => simp [digitsValue]
  | cons d ds ih =>
    rw [digitsValue, List.foldl_cons, List.foldl_cons, ih, ih (0 * 10 + d), List.length_cons]
    ring

theorem digitsValue_append (ds es : List Nat) :
    digitsValue (ds ++ es) = digitsValue ds * 10 ^ es.length + digitsValue es := by
  rw [digitsValue, List.foldl_append, foldl_digits]
  rfl

@[simp] theorem digitsValue_zeros (n : Nat) : digitsValue (List.replicate n 0) = 0 := by
  induction n with
  | zero => rfl
  | succ n ih => rw [List.replicate_succ', digitsValue_append, ih]; rfl

theorem decimalDigits_value (n : Nat) : digitsValue (decimalDigits n) = n := by
  by_cases h : n = 0
  · subst h; rfl
  · rw [decimalDigits, if_neg h, digitsValue, List.foldl_reverse]
    have he : (fun x y => y * 10 + x : Nat → Nat → Nat) = fun x y => (x : Nat) + 10 * y := by
      funext x y
      omega
    have hv := Nat.ofDigits_digits 10 n
    rw [Nat.ofDigits_eq_foldr] at hv
    rw [he]
    exact hv

theorem decimalDigits_lt (n : Nat) : ∀ d ∈ decimalDigits n, d < 10 := by
  intro d hd
  by_cases h : n = 0
  · simp [decimalDigits, h] at hd
    omega
  · rw [decimalDigits, if_neg h, List.mem_reverse] at hd
    exact Nat.digits_lt_base (by decide) hd

theorem decimalDigits_ne_nil (n : Nat) : decimalDigits n ≠ [] := by
  by_cases h : n = 0
  · simp [decimalDigits, h]
  · simp [decimalDigits, h, Nat.digits_eq_nil_iff_eq_zero]

theorem decimalDigits_head (n : Nat) (h : n ≠ 0) : (decimalDigits n).head? ≠ some 0 := by
  rw [decimalDigits, if_neg h, List.head?_reverse,
    List.getLast?_eq_some_getLast (Nat.digits_ne_nil_iff_ne_zero.mpr h), ne_eq, Option.some.injEq]
  exact Nat.getLast_digit_ne_zero 10 h

@[simp] theorem digitUnit_zero : digitUnit 0 = 48 := rfl

theorem takeFraction_stop (rest : JsString) (h : rest.head? ≠ some 46) :
    takeFraction rest = some ([], rest) := by
  unfold takeFraction
  split
  · simp at h
  · rfl

theorem takeFraction_digits (ds : List Nat) (hd : ∀ d ∈ ds, d < 10) (hne : ds ≠ [])
    (rest : JsString) (h : ∀ u, rest.head? = some u → isDigit u = false) :
    takeFraction (46 :: (ds.map digitUnit ++ rest)) = some (ds, rest) := by
  simp [takeFraction, takeDigits_digits ds hd rest h, hne]

theorem takeExponent_stop (rest : JsString)
    (h : ∀ u, rest.head? = some u → u ≠ 101 ∧ u ≠ 69) : takeExponent rest = some (0, rest) := by
  cases rest with
  | nil => rfl
  | cons u rest =>
    have hu := h u (by simp)
    simp [takeExponent, hu.1, hu.2]

theorem takeExponent_digits (n : Int) (rest : JsString)
    (h : ∀ u, rest.head? = some u → isDigit u = false) :
    takeExponent (101 :: (if n < 0 then 45 else 43) ::
      ((decimalDigits n.natAbs).map digitUnit ++ rest)) = some (n, rest) := by
  have ht := takeDigits_digits _ (decimalDigits_lt n.natAbs) rest h
  have hne := decimalDigits_ne_nil n.natAbs
  by_cases hn : n < 0
  · simp only [takeExponent, hn, ↓reduceIte, true_or, ht, hne, decimalDigits_value]
    congr 2
    omega
  · simp only [takeExponent, hn, ↓reduceIte, true_or, ht, hne, decimalDigits_value,
      Bool.false_eq_true]
    congr 2
    omega

/-- A number is read from its sign, whole digits, fraction and exponent. -/
theorem parseNumber_parts (neg : Bool) (whole : List Nat) (tail : JsString)
    (fraction : List Nat × JsString) (e : Int) (rest : JsString)
    (hw : ∀ d ∈ whole, d < 10) (hne : whole ≠ [])
    (hz : whole.head? = some 0 → whole.length = 1)
    (ht : ∀ u, tail.head? = some u → isDigit u = false)
    (hf : takeFraction tail = some fraction)
    (he : takeExponent fraction.2 = some (e, rest)) :
    parseNumber ((if neg then [45] else []) ++ (whole.map digitUnit ++ tail)) =
      some (ofDecimal ⟨neg, digitsValue (whole ++ fraction.1), e - fraction.1.length⟩, rest) := by
  have hd := takeDigits_digits whole hw tail ht
  have hbad : ¬(whole = [] ∨ (whole.head? = some 0 ∧ 1 < whole.length)) := by
    rintro (h | ⟨h, hl⟩)
    · exact hne h
    · have := hz h
      omega
  have hs : takeSign ((if neg then [45] else []) ++ (whole.map digitUnit ++ tail)) =
      (neg, whole.map digitUnit ++ tail) := by
    cases neg with
    | true => rfl
    | false =>
      obtain ⟨d, ds, rfl⟩ := List.exists_cons_of_ne_nil hne
      have h45 : digitUnit d ≠ 45 := by
        intro h
        have hd := congrArg UInt16.toNat h
        rw [digitUnit_toNat d (hw d (by simp))] at hd
        have : (45 : UInt16).toNat = 45 := rfl
        omega
      simp [takeSign, h45]
  simp only [parseNumber, hs, hd, hbad, ↓reduceIte, hf, he]

theorem stops_digit {rest : JsString} (h : Stops rest) :
    ∀ u, rest.head? = some u → isDigit u = false := fun u hu => (h u hu).1

theorem stops_exponent {rest : JsString} (h : Stops rest) :
    takeExponent rest = some (0, rest) :=
  takeExponent_stop rest (fun u hu => (h u hu).2.2)

theorem stops_fraction {rest : JsString} (h : Stops rest) :
    takeFraction rest = some ([], rest) :=
  takeFraction_stop rest (fun hu => (h 46 hu).2.1 rfl)

/-- Each form of the decimal text reads back as the digits and exponent it shows,
the integer form with its trailing zeros counted as digits. -/
theorem parse_decimalText (neg : Bool) (ds : List Nat) (n : Int) (rest : JsString)
    (hd : ∀ d ∈ ds, d < 10) (hne : ds ≠ []) (hz : ds.head? ≠ some 0) (hr : Stops rest) :
    parseNumber ((if neg then [45] else []) ++ (decimalText ds n ++ rest)) =
      some (ofDecimal (if (ds.length : Int) ≤ n ∧ n ≤ 21
        then ⟨neg, digitsValue ds * 10 ^ (n - ds.length).toNat, 0⟩
        else ⟨neg, digitsValue ds, n - ds.length⟩), rest) := by
  have hlen : 0 < ds.length := List.length_pos_iff.mpr hne
  unfold decimalText
  by_cases h₁ : (ds.length : Int) ≤ n ∧ n ≤ 21
  · have hm : ds.map digitUnit ++ List.replicate (n - ds.length).toNat 48 =
        (ds ++ List.replicate (n - ds.length).toNat 0).map digitUnit := by simp
    have h := parseNumber_parts neg (ds ++ List.replicate (n - ds.length).toNat 0) rest ([], rest) 0
      rest (by
        intro d hd'
        rcases List.mem_append.mp hd' with h | h
        · exact hd d h
        · simp [List.eq_of_mem_replicate h])
      (by simp [hne]) (by
        intro h0
        rw [List.head?_append_of_ne_nil _ hne] at h0
        exact False.elim (hz h0))
      (stops_digit hr) (stops_fraction hr) (stops_exponent hr)
    simp only [h₁, and_self, ↓reduceIte, hm]
    rw [h]
    simp [digitsValue_append]
  simp only [h₁, ↓reduceIte]
  by_cases h₂ : 0 < n ∧ n ≤ 21
  · have hn : n.toNat < ds.length := by omega
    have hdrop : ds.drop n.toNat ≠ [] := by
      intro h
      have := congrArg List.length h
      simp at this
      omega
    have h := parseNumber_parts neg (ds.take n.toNat)
      (46 :: ((ds.drop n.toNat).map digitUnit ++ rest)) (ds.drop n.toNat, rest) 0 rest
      (fun d h => hd d (List.mem_of_mem_take h))
      (by
        intro h
        rcases List.take_eq_nil_iff.mp h with h | h
        · omega
        · exact hne h)
      (by
        intro h0
        rw [List.head?_take, if_neg (by omega)] at h0
        exact False.elim (hz h0))
      (by intro u hu; simp at hu; subst hu; rfl)
      (takeFraction_digits _ (fun d h => hd d (List.mem_of_mem_drop h)) hdrop rest (stops_digit hr))
      (stops_exponent hr)
    simp only [h₂, and_self, ↓reduceIte, List.append_assoc, List.cons_append]
    rw [h, List.take_append_drop, List.length_drop]
    congr 4
    omega
  simp only [h₂, ↓reduceIte]
  by_cases h₃ : -6 < n ∧ n ≤ 0
  · have hm : List.replicate (-n).toNat 48 ++ ds.map digitUnit =
        (List.replicate (-n).toNat 0 ++ ds).map digitUnit := by simp
    have h := parseNumber_parts neg [0]
      (46 :: ((List.replicate (-n).toNat 0 ++ ds).map digitUnit ++ rest))
      (List.replicate (-n).toNat 0 ++ ds, rest) 0 rest (by simp) (by simp) (by simp)
      (by intro u hu; simp at hu; subst hu; rfl)
      (takeFraction_digits _ (by
        intro d hd'
        rcases List.mem_append.mp hd' with h | h
        · simp [List.eq_of_mem_replicate h]
        · exact hd d h) (by simp [hne]) rest (stops_digit hr))
      (stops_exponent hr)
    simp only [h₃, and_self, ↓reduceIte, hm, List.cons_append]
    rw [show (48 : UInt16) = digitUnit 0 from rfl]
    simp only [List.map_cons, List.map_nil, List.cons_append, List.nil_append] at h
    rw [h]
    have hv : digitsValue (0 :: (List.replicate (-n).toNat 0 ++ ds)) = digitsValue ds := by
      rw [show 0 :: (List.replicate (-n).toNat 0 ++ ds) =
        List.replicate ((-n).toNat + 1) 0 ++ ds from rfl, digitsValue_append]
      simp
    rw [hv]
    simp only [List.length_append, List.length_replicate]
    congr 4
    omega
  simp only [h₃, ↓reduceIte]
  obtain ⟨d, ds, rfl⟩ := List.exists_cons_of_ne_nil hne
  have hx := takeExponent_digits (n - 1) rest (stops_digit hr)
  have hd0 : ∀ e ∈ [d], e < 10 := fun e he => hd e (by simp at he; simp [he])
  by_cases hk : ds = []
  · subst hk
    have h := parseNumber_parts neg [d] (101 :: (if n - 1 < 0 then 45 else 43) ::
        ((decimalDigits (n - 1).natAbs).map digitUnit ++ rest)) ([], _) (n - 1) rest hd0 (by simp)
      (by simp) (by intro u hu; simp at hu; subst hu; rfl)
      (takeFraction_stop _ (by simp)) hx
    simpa using h
  · have hl : ((d :: ds).length : Int) ≠ 1 := by
      have := List.length_pos_iff.mpr hk
      simp
      omega
    have h := parseNumber_parts neg [d] (46 :: (ds.map digitUnit ++ (101 ::
        (if n - 1 < 0 then 45 else 43) :: ((decimalDigits (n - 1).natAbs).map digitUnit ++ rest))))
      (ds, _) (n - 1) rest hd0 (by simp) (by simp) (by intro u hu; simp at hu; subst hu; rfl)
      (takeFraction_digits ds (fun e he => hd e (by simp [he])) hk _
        (by intro u hu; simp at hu; subst hu; rfl)) hx
    simp only [hl, ↓reduceIte, List.take_succ_cons, List.take_zero, List.drop_succ_cons,
      List.drop_zero, List.append_assoc, List.cons_append, List.map_cons, List.map_nil,
      List.nil_append] at h ⊢
    rw [h]
    congr 4
    simp
    omega

/-- Every finite number is read back from its text, whatever follows it. -/
theorem parseNumber_finiteText (d : Decimal) (h : nearestDouble d = some d) (rest : JsString)
    (hr : Stops rest) : parseNumber (finiteText d ++ rest) = some (.finite d h, rest) := by
  by_cases h0 : d.coeff = 0
  · have hd : d = ⟨false, 0, 0⟩ := by
      have hr : roundBinary (ratio d.coeff d.exp) = some (0, 0) := by
        have hz : (ratio d.coeff d.exp).1 = 0 := by
          unfold ratio
          rw [h0]
          split <;> simp
        rw [roundBinary, if_pos hz]
      have hz : nearestDouble d = some ⟨false, 0, 0⟩ := by simp only [nearestDouble, hr, ↓reduceIte]
      rw [h, Option.some.injEq] at hz
      exact hz
    subst hd
    have hp := parseNumber_parts false [0] rest ([], rest) 0 rest (by simp) (by simp) (by simp)
      (stops_digit hr) (stops_fraction hr) (stops_exponent hr)
    simpa [finiteText, digitsValue, ofDecimal_eq h] using hp
  · have hp := parse_decimalText d.neg (decimalDigits d.coeff)
      (d.exp + (decimalDigits d.coeff).length) rest (decimalDigits_lt _) (decimalDigits_ne_nil _)
      (decimalDigits_head _ h0) hr
    have ht : finiteText d ++ rest = (if d.neg then [45] else []) ++
        (decimalText (decimalDigits d.coeff) (d.exp + (decimalDigits d.coeff).length) ++ rest) := by
      unfold finiteText
      rw [if_neg h0]
      cases d.neg <;> simp
    rw [ht, hp, decimalDigits_value, Int.add_sub_cancel]
    split
    · have hs := nearestDouble_shift d.neg d.coeff d.exp.toNat
      rw [show ((d.exp.toNat : Nat) : Int) = d.exp by omega] at hs
      rw [ofDecimal_eq (hs.trans h)]
    · rw [ofDecimal_eq h]

end TrustCore.Numbers
