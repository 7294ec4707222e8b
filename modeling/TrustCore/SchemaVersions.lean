import TrustCore.SchemaPackages

/-!
# The order of versions

The registry takes the latest version of a package by a sort on the texts, and lets a new one in
by the numbers in them. Below `2 ^ 53` the numbers are exact, and a collation that compares digit
runs by their values puts two semantic versions in the order of their numbers.
-/

namespace TrustCore.SchemaVersions

open TrustCore.Utf TrustCore.Numbers TrustCore.SchemaPackages

/-! ## Numbers -/

structure Version where
  major : Nat
  minor : Nat
  patch : Nat
  deriving DecidableEq

def versionOf (value : JsString) : Option Version :=
  (takeVersion value).map fun runs =>
    ⟨digitsValue runs.major, digitsValue runs.minor, digitsValue runs.patch⟩

def Version.Before (a b : Version) : Prop :=
  a.major < b.major ∨ a.major = b.major ∧
    (a.minor < b.minor ∨ a.minor = b.minor ∧ a.patch < b.patch)

instance (a b : Version) : Decidable (a.Before b) := inferInstanceAs (Decidable (_ ∨ _))

theorem Version.Before.trans {a b c : Version} (hab : a.Before b) (hbc : b.Before c) :
    a.Before c := by
  unfold Version.Before at *
  omega

/-- Every component is below `2 ^ 53`. -/
def Version.Exact (v : Version) : Prop :=
  v.major < 2 ^ 53 ∧ v.minor < 2 ^ 53 ∧ v.patch < 2 ^ 53

instance (v : Version) : Decidable v.Exact := inferInstanceAs (Decidable (_ ∧ _))

theorem numberOfRun_eq {ds : List Nat} (h : digitsValue ds < 2 ^ 53) :
    numberOfRun ds = some (digitsValue ds : ℚ) := by
  rw [numberOfRun]
  by_cases h0 : digitsValue ds = 0
  · rw [h0]
    simp [roundBinary]
  · have hlog : (digitsValue ds).log2 < 53 := (Nat.log2_lt h0).mpr h
    rw [roundBinary_nat h0 h, Option.map_some, Option.some.injEq]
    have hexp : ((digitsValue ds).log2 : Int) - 52 = -((52 - (digitsValue ds).log2 : Nat) : Int) := by
      omega
    rw [hexp, zpow_neg, zpow_natCast]
    push_cast
    rw [mul_assoc, mul_inv_cancel₀ (by positivity), mul_one]

theorem minus_nat (a b : Nat) :
    minus (some (a : ℚ)) (some (b : ℚ)) = some (if a < b then -1 else if a = b then 0 else 1) := by
  simp only [minus, Nat.cast_lt, Nat.cast_inj]

def Version.parsed (v : Version) : ParsedVersion := ⟨some v.major, some v.minor, some v.patch⟩

@[simp] theorem Version.parsed_major (v : Version) : v.parsed.major = some (v.major : ℚ) := rfl

theorem parseVersion_eq {value : JsString} {v : Version} (h : versionOf value = some v)
    (hexact : v.Exact) : parseVersion value = .ok v.parsed := by
  rw [versionOf, Option.map_eq_some_iff] at h
  obtain ⟨runs, hruns, rfl⟩ := h
  obtain ⟨hmajor, hminor, hpatch⟩ := hexact
  simp only [parseVersion, hruns, numberOfRun_eq hmajor, numberOfRun_eq hminor,
    numberOfRun_eq hpatch, Version.parsed]

/-- The comparison of two versions is that of their numbers. -/
theorem compareVersion_parsed (next previous : Version) :
    (compareVersion next.parsed previous.parsed).any (· ≤ 0) = false ↔ previous.Before next := by
  simp only [compareVersion, Version.parsed, minus_nat, Version.Before]
  rcases Nat.lt_trichotomy next.major previous.major with h | h | h
  · simp [h, orNumber]
    omega
  · rcases Nat.lt_trichotomy next.minor previous.minor with h' | h' | h'
    · simp [h, h', orNumber]
      omega
    · rcases Nat.lt_trichotomy next.patch previous.patch with h'' | h'' | h''
      · simp [h, h', h'', orNumber]
        omega
      · simp [h, h', h'', orNumber]
      · simp [h, h', h'', Nat.not_lt_of_gt h'', Nat.ne_of_gt h'', orNumber]
    · simp [h, h', Nat.not_lt_of_gt h', Nat.ne_of_gt h', orNumber]
  · simp [h, Nat.not_lt_of_gt h, Nat.ne_of_gt h, orNumber]

/-! ## Texts -/

def digits (ds : List Nat) : JsString := ds.map digitUnit

/-- A digit run without leading zeros. -/
structure PlainRun (ds : List Nat) : Prop where
  ne_nil : ds ≠ []
  lt : ∀ d ∈ ds, d < 10
  plain : isPlainRun ds = true

/-- No digit run goes on into the text, or out of it. -/
def StartsPlain (s : JsString) : Prop := ∀ u, s.head? = some u → isDigit u = false

def EndsPlain (s : JsString) : Prop := ∀ u, s.getLast? = some u → isDigit u = false

/-- `localeCompare` with `numeric: true`: the first digit run that differs decides, when the text
before it is equal. -/
structure NumericCollation (localeCompare : JsString → JsString → Int) : Prop where
  byRun : ∀ {before s t : JsString} {ds es : List Nat}, EndsPlain before → StartsPlain s →
    StartsPlain t → PlainRun ds → PlainRun es → digitsValue ds < digitsValue es →
    digitsValue es < 2 ^ 53 →
    localeCompare (before ++ digits ds ++ s) (before ++ digits es ++ t) < 0 ∧
      0 < localeCompare (before ++ digits es ++ t) (before ++ digits ds ++ s)

theorem digitsValue_ne_zero {d : Nat} {ds : List Nat} (h : d ≠ 0) : digitsValue (d :: ds) ≠ 0 := by
  rw [digitsValue, List.foldl_cons, foldl_digits, Nat.zero_mul, Nat.zero_add]
  have hpos : 0 < d * 10 ^ ds.length := by positivity
  omega

theorem digitsValue_eq_ofDigits (ds : List Nat) : digitsValue ds = Nat.ofDigits 10 ds.reverse := by
  rw [Nat.ofDigits_eq_foldr, List.foldr_reverse, digitsValue]
  congr 1
  funext a d
  simp only [Nat.cast_id]
  omega

theorem PlainRun.eq_decimalDigits {ds : List Nat} (h : PlainRun ds) :
    ds = decimalDigits (digitsValue ds) := by
  rcases Bool.or_eq_true_iff.mp h.plain with hzero | hhead
  · rw [beq_iff_eq] at hzero
    rw [hzero]
    rfl
  · cases ds with
    | nil => exact absurd rfl h.ne_nil
    | cons d ds =>
      have hd : d ≠ 0 := by simpa using hhead
      rw [decimalDigits, if_neg (digitsValue_ne_zero hd), digitsValue_eq_ofDigits,
        Nat.digits_ofDigits 10 (by decide), List.reverse_reverse]
      · intro e he
        exact h.lt e (List.mem_reverse.mp he)
      · intro hne
        rw [List.getLast_reverse]
        exact hd

/-- Runs without leading zeros have one text for each value. -/
theorem PlainRun.ext {ds es : List Nat} (hd : PlainRun ds) (he : PlainRun es)
    (h : digitsValue ds = digitsValue es) : ds = es := by
  rw [hd.eq_decimalDigits, he.eq_decimalDigits, h]

theorem takeDigits_spec (s : JsString) :
    s = digits (takeDigits s).1 ++ (takeDigits s).2 ∧ (∀ d ∈ (takeDigits s).1, d < 10) ∧
      StartsPlain (takeDigits s).2 := by
  induction s with
  | nil => exact ⟨rfl, by simp [takeDigits], by simp [takeDigits, StartsPlain]⟩
  | cons u rest ih =>
    rw [takeDigits]
    split
    · next hu =>
      obtain ⟨htext, hlt, hstops⟩ := ih
      rw [isDigit, decide_eq_true_eq] at hu
      refine ⟨?_, ?_, hstops⟩
      · have hunit : digitUnit (u.toNat - 48) = u := by
          rw [digitUnit, show 48 + (u.toNat - 48) = u.toNat by omega, UInt16.ofNat_toNat]
        change u :: rest = digitUnit (u.toNat - 48) :: (digits _ ++ _)
        rw [hunit, ← htext]
      · intro d hd
        rcases List.mem_cons.mp hd with rfl | hd
        · omega
        · exact hlt d hd
    · next hu =>
      refine ⟨rfl, fun _ hd => absurd hd List.not_mem_nil, ?_⟩
      intro v hv
      rw [List.head?_cons, Option.some.injEq] at hv
      subst hv
      simpa using hu

theorem takeRun_eq_some {s rest : JsString} {ds : List Nat} (h : takeRun s = some (ds, rest)) :
    s = digits ds ++ rest ∧ ds ≠ [] ∧ (∀ d ∈ ds, d < 10) ∧ StartsPlain rest := by
  rw [takeRun] at h
  split at h
  · cases h
  · next hne =>
    rw [Option.some.injEq] at h
    obtain ⟨htext, hlt, hstops⟩ := takeDigits_spec s
    rw [h] at htext hlt hstops hne
    exact ⟨htext, hne, hlt, hstops⟩

theorem takeDot_eq_some {s rest : JsString} (h : takeDot s = some rest) : s = 46 :: rest := by
  unfold takeDot at h
  split at h
  · cases h
    rfl
  · cases h

/-- The text of a version. -/
theorem takeVersion_eq_some {value : JsString} {runs : VersionRuns}
    (h : takeVersion value = some runs) :
    value = digits runs.major ++ 46 :: (digits runs.minor ++ 46 :: (digits runs.patch ++ runs.rest)) ∧
      (runs.major ≠ [] ∧ ∀ d ∈ runs.major, d < 10) ∧ (runs.minor ≠ [] ∧ ∀ d ∈ runs.minor, d < 10) ∧
      (runs.patch ≠ [] ∧ ∀ d ∈ runs.patch, d < 10) ∧ StartsPlain runs.rest := by
  simp only [takeVersion, Option.bind_eq_bind, Option.bind_eq_some_iff, Prod.exists,
    Option.pure_def, Option.some.injEq] at h
  obtain ⟨major, s₁, hmajor, t₁, hdot₁, minor, s₂, hminor, t₂, hdot₂, patch, rest, hpatch, rfl⟩ := h
  obtain ⟨rfl, hmajor₀, hmajor₁, -⟩ := takeRun_eq_some hmajor
  obtain rfl := takeDot_eq_some hdot₁
  obtain ⟨rfl, hminor₀, hminor₁, -⟩ := takeRun_eq_some hminor
  obtain rfl := takeDot_eq_some hdot₂
  obtain ⟨rfl, hpatch₀, hpatch₁, hrest⟩ := takeRun_eq_some hpatch
  exact ⟨rfl, ⟨hmajor₀, hmajor₁⟩, ⟨hminor₀, hminor₁⟩, ⟨hpatch₀, hpatch₁⟩, hrest⟩

theorem startsPlain_dot (s : JsString) : StartsPlain (46 :: s) := by
  intro u hu
  cases hu
  rfl

theorem endsPlain_nil : EndsPlain [] := nofun

theorem endsPlain_dot (s : JsString) : EndsPlain (s ++ [46]) := by
  intro u hu
  rw [List.getLast?_concat] at hu
  cases hu
  rfl

/-- The texts of two versions are ordered as their numbers. -/
theorem compare_of_before {localeCompare : JsString → JsString → Int}
    (hlocale : NumericCollation localeCompare) {v w : JsString} {a b : Version}
    (hv : isSemver v = true) (hw : isSemver w = true) (ha : versionOf v = some a)
    (hb : versionOf w = some b) (hexact : b.Exact) (h : a.Before b) :
    localeCompare v w < 0 ∧ 0 < localeCompare w v := by
  rw [versionOf, Option.map_eq_some_iff] at ha hb
  obtain ⟨runs, hruns, rfl⟩ := ha
  obtain ⟨runs', hruns', rfl⟩ := hb
  simp only [isSemver, hruns, hruns', Option.any_some, Bool.and_eq_true] at hv hw
  obtain ⟨rfl, hmajor, hminor, hpatch, hrest⟩ := takeVersion_eq_some hruns
  obtain ⟨rfl, hmajor', hminor', hpatch', hrest'⟩ := takeVersion_eq_some hruns'
  obtain ⟨⟨⟨hm, hn⟩, hp⟩, -⟩ := hv
  obtain ⟨⟨⟨hm', hn'⟩, hp'⟩, -⟩ := hw
  have hmajorRun : PlainRun runs.major := ⟨hmajor.1, hmajor.2, hm⟩
  have hmajorRun' : PlainRun runs'.major := ⟨hmajor'.1, hmajor'.2, hm'⟩
  have hminorRun : PlainRun runs.minor := ⟨hminor.1, hminor.2, hn⟩
  have hminorRun' : PlainRun runs'.minor := ⟨hminor'.1, hminor'.2, hn'⟩
  rcases h with hlt | ⟨heq, hlt | ⟨heq', hlt⟩⟩
  · exact hlocale.byRun endsPlain_nil (startsPlain_dot _) (startsPlain_dot _) hmajorRun hmajorRun'
      hlt hexact.1
  · have hsame : runs.major = runs'.major := hmajorRun.ext hmajorRun' heq
    have hrun := hlocale.byRun (endsPlain_dot (digits runs.major))
      (startsPlain_dot (digits runs.patch ++ runs.rest))
      (startsPlain_dot (digits runs'.patch ++ runs'.rest)) hminorRun hminorRun' hlt hexact.2.1
    rw [← hsame]
    simpa only [List.append_assoc, List.cons_append, List.nil_append] using hrun
  · have hsame : runs.major = runs'.major := hmajorRun.ext hmajorRun' heq
    have hsame' : runs.minor = runs'.minor := hminorRun.ext hminorRun' heq'
    have hrun := hlocale.byRun (endsPlain_dot (digits runs.major ++ 46 :: digits runs.minor)) hrest
      hrest' ⟨hpatch.1, hpatch.2, hp⟩ ⟨hpatch'.1, hpatch'.2, hp'⟩ hlt hexact.2.2
    rw [← hsame, ← hsame']
    simpa only [List.append_assoc, List.cons_append, List.nil_append] using hrun

/-! ## A collation -/

inductive Token where
  | run (length value : Nat)
  | unit (u : UInt16)

def Token.key : Token → Nat
  | .run _ value => 65536 + value
  | .unit u => u.toNat

def consToken (u : UInt16) (tokens : List Token) : List Token :=
  if isDigit u then
    match tokens with
    | .run length value :: rest => .run (length + 1) ((u.toNat - 48) * 10 ^ length + value) :: rest
    | tokens => .run 1 (u.toNat - 48) :: tokens
  else .unit u :: tokens

/-- A text with its digit runs as numbers. -/
def tokens : JsString → List Token
  | [] => []
  | u :: s => consToken u (tokens s)

def compareTokens : List Token → List Token → Int
  | [], [] => 0
  | [], _ => -1
  | _, [] => 1
  | a :: s, b :: t =>
    if a.key < b.key then -1 else if a.key = b.key then compareTokens s t else 1

/-- Code units in their order, digit runs after them by their values. -/
def compareNumeric (s t : JsString) : Int := compareTokens (tokens s) (tokens t)

theorem consToken_ne_nil (u : UInt16) (ts : List Token) : consToken u ts ≠ [] := by
  cases hu : isDigit u with
  | false => simp [consToken, hu]
  | true =>
    cases ts with
    | nil => simp [consToken, hu]
    | cons t ts =>
      cases t with
      | run length value => simp [consToken, hu]
      | unit v => simp [consToken, hu]

theorem consToken_append (u : UInt16) (ts rest : List Token)
    (h : ts = [] → isDigit u = false) : consToken u (ts ++ rest) = consToken u ts ++ rest := by
  cases hu : isDigit u with
  | false => simp [consToken, hu]
  | true =>
    cases ts with
    | nil => rw [h rfl] at hu; cases hu
    | cons t ts =>
      cases t with
      | run length value => simp [consToken, hu]
      | unit v => simp [consToken, hu]

theorem tokens_append {before : JsString} (h : EndsPlain before) (s : JsString) :
    tokens (before ++ s) = tokens before ++ tokens s := by
  induction before with
  | nil => rfl
  | cons u before ih =>
    cases before with
    | nil => exact consToken_append u [] (tokens s) fun _ => h u rfl
    | cons v before =>
      have hends : EndsPlain (v :: before) := fun w hw => h w (by simpa using hw)
      change consToken u (tokens (v :: before ++ s)) = consToken u (tokens (v :: before)) ++ tokens s
      rw [ih hends]
      exact consToken_append u _ _ fun hnil => absurd hnil (consToken_ne_nil v _)

theorem consToken_digit {d : Nat} (hd : d < 10) {s : JsString} (hs : StartsPlain s) :
    consToken (digitUnit d) (tokens s) = .run 1 d :: tokens s := by
  have hvalue : (digitUnit d).toNat - 48 = d := by
    rw [digitUnit_toNat d hd]
    omega
  cases s with
  | nil => simp [consToken, isDigit_digitUnit d hd, tokens, hvalue]
  | cons u s =>
    have hu : tokens (u :: s) = .unit u :: tokens s := by
      simp [tokens, consToken, hs u rfl]
    simp [hu, consToken, isDigit_digitUnit d hd, hvalue]

theorem tokens_digits {ds : List Nat} (hne : ds ≠ []) (hlt : ∀ d ∈ ds, d < 10) {s : JsString}
    (hs : StartsPlain s) :
    tokens (digits ds ++ s) = .run ds.length (digitsValue ds) :: tokens s := by
  induction ds with
  | nil => exact absurd rfl hne
  | cons d ds ih =>
    have hd := hlt d List.mem_cons_self
    cases ds with
    | nil =>
      rw [show digitsValue [d] = d by simp [digitsValue]]
      exact consToken_digit hd hs
    | cons e ds =>
      have hrest := ih (List.cons_ne_nil e ds) fun c hc => hlt c (List.mem_cons_of_mem d hc)
      change consToken (digitUnit d) (tokens (digits (e :: ds) ++ s)) = _
      rw [hrest, consToken, if_pos (isDigit_digitUnit d hd), digitUnit_toNat d hd]
      have hvalue : digitsValue (d :: e :: ds) = d * 10 ^ (e :: ds).length + digitsValue (e :: ds) := by
        rw [digitsValue, List.foldl_cons, foldl_digits, Nat.zero_mul, Nat.zero_add]
      rw [hvalue, Nat.add_sub_cancel_left]
      rfl

theorem compareTokens_append (before s t : List Token) :
    compareTokens (before ++ s) (before ++ t) = compareTokens s t := by
  induction before with
  | nil => rfl
  | cons a before ih => simp [compareTokens, ih]

theorem numericCollation_compareNumeric : NumericCollation compareNumeric where
  byRun := by
    intro before s t ds es hbefore hs ht hds hes hlt _
    have hkeys : (Token.run ds.length (digitsValue ds)).key <
        (Token.run es.length (digitsValue es)).key := by
      simp only [Token.key]
      omega
    have htokens : ∀ {fs : List Nat} {u : JsString}, PlainRun fs → StartsPlain u →
        tokens (before ++ digits fs ++ u) =
          tokens before ++ .run fs.length (digitsValue fs) :: tokens u := by
      intro fs u hfs hu
      rw [List.append_assoc, tokens_append hbefore, tokens_digits hfs.ne_nil hfs.lt hu]
    simp only [compareNumeric]
    rw [htokens hds hs, htokens hes ht, compareTokens_append, compareTokens_append]
    simp only [compareTokens, if_pos hkeys, if_neg (Nat.not_lt_of_gt hkeys),
      if_neg (Nat.ne_of_gt hkeys)]
    decide

end TrustCore.SchemaVersions
