import TrustCore.Utf

/-!
# SHA-256

The hash of the platform's crypto library, on words of thirty-two bits held as
naturals. `force` makes each round evaluate its word before the next one is
built, so that a digest can be computed inside a proof.
-/

namespace TrustCore.Sha256

open TrustCore.Utf

def word : Nat := 2 ^ 32

def rotr (x n : Nat) : Nat := ((x >>> n) ||| (x <<< (32 - n))) % word

def ch (x y z : Nat) : Nat := (x &&& y) ^^^ ((word - 1 - x) &&& z)

def maj (x y z : Nat) : Nat := (x &&& y) ^^^ (x &&& z) ^^^ (y &&& z)

def bigSigma0 (x : Nat) : Nat := rotr x 2 ^^^ rotr x 13 ^^^ rotr x 22

def bigSigma1 (x : Nat) : Nat := rotr x 6 ^^^ rotr x 11 ^^^ rotr x 25

def smallSigma0 (x : Nat) : Nat := rotr x 7 ^^^ rotr x 18 ^^^ (x >>> 3)

def smallSigma1 (x : Nat) : Nat := rotr x 17 ^^^ rotr x 19 ^^^ (x >>> 10)

def force {α : Type} (n : Nat) (k : Nat → α) : α :=
  match n with
  | 0 => k 0
  | m + 1 => k (m + 1)

def forceWords {α : Type} : List Nat → (List Nat → α) → α
  | [], k => k []
  | w :: ws, k => force w fun w => forceWords ws fun ws => k (w :: ws)

def roundConstants : List Nat :=
  [0x428a2f98, 0x71374491, 0xb5c0fbcf, 0xe9b5dba5, 0x3956c25b, 0x59f111f1, 0x923f82a4, 0xab1c5ed5,
    0xd807aa98, 0x12835b01, 0x243185be, 0x550c7dc3, 0x72be5d74, 0x80deb1fe, 0x9bdc06a7, 0xc19bf174,
    0xe49b69c1, 0xefbe4786, 0x0fc19dc6, 0x240ca1cc, 0x2de92c6f, 0x4a7484aa, 0x5cb0a9dc, 0x76f988da,
    0x983e5152, 0xa831c66d, 0xb00327c8, 0xbf597fc7, 0xc6e00bf3, 0xd5a79147, 0x06ca6351, 0x14292967,
    0x27b70a85, 0x2e1b2138, 0x4d2c6dfc, 0x53380d13, 0x650a7354, 0x766a0abb, 0x81c2c92e, 0x92722c85,
    0xa2bfe8a1, 0xa81a664b, 0xc24b8b70, 0xc76c51a3, 0xd192e819, 0xd6990624, 0xf40e3585, 0x106aa070,
    0x19a4c116, 0x1e376c08, 0x2748774c, 0x34b0bcb5, 0x391c0cb3, 0x4ed8aa4a, 0x5b9cca4f, 0x682e6ff3,
    0x748f82ee, 0x78a5636f, 0x84c87814, 0x8cc70208, 0x90befffa, 0xa4506ceb, 0xbef9a3f7, 0xc67178f2]

structure State where
  a : Nat
  b : Nat
  c : Nat
  d : Nat
  e : Nat
  f : Nat
  g : Nat
  h : Nat

def initial : State :=
  ⟨0x6a09e667, 0xbb67ae85, 0x3c6ef372, 0xa54ff53a, 0x510e527f, 0x9b05688c, 0x1f83d9ab, 0x5be0cd19⟩

/-- The schedule, its last word first, with `n` words more. -/
def schedule : Nat → List Nat → List Nat
  | n + 1, v₁ :: v₂ :: v₃ :: v₄ :: v₅ :: v₆ :: v₇ :: v₈ :: v₉ :: v₁₀ :: v₁₁ :: v₁₂ :: v₁₃ :: v₁₄ ::
      v₁₅ :: v₁₆ :: rest =>
    force ((smallSigma1 v₂ + v₇ + smallSigma0 v₁₅ + v₁₆) % word) fun v =>
      schedule n (v :: v₁ :: v₂ :: v₃ :: v₄ :: v₅ :: v₆ :: v₇ :: v₈ :: v₉ :: v₁₀ :: v₁₁ :: v₁₂ ::
        v₁₃ :: v₁₄ :: v₁₅ :: v₁₆ :: rest)
  | _, ws => ws

/-- One round for each constant and word of the schedule. -/
def rounds : List Nat → List Nat → State → State
  | k :: ks, w :: ws, ⟨a, b, c, d, e, f, g, h⟩ =>
    force ((h + bigSigma1 e + ch e f g + k + w) % word) fun t =>
    force ((bigSigma0 a + maj a b c + t) % word) fun a' =>
    force ((d + t) % word) fun e' => rounds ks ws ⟨a', a, b, c, e', e, f, g⟩
  | _, _, s => s

def compress (s : State) (block : List Nat) : State :=
  let r := rounds roundConstants (schedule 48 block.reverse).reverse s
  ⟨(s.a + r.a) % word, (s.b + r.b) % word, (s.c + r.c) % word, (s.d + r.d) % word,
    (s.e + r.e) % word, (s.f + r.f) % word, (s.g + r.g) % word, (s.h + r.h) % word⟩

def State.words (s : State) : List Nat := [s.a, s.b, s.c, s.d, s.e, s.f, s.g, s.h]

def State.ofWords : List Nat → State
  | [a, b, c, d, e, f, g, h] => ⟨a, b, c, d, e, f, g, h⟩
  | _ => initial

def words : List Nat → List Nat
  | a :: b :: c :: d :: rest => (((a * 256 + b) * 256 + c) * 256 + d) :: words rest
  | _ => []

def blocks : Nat → List Nat → State → State
  | 0, _, s => s
  | n + 1, ws, s =>
    forceWords (compress s (ws.take 16)).words fun r => blocks n (ws.drop 16) (.ofWords r)

/-- Merkle–Damgård padding: a one bit, zeros, the length in sixty-four bits. -/
def pad (m : List Nat) : List Nat :=
  m ++ [128] ++ List.replicate ((119 - m.length % 64) % 64) 0 ++
    (List.range 8).map (fun i => m.length * 8 / 256 ^ (7 - i) % 256)

def digestWords (m : Bytes) : List Nat :=
  forceWords (words (pad (m.map UInt8.toNat))) fun ws => (blocks (ws.length / 16) ws initial).words

def hexDigit (n : Nat) : UInt16 := .ofNat (if n < 10 then 48 + n else 87 + n)

def hexWord (w : Nat) : JsString :=
  [28, 24, 20, 16, 12, 8, 4, 0].map (fun s => hexDigit (w >>> s % 16))

/-- `createHash("sha256").update(bytes).digest("hex")`. -/
def sha256 (m : Bytes) : JsString := (digestWords m).flatMap hexWord

def isLowerHex (u : UInt16) : Bool :=
  decide ((48 ≤ u.toNat ∧ u.toNat < 58) ∨ (97 ≤ u.toNat ∧ u.toNat < 103))

/-- The pattern `/^[a-f0-9]{64}$/`. -/
def isSha256 (s : JsString) : Bool := s.length == 64 && s.all isLowerHex

theorem hexDigit_isLowerHex (n : Nat) (h : n < 16) : isLowerHex (hexDigit n) = true := by
  have : (hexDigit n).toNat = if n < 10 then 48 + n else 87 + n := by
    unfold hexDigit
    rw [UInt16.toNat_ofNat']
    split <;> omega
  unfold isLowerHex
  rw [this]
  split <;> simp <;> omega

theorem hexWord_isLowerHex (w : Nat) : ∀ u ∈ hexWord w, isLowerHex u = true := by
  intro u hu
  simp only [hexWord, List.mem_map] at hu
  obtain ⟨s, -, rfl⟩ := hu
  exact hexDigit_isLowerHex _ (Nat.mod_lt _ (by decide))

theorem force_eq {α : Type} (n : Nat) (k : Nat → α) : force n k = k n := by
  cases n with
  | zero => rfl
  | succ n => rfl

theorem forceWords_eq {α : Type} (ws : List Nat) (k : List Nat → α) : forceWords ws k = k ws := by
  induction ws generalizing k with
  | nil => rfl
  | cons w ws ih => rw [forceWords, force_eq, ih]

/-- Every digest is sixty-four lower case hexadecimal digits. -/
theorem isSha256_sha256 (m : Bytes) : isSha256 (sha256 m) = true := by
  have hl : (sha256 m).length = 64 := by
    simp [sha256, digestWords, forceWords_eq, State.words, hexWord]
  have hx : ∀ u ∈ sha256 m, isLowerHex u = true := by
    intro u hu
    obtain ⟨w, -, hw⟩ := List.mem_flatMap.mp hu
    exact hexWord_isLowerHex w u hw
  rw [isSha256, Bool.and_eq_true]
  exact ⟨by simp [hl], List.all_eq_true.mpr hx⟩

theorem isSha256_length {s : JsString} (h : isSha256 s = true) : s.length = 64 := by
  simp only [isSha256, Bool.and_eq_true, beq_iff_eq] at h
  exact h.1

theorem isSha256_isLowerHex {s : JsString} (h : isSha256 s = true) :
    ∀ u ∈ s, isLowerHex u = true := by
  simp only [isSha256, Bool.and_eq_true, List.all_eq_true] at h
  exact h.2

theorem sha256_ne_nil (m : Bytes) : sha256 m ≠ [] := by
  intro h
  have hl := isSha256_length (isSha256_sha256 m)
  simp [h] at hl

theorem isLowerHex_not_surrogate {u : UInt16} (h : isLowerHex u = true) :
    isSurrogate u = false := by
  rw [Bool.eq_false_iff, ne_eq, isSurrogate_iff]
  unfold isLowerHex at h
  simp only [decide_eq_true_eq] at h
  omega

theorem isWellFormed_of_isSha256 {s : JsString} (h : isSha256 s = true) :
    isWellFormed s = true :=
  isWellFormed_of_forall s (fun u hu => isLowerHex_not_surrogate (isSha256_isLowerHex h u hu))

attribute [irreducible] sha256

/-- No two distinct messages of a set share a digest. -/
def CollisionFree (messages : Set Bytes) : Prop := Set.InjOn sha256 messages

end TrustCore.Sha256
