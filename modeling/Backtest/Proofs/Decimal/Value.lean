import Mathlib
import Backtest.Proofs.Decimal.Bits
/-!
# The value of a double, and the order IEEE compares by

A double other than NaN denotes an extended rational: `(-1)^s · m · 2^q` when finite, `±∞`
otherwise, and both signed zeros denote `0`. Lean's float model compares two doubles by sign,
then exponent, then significand of their unpacked forms. Since `classifyBits` gives a canonical
significand and exponent, a larger exponent means a larger magnitude, and that comparison is the
comparison of values:

* `Classified.compare_unpacked`: the model's comparison of two patterns is the comparison of
  what they denote, and nothing for a NaN;
* `le_iff_value`, `lt_iff_value`: `x ≤ y` and `x < y` on doubles are the order of their values;
* `classify_ofBitsNat`, `classifyBits_packBits`: a pattern that is not a NaN reads back as
  itself, and `packBits` writes a canonical significand and exponent.
-/

namespace Backtest.Decimal

open Float.Model.UnpackedFloat
open Float.Model (Format UnpackedFloat)

/-! ## Extended rationals -/

/-- The rationals with `⊥` for `-∞` and `⊤` for `+∞`: what a double other than NaN denotes. -/
abbrev Extended := WithBot (WithTop ℚ)

namespace Extended

/-- A rational as an extended rational. -/
def ofRat (q : ℚ) : Extended := ((q : WithTop ℚ) : WithBot (WithTop ℚ))

@[simp] theorem ofRat_le_ofRat {a b : ℚ} : ofRat a ≤ ofRat b ↔ a ≤ b := by simp [ofRat]

@[simp] theorem ofRat_lt_ofRat {a b : ℚ} : ofRat a < ofRat b ↔ a < b := by simp [ofRat]

@[simp] theorem ofRat_inj {a b : ℚ} : ofRat a = ofRat b ↔ a = b := by simp [ofRat]

@[simp] theorem bot_lt_ofRat (q : ℚ) : ⊥ < ofRat q := by simp [ofRat]

@[simp] theorem ofRat_lt_top (q : ℚ) : ofRat q < ⊤ :=
  WithBot.coe_lt_coe.mpr (WithTop.coe_lt_top q)

@[simp] theorem ofRat_ne_bot (q : ℚ) : ofRat q ≠ ⊥ := (bot_lt_ofRat q).ne'

@[simp] theorem ofRat_ne_top (q : ℚ) : ofRat q ≠ ⊤ := (ofRat_lt_top q).ne

/-- Every extended rational is `-∞`, a rational or `+∞`. -/
theorem trichotomy (a : Extended) : a = ⊥ ∨ (∃ q, a = ofRat q) ∨ a = ⊤ := by
  induction a using WithBot.recBotCoe with
  | bot => exact .inl rfl
  | coe a =>
    induction a using WithTop.recTopCoe with
    | top => exact .inr (.inr rfl)
    | coe q => exact .inr (.inl ⟨q, rfl⟩)

/-- A map of the extended line is monotone when it is monotone on the rationals and takes its
least value at `-∞` and its greatest at `+∞`. -/
theorem monotone_of_ofRat {α : Type*} [Preorder α] {g : Extended → α}
    (hmid : ∀ {q r : ℚ}, q ≤ r → g (ofRat q) ≤ g (ofRat r))
    (hbot : ∀ q, g ⊥ ≤ g (ofRat q)) (htop : ∀ q, g (ofRat q) ≤ g ⊤) : Monotone g := by
  intro a b hab
  rcases trichotomy a with rfl | ⟨q, rfl⟩ | rfl
  · rcases trichotomy b with rfl | ⟨r, rfl⟩ | rfl
    · exact le_rfl
    · exact hbot r
    · exact (hbot 0).trans (htop 0)
  · rcases trichotomy b with rfl | ⟨r, rfl⟩ | rfl
    · exact absurd hab (not_le.mpr (bot_lt_ofRat q))
    · exact hmid (ofRat_le_ofRat.mp hab)
    · exact htop q
  · rw [top_le_iff.mp hab]

/-- An extended rational strictly between `-∞` and `+∞` is a rational. -/
theorem exists_ofRat {a : Extended} (hb : a ≠ ⊥) (ht : a ≠ ⊤) : ∃ q, a = ofRat q := by
  rcases trichotomy a with h | h | h
  · exact absurd h hb
  · exact h
  · exact absurd h ht

theorem compare_ofRat (a b : ℚ) : compare (ofRat a) (ofRat b) = compare a b := by
  rcases lt_trichotomy a b with h | rfl | h
  · rw [compare_lt_iff_lt.mpr h, compare_lt_iff_lt.mpr (ofRat_lt_ofRat.mpr h)]
  · rw [compare_eq_iff_eq.mpr rfl, compare_eq_iff_eq.mpr rfl]
  · rw [compare_gt_iff_gt.mpr h, compare_gt_iff_gt.mpr (ofRat_lt_ofRat.mpr h)]

end Extended

open Extended

/-! ## What a pattern denotes -/

/-- The rational a finite double denotes. -/
def Binary.value (b : Binary) : ℚ :=
  (if b.negative then -1 else 1) * (b.significand * 2 ^ b.exponent)

/-- The extended rational a classified pattern denotes; nothing for a NaN. -/
def Classified.value : Classified → Option Extended
  | .nan => none
  | .infinite negative => some (if negative then ⊥ else ⊤)
  | .finite b => some (ofRat b.value)

/-- The extended rational a double denotes; nothing for a NaN. -/
def value (x : Float) : Option Extended := (classify x).value

theorem isNaN_iff_value_eq_none (x : Float) : isNaN x = true ↔ value x = none := by
  unfold isNaN value
  rcases classify x with _ | s | b <;> simp [Classified.value]

/-- A double that denotes a rational is finite. -/
theorem classify_of_value {x : Float} {v : ℚ} (h : value x = some (ofRat v)) :
    ∃ b, classify x = .finite b ∧ b.value = v := by
  unfold value at h
  rcases hc : classify x with _ | s | b <;> rw [hc] at h
  · exact absurd h (by simp [Classified.value])
  · cases s <;> simp only [Classified.value, Option.some.injEq, if_true, Bool.false_eq_true,
      if_false] at h
    exacts [absurd h.symm (ofRat_ne_top v), absurd h.symm (ofRat_ne_bot v)]
  · exact ⟨b, rfl, by simpa [Classified.value] using h⟩

theorem classify_of_value_bot {x : Float} (h : value x = some ⊥) : classify x = .infinite true := by
  unfold value at h
  revert h
  rcases classify x with _ | (_ | _) | b <;> simp [Classified.value]

theorem classify_of_value_top {x : Float} (h : value x = some ⊤) :
    classify x = .infinite false := by
  unfold value at h
  revert h
  rcases classify x with _ | (_ | _) | b <;> simp [Classified.value]

theorem classify_of_value_none {x : Float} (h : value x = none) : classify x = .nan := by
  unfold value at h
  revert h
  rcases classify x with _ | (_ | _) | b <;> simp [Classified.value]

/-- A classification as `classifyBits` gives it: a nonzero finite value is canonical. -/
def Classified.Canon : Classified → Prop
  | .finite ⟨_, m, q⟩ => m ≠ 0 → Canonical m q
  | _ => True

theorem canon_classifyBits (n : Nat) : (classifyBits n).Canon := by
  rcases h : classifyBits n with _ | s | ⟨s, m, q⟩
  · trivial
  · trivial
  · exact fun hm => canonical_of_classifyBits h hm

theorem canon_classify (x : Float) : (classify x).Canon := canon_classifyBits _

/-! ## Comparison -/

/-- Of two canonical significands, the one with the larger exponent is the larger value: it has
its leading bit set, and the other has at most 53 bits. -/
theorem value_lt_of_exponent_lt {m₁ m₂ : Nat} {q₁ q₂ : Int} (h₁ : Canonical m₁ q₁)
    (h₂ : Canonical m₂ q₂) (hq : q₁ < q₂) : (m₁ : ℚ) * 2 ^ q₁ < m₂ * 2 ^ q₂ := by
  have hnorm : 2 ^ 52 ≤ m₂ := h₂.normal.resolve_right (by have := h₁.min_le; omega)
  have hm₁ : (m₁ : ℚ) < 2 ^ 53 := by exact_mod_cast h₁.lt
  have hm₂ : (2 : ℚ) ^ 52 ≤ m₂ := by exact_mod_cast hnorm
  have hp : (0 : ℚ) < 2 ^ q₁ := zpow_pos (by norm_num) q₁
  calc (m₁ : ℚ) * 2 ^ q₁ < 2 ^ 53 * 2 ^ q₁ := by gcongr
    _ = 2 ^ (q₁ + 1) * 2 ^ 52 := by
      rw [zpow_add₀ (by norm_num)]
      ring
    _ ≤ 2 ^ q₂ * 2 ^ 52 := by gcongr; norm_num; omega
    _ ≤ m₂ * 2 ^ q₂ := by rw [mul_comm]; gcongr

/-- Canonical significands and exponents compare as their values: first by exponent, then by
significand. -/
theorem lex_compare {m₁ m₂ : Nat} {q₁ q₂ : Int} (h₁ : Canonical m₁ q₁) (h₂ : Canonical m₂ q₂) :
    (compare q₁ q₂).then (compare m₁ m₂) = compare ((m₁ : ℚ) * 2 ^ q₁) ((m₂ : ℚ) * 2 ^ q₂) := by
  rcases lt_trichotomy q₁ q₂ with hq | rfl | hq
  · rw [compare_lt_iff_lt.mpr hq, compare_lt_iff_lt.mpr (value_lt_of_exponent_lt h₁ h₂ hq)]
    rfl
  · rw [compare_eq_iff_eq.mpr rfl]
    have hp : (0 : ℚ) < 2 ^ q₁ := zpow_pos (by norm_num) q₁
    rcases lt_trichotomy m₁ m₂ with hm | rfl | hm
    · have : (m₁ : ℚ) * 2 ^ q₁ < m₂ * 2 ^ q₁ := by gcongr
      rw [compare_lt_iff_lt.mpr hm, compare_lt_iff_lt.mpr this]
      rfl
    · rw [compare_eq_iff_eq.mpr rfl, compare_eq_iff_eq.mpr rfl]
      rfl
    · have : (m₂ : ℚ) * 2 ^ q₁ < m₁ * 2 ^ q₁ := by gcongr
      rw [compare_gt_iff_gt.mpr hm, compare_gt_iff_gt.mpr this]
      rfl
  · rw [compare_gt_iff_gt.mpr hq, compare_gt_iff_gt.mpr (value_lt_of_exponent_lt h₂ h₁ hq)]
    rfl

theorem compare_neg_neg (a b : ℚ) : compare (-a) (-b) = (compare a b).swap := by
  rcases lt_trichotomy a b with h | rfl | h
  · rw [compare_lt_iff_lt.mpr h, compare_gt_iff_gt.mpr (neg_lt_neg h)]
    rfl
  · rw [compare_eq_iff_eq.mpr rfl, compare_eq_iff_eq.mpr rfl]
    rfl
  · rw [compare_gt_iff_gt.mpr h, compare_lt_iff_lt.mpr (neg_lt_neg h)]
    rfl

/-- The value of a nonzero finite pattern, by its sign. -/
theorem value_pos {m : Nat} {q : Int} (hm : m ≠ 0) : (0 : ℚ) < m * 2 ^ q := by
  have : (0 : ℚ) < m := by exact_mod_cast Nat.pos_of_ne_zero hm
  positivity

theorem unpacked_finite {s : Bool} {m : Nat} {q : Int} (hm : m ≠ 0) :
    (Classified.finite ⟨s, m, q⟩).unpacked = .finite (signOf s) m q (Nat.pos_of_ne_zero hm) := by
  simp [Classified.unpacked, hm]

theorem unpacked_zero (s : Bool) (q : Int) :
    (Classified.finite ⟨s, 0, q⟩).unpacked = .zero (signOf s) := by
  simp [Classified.unpacked]

theorem value_finite (s : Bool) (m : Nat) (q : Int) :
    (Classified.finite ⟨s, m, q⟩).value = some (ofRat (if s then -(m * 2 ^ q) else m * 2 ^ q)) := by
  cases s <;> simp [Classified.value, Binary.value]

@[simp] theorem compare_top_ofRat (q : ℚ) : compare ⊤ (ofRat q) = .gt :=
  compare_gt_iff_gt.mpr (ofRat_lt_top q)

@[simp] theorem compare_ofRat_top (q : ℚ) : compare (ofRat q) ⊤ = .lt :=
  compare_lt_iff_lt.mpr (ofRat_lt_top q)

@[simp] theorem compare_bot_ofRat (q : ℚ) : compare ⊥ (ofRat q) = .lt :=
  compare_lt_iff_lt.mpr (bot_lt_ofRat q)

@[simp] theorem compare_ofRat_bot (q : ℚ) : compare (ofRat q) ⊥ = .gt :=
  compare_gt_iff_gt.mpr (bot_lt_ofRat q)

@[simp] theorem compare_top_bot : compare (⊤ : Extended) ⊥ = .gt := compare_gt_iff_gt.mpr bot_lt_top

@[simp] theorem compare_bot_top : compare (⊥ : Extended) ⊤ = .lt := compare_lt_iff_lt.mpr bot_lt_top

/-- Lean's comparison of two unpacked patterns is the comparison of what they denote: a NaN
compares as nothing, an infinity by its sign, a zero against a nonzero value by that value's
sign, and two nonzero values by sign, then by magnitude. -/
theorem Classified.compare_unpacked {cx cy : Classified} (hx : cx.Canon) (hy : cy.Canon) :
    cx.unpacked.compare cy.unpacked = Option.map₂ compare cx.value cy.value := by
  rcases cx with _ | s | ⟨s, m, q⟩ <;> rcases cy with _ | s' | ⟨s', m', q'⟩
  · rfl
  · rfl
  · rfl
  · cases s <;> rfl
  · cases s <;> cases s' <;>
      simp [Classified.unpacked, Classified.value, signOf, UnpackedFloat.compare]
    all_goals rfl
  · by_cases hm : m' = 0 <;> cases s <;> cases s' <;>
      simp [Classified.unpacked, Classified.value, signOf, UnpackedFloat.compare, Binary.value, hm]
  · by_cases hm : m = 0
    · subst hm
      cases s <;> rfl
    · cases s <;> simp [Classified.unpacked, Classified.value, signOf, UnpackedFloat.compare, hm]
  · by_cases hm : m = 0 <;> cases s <;> cases s' <;>
      simp [Classified.unpacked, Classified.value, signOf, UnpackedFloat.compare, Binary.value, hm]
  · by_cases hm : m = 0 <;> by_cases hm' : m' = 0
    · subst hm hm'
      cases s <;> cases s' <;>
        simp [Classified.unpacked, Classified.value, signOf, UnpackedFloat.compare, Binary.value]
    · -- a zero against a nonzero value: the sign of the nonzero one decides
      subst hm
      have hv := value_pos (q := q') hm'
      rw [unpacked_zero, unpacked_finite hm', value_finite, value_finite]
      cases s' <;> cases s <;>
        simp only [signOf, Bool.false_eq_true, if_false, if_true, UnpackedFloat.compare,
          Option.map₂_some_some, Extended.compare_ofRat, Nat.cast_zero, zero_mul, neg_zero]
      · rw [compare_lt_iff_lt.mpr hv]
      · rw [compare_lt_iff_lt.mpr hv]
      · rw [compare_gt_iff_gt.mpr (neg_lt_zero.mpr hv)]
      · rw [compare_gt_iff_gt.mpr (neg_lt_zero.mpr hv)]
    · subst hm'
      have hv := value_pos (q := q) hm
      rw [unpacked_zero, unpacked_finite hm, value_finite, value_finite]
      cases s <;> cases s' <;>
        simp only [signOf, Bool.false_eq_true, if_false, if_true, UnpackedFloat.compare,
          Option.map₂_some_some, Extended.compare_ofRat, Nat.cast_zero, zero_mul, neg_zero]
      · rw [compare_gt_iff_gt.mpr hv]
      · rw [compare_gt_iff_gt.mpr hv]
      · rw [compare_lt_iff_lt.mpr (neg_lt_zero.mpr hv)]
      · rw [compare_lt_iff_lt.mpr (neg_lt_zero.mpr hv)]
    · -- two nonzero values: opposite signs decide, equal signs compare the magnitudes
      have hv := value_pos (q := q) hm
      have hv' := value_pos (q := q') hm'
      have hlex := lex_compare (hx hm) (hy hm')
      rw [unpacked_finite hm, unpacked_finite hm', value_finite, value_finite]
      cases s <;> cases s' <;>
        simp only [signOf, Bool.false_eq_true, if_false, if_true, UnpackedFloat.compare,
          Option.map₂_some_some, Extended.compare_ofRat]
      · rw [hlex]
      · rw [compare_gt_iff_gt.mpr (by linarith)]
      · rw [compare_lt_iff_lt.mpr (by linarith)]
      · rw [hlex, compare_neg_neg]

/-- `x ≤ y` on doubles is the order of their values; it fails when either is a NaN. -/
theorem le_iff_value (x y : Float) :
    x ≤ y ↔ ∃ a b, value x = some a ∧ value y = some b ∧ a ≤ b := by
  rw [le_iff_unpacked, UnpackedFloat.le,
    Classified.compare_unpacked (canon_classify x) (canon_classify y)]
  change (Option.map₂ compare (value x) (value y)).any (·.isLE) = true ↔ _
  rcases value x with _ | a <;> rcases value y with _ | b <;>
    simp [Ordering.isLE_iff_ne_gt, compare_le_iff_le]

/-- `x < y` on doubles is the strict order of their values; it fails when either is a NaN. -/
theorem lt_iff_value (x y : Float) :
    x < y ↔ ∃ a b, value x = some a ∧ value y = some b ∧ a < b := by
  rw [lt_iff_unpacked, UnpackedFloat.lt,
    Classified.compare_unpacked (canon_classify x) (canon_classify y)]
  change (Option.map₂ compare (value x) (value y) == some .lt) = true ↔ _
  rcases value x with _ | a <;> rcases value y with _ | b <;>
    simp [compare_lt_iff_lt]

/-! ## Patterns the library writes -/

/-- `classifyBits` reads a pattern through its sign bit, exponent field and fraction. -/
theorem classifyBits_of_fields {n F f : Nat} {s : Bool} (hs : n / 2 ^ 63 % 2 = if s then 1 else 0)
    (hF : n / 2 ^ 52 % 2048 = F) (hf : n % 2 ^ 52 = f) :
    classifyBits n = if F = 2047 then (if f = 0 then .infinite s else .nan)
      else if F = 0 then .finite ⟨s, f, minExponent⟩ else .finite ⟨s, f + 2 ^ 52, (F : Int) - 1075⟩ := by
  have hneg : (n / 2 ^ 63 % 2 == 1) = s := by cases s <;> simp_all
  unfold classifyBits
  simp only [Nat.pow_eq, hneg, hF, hf, beq_iff_eq]

/-- `packBits` writes a canonical significand and exponent so that `classifyBits` reads them
back. -/
theorem classifyBits_packBits (s : Bool) {m : Nat} {q : Int} (hc : Canonical m q) :
    classifyBits (packBits s m q) = .finite ⟨s, m, q⟩ := by
  obtain ⟨hpos, hlt, hmin, hmax, hnormal⟩ := hc
  simp only [minExponent, maxExponent] at hmin hmax hnormal
  have hsign : ∀ r < 2 ^ 63, ((if s then 2 ^ 63 else 0) + r) / 2 ^ 63 % 2 = if s then 1 else 0 := by
    intro r hr
    cases s <;> simp <;> omega
  unfold packBits
  simp only [Nat.pow_eq]
  by_cases hsub : m < 2 ^ 52
  · -- subnormal: exponent field zero, the significand as the fraction
    have hq : q = -1074 := by omega
    rw [if_pos hsub, classifyBits_of_fields (F := 0) (f := m) (hsign m (by omega))]
    · simp [hq, minExponent]
    all_goals cases s <;> simp <;> omega
  · -- normal: exponent field `q + 1075`, the significand less its leading bit as the fraction
    rw [if_neg hsub, Nat.add_assoc, classifyBits_of_fields (F := (q + 1075).toNat) (f := m - 2 ^ 52)
      (hsign _ (by omega))]
    · have h1 : (q + 1075).toNat ≠ 2047 := by omega
      have h2 : (q + 1075).toNat ≠ 0 := by omega
      simp only [h1, h2, if_false]
      congr 2 <;> omega
    all_goals cases s <;> simp <;> omega

theorem classifyBits_signBits (s : Bool) : classifyBits (signBits s) = .finite ⟨s, 0, minExponent⟩ := by
  cases s <;> decide

theorem classifyBits_infinityBits (s : Bool) : classifyBits (infinityBits s) = .infinite s := by
  cases s <;> decide

/-- A pattern that is not a NaN is a valid pattern of Lean's model, so the double built from it
has exactly that pattern. -/
theorem classify_ofBitsNat {n : Nat} (hn : n < 2 ^ 64) (h : classifyBits n ≠ .nan) :
    classify (ofBitsNat n) = classifyBits n := by
  have hn' : n < 18446744073709551616 := hn
  have hb : (BitVec.ofNat 64 n).toNat = n := by simpa using hn'
  -- the model keeps every pattern but the NaNs other than its own
  have hv : Format.binary64.Valid (BitVec.ofNat 64 n) := by
    refine ⟨fun hE hM => absurd (classifyBits_eq_nan.mpr ⟨?_, ?_⟩) h⟩
    · have := congrArg BitVec.toNat hE
      rwa [toNat_unpackExponent, hb] at this
    · intro h0
      apply hM
      apply BitVec.eq_of_toNat_eq
      rw [toNat_unpackMantissa, hb, h0]
      rfl
  have hbits : n.toUInt64.toBitVec = BitVec.ofNat 64 n := by
    apply BitVec.eq_of_toNat_eq
    simp
  show classifyBits (pack Format.binary64 (unpack Format.binary64 n.toUInt64.toBitVec)).toNat = _
  rw [hbits, pack_unpack _ hv, hb]

end Backtest.Decimal