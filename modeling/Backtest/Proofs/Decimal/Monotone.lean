import Mathlib
import Backtest.Proofs.Decimal.Arithmetic
/-!
# Float arithmetic keeps order

Rounding to nearest keeps order, and the infinities sit at the two ends of the order, so Lean's
float difference, product and sum keep order too, as long as no NaN comes out. This module says
what `x - y`, `x * y` and `x + y` denote for every operand that is not a NaN:

* `Extended.roundMap`: a rational map carried to the extended line with its two ends, then rounded;
  it is monotone or antitone with the map (`roundMap_mono`, `roundMap_anti`);
* `Extended.roundAdd`: the rounded extended sum, with nothing for `⊥ + ⊤` (`roundAdd_mono`);
* `value_sub_of_finite`, `value_mul_of_pos`, `value_mul_of_neg`, `value_add_extended`: a
  difference from a finite double, a product with a finite nonzero double, and any sum;
* `value_sub_of_top`, `value_mul_top`, `value_add_of_none`: the positive infinity less a finite
  double, a product with the positive infinity, and a sum with a NaN.
-/

namespace Backtest.Decimal

open Float.Model (Format UnpackedFloat)
open Float.Model.UnpackedFloat
open Extended

namespace Extended

/-- A rational map carried to the extended line: `⊥` goes to `lo`, `⊤` to `hi`, and a rational
to the double nearest its image. -/
def roundMap (f : ℚ → ℚ) (lo hi : Extended) : Extended → Extended :=
  WithBot.recBotCoe lo (WithTop.recTopCoe hi fun q => roundExtended (f q))

@[simp] theorem roundMap_bot (f : ℚ → ℚ) (lo hi : Extended) : roundMap f lo hi ⊥ = lo := rfl

@[simp] theorem roundMap_top (f : ℚ → ℚ) (lo hi : Extended) : roundMap f lo hi ⊤ = hi := rfl

@[simp] theorem roundMap_ofRat (f : ℚ → ℚ) (lo hi : Extended) (q : ℚ) :
    roundMap f lo hi (ofRat q) = roundExtended (f q) := rfl

/-- A monotone map that keeps the ends stays monotone once rounded. -/
theorem roundMap_mono {f : ℚ → ℚ} (hf : Monotone f) : Monotone (roundMap f ⊥ ⊤) :=
  monotone_of_ofRat (fun h => roundExtended_mono (hf h)) (fun _ => bot_le) (fun _ => le_top)

/-- An antitone map that swaps the ends stays antitone once rounded. -/
theorem roundMap_anti {f : ℚ → ℚ} (hf : Antitone f) : Antitone (roundMap f ⊤ ⊥) :=
  -- monotone into the order dual, whose least value is `⊤`
  monotone_toDual_comp_iff.mp <| monotone_of_ofRat
    (fun h => OrderDual.toDual_le_toDual.mpr (roundExtended_mono (hf h)))
    (fun _ => OrderDual.toDual_le_toDual.mpr le_top) (fun _ => OrderDual.toDual_le_toDual.mpr bot_le)

@[simp] theorem ofRat_add_ofRat (a b : ℚ) : ofRat a + ofRat b = ofRat (a + b) := rfl

@[simp] theorem top_add_ofRat (q : ℚ) : (⊤ : Extended) + ofRat q = ⊤ := rfl

@[simp] theorem ofRat_add_top (q : ℚ) : ofRat q + ⊤ = ⊤ := rfl

@[simp] theorem top_add_top : (⊤ : Extended) + ⊤ = ⊤ := rfl

/-- The extended sum, rounded to the nearest double; nothing for two infinities of opposite
signs. -/
def roundAdd (a b : Extended) : Option Extended :=
  if (a = ⊥ ∧ b = ⊤) ∨ (a = ⊤ ∧ b = ⊥) then none else some (roundMap id ⊥ ⊤ (a + b))

theorem roundAdd_eq_some {a b u : Extended} (h : roundAdd a b = some u) :
    u = roundMap id ⊥ ⊤ (a + b) := by
  unfold roundAdd at h
  split_ifs at h
  exact (Option.some.inj h).symm

/-- Where both rounded sums are defined, they keep the order of their terms. -/
theorem roundAdd_mono {a b a' b' u u' : Extended} (ha : a ≤ a') (hb : b ≤ b')
    (h : roundAdd a b = some u) (h' : roundAdd a' b' = some u') : u ≤ u' := by
  rw [roundAdd_eq_some h, roundAdd_eq_some h']
  exact roundMap_mono monotone_id (add_le_add ha hb)

/-- Two terms with no infinity of one sign between them have a sum. -/
theorem roundAdd_isSome {a b : Extended} (h : (a ≠ ⊥ ∧ b ≠ ⊥) ∨ (a ≠ ⊤ ∧ b ≠ ⊤)) :
    ∃ u, roundAdd a b = some u := by
  unfold roundAdd
  rw [if_neg (by tauto)]
  exact ⟨_, rfl⟩

end Extended

/-! ## The unpacked float of a double that is not a NaN -/

/-- A double that is not a NaN unpacks to the negative infinity, the positive one, or a float of
the model that denotes a rational. -/
theorem unpacked_cases {x : Float} {e : Extended} (h : value x = some e) :
    (e = ⊥ ∧ (classify x).unpacked = .infinity .negative) ∨
      (e = ⊤ ∧ (classify x).unpacked = .infinity .positive) ∨
      ∃ q, e = ofRat q ∧ Denotes (classify x).unpacked q := by
  rcases trichotomy e with rfl | ⟨q, rfl⟩ | rfl
  · exact .inl ⟨rfl, by rw [classify_of_value_bot h]; rfl⟩
  · exact .inr (.inr ⟨q, rfl, denotes_classify h⟩)
  · exact .inr (.inl ⟨rfl, by rw [classify_of_value_top h]; rfl⟩)

/-- A float of the model that denotes a positive rational is finite and positive. -/
theorem Denotes.positive {u : UnpackedFloat} {k : ℚ} (hu : Denotes u k) (hk : 0 < k) :
    ∃ m q hm, u = .finite .positive m q hm := by
  cases u with
  | zero z => exact absurd (show k = 0 from hu) hk.ne'
  | finite σ m q hm =>
    obtain ⟨-, rfl⟩ := hu
    cases σ
    · have : ((Sign.negative.apply m : ℤ) : ℚ) * 2 ^ q ≤ 0 := by
        simp only [Sign.apply, Int.cast_neg, Int.cast_natCast, neg_mul, neg_nonpos]
        positivity
      exact absurd hk (not_lt.mpr this)
    · exact ⟨m, q, hm, rfl⟩
  | _ => exact hu.elim

/-- A float of the model that denotes a negative rational is finite and negative. -/
theorem Denotes.negative {u : UnpackedFloat} {k : ℚ} (hu : Denotes u k) (hk : k < 0) :
    ∃ m q hm, u = .finite .negative m q hm := by
  cases u with
  | zero z => exact absurd (show k = 0 from hu) hk.ne
  | finite σ m q hm =>
    obtain ⟨-, rfl⟩ := hu
    cases σ
    · exact ⟨m, q, hm, rfl⟩
    · have : (0 : ℚ) ≤ ((Sign.positive.apply m : ℤ) : ℚ) * 2 ^ q := by
        simp only [Sign.apply, Int.cast_natCast]
        positivity
      exact absurd hk (not_lt.mpr this)
  | _ => exact hu.elim

/-! ## The model's operations on infinite operands -/

section Infinite

variable {u : UnpackedFloat} {a : ℚ}

theorem sub_infinity (hu : Denotes u a) (σ : Sign) :
    UnpackedFloat.sub Format.binary64 u (.infinity σ) = .infinity (-σ) := by
  cases u <;> first | rfl | exact hu.elim

theorem add_infinity (hu : Denotes u a) (σ : Sign) :
    UnpackedFloat.add Format.binary64 u (.infinity σ) = .infinity σ := by
  cases u <;> first | rfl | exact hu.elim

theorem infinity_add (hu : Denotes u a) (σ : Sign) :
    UnpackedFloat.add Format.binary64 (.infinity σ) u = .infinity σ := by
  cases u <;> first | rfl | exact hu.elim

theorem infinity_sub (hu : Denotes u a) (σ : Sign) :
    UnpackedFloat.sub Format.binary64 (.infinity σ) u = .infinity σ := by
  cases u <;> first | rfl | exact hu.elim

theorem add_notANumber (u : UnpackedFloat) :
    UnpackedFloat.add Format.binary64 u .notANumber = .notANumber := by
  cases u <;> rfl

theorem finite_mul_infinity (σ : Sign) (m : Nat) (q : Int) (hm : 0 < m) (τ : Sign) :
    UnpackedFloat.mul Format.binary64 (.finite σ m q hm) (.infinity τ) =
      .infinity (σ * τ) := rfl

theorem infinity_add_infinity (σ : Sign) :
    UnpackedFloat.add Format.binary64 (.infinity σ) (.infinity σ) = .infinity σ := by
  cases σ <;> rfl

theorem packedValue_negative_infinity : packedValue (.infinity .negative) = some ⊥ :=
  packedValue_infinity true

theorem packedValue_positive_infinity : packedValue (.infinity .positive) = some ⊤ :=
  packedValue_infinity false

theorem packedValue_notANumber : packedValue .notANumber = none := by
  rw [packedValue, value, classify_ofModel_pack]
  decide

end Infinite

/-! ## Doubles that are not NaNs -/

theorem unpacked_of_value_top {x : Float} (h : value x = some ⊤) :
    (classify x).unpacked = .infinity .positive := by
  rw [classify_of_value_top h]
  rfl

/-- The positive infinity less a finite double is the positive infinity. -/
theorem value_sub_of_top {x y : Float} {c : ℚ} (hx : value x = some ⊤)
    (hy : value y = some (ofRat c)) : value (x - y) = some ⊤ := by
  rw [value_sub_eq, unpacked_of_value_top hx, infinity_sub (denotes_classify hy)]
  exact packedValue_positive_infinity

/-- A sum with a NaN is a NaN. -/
theorem value_add_of_none {x y : Float} (hy : value y = none) : value (x + y) = none := by
  have hv : (classify y).unpacked = .notANumber := by
    rw [classify_of_value_none hy]
    rfl
  rw [value_add_eq, hv, add_notANumber]
  exact packedValue_notANumber

/-- A product with the positive infinity: a NaN for a zero, and otherwise the infinity of the
other factor's sign. -/
theorem value_mul_top {x y : Float} {e : Extended} (hx : value x = some e)
    (hy : value y = some ⊤) :
    value (x * y) = if e = ofRat 0 then none else some (if e < ofRat 0 then ⊥ else ⊤) := by
  rw [value_mul_eq, unpacked_of_value_top hy]
  rcases unpacked_cases hx with ⟨rfl, hu⟩ | ⟨rfl, hu⟩ | ⟨q, rfl, hq⟩
  · rw [hu, if_neg (ofRat_ne_bot 0).symm, if_pos (bot_lt_ofRat 0)]
    exact packedValue_negative_infinity
  · rw [hu, if_neg (ofRat_ne_top 0).symm, if_neg (not_lt.mpr (ofRat_lt_top 0).le)]
    exact packedValue_positive_infinity
  · rcases lt_trichotomy q 0 with hneg | rfl | hpos
    · obtain ⟨m, q', hm, hv⟩ := hq.negative hneg
      rw [hv, finite_mul_infinity, if_neg (by simpa using hneg.ne), if_pos (by simpa using hneg)]
      exact packedValue_negative_infinity
    · -- only a zero denotes zero, and zero times infinity is a NaN
      cases hu : (classify x).unpacked with
      | zero z =>
        rw [if_pos rfl]
        exact packedValue_notANumber
      | finite σ m q' hm =>
        rw [hu] at hq
        obtain ⟨-, h0⟩ := hq
        have hpow : (2 : ℚ) ^ q' ≠ 0 := (two_zpow_pos q').ne'
        cases σ <;> simp [Sign.apply, hm.ne', hpow] at h0
      | _ =>
        rw [hu] at hq
        exact hq.elim
    · obtain ⟨m, q', hm, hv⟩ := hq.positive hpos
      rw [hv, finite_mul_infinity, if_neg (by simpa using hpos.ne'),
        if_neg (by simpa using hpos.le)]
      exact packedValue_positive_infinity

/-- A difference from a finite double `x`: the rounded difference for a finite `y`, and `⊤` or
`⊥` for `y` infinite of the other sign. -/
theorem value_sub_of_finite {x y : Float} {c : ℚ} {e : Extended} (hx : value x = some (ofRat c))
    (hy : value y = some e) : value (x - y) = some (roundMap (c - ·) ⊤ ⊥ e) := by
  have hu := denotes_classify hx
  rcases unpacked_cases hy with ⟨rfl, hv⟩ | ⟨rfl, hv⟩ | ⟨q, rfl, -⟩
  · rw [value_sub_eq, hv, sub_infinity hu]
    exact packedValue_infinity false
  · rw [value_sub_eq, hv, sub_infinity hu]
    exact packedValue_infinity true
  · rw [value_sub hx hy]
    rfl

/-- A product with a positive finite double `y`: rounded for a finite `x`, and the infinity of
`x`'s sign for an infinite one. -/
theorem value_mul_of_pos {x y : Float} {k : ℚ} {e : Extended} (hy : value y = some (ofRat k))
    (hk : 0 < k) (hx : value x = some e) : value (x * y) = some (roundMap (· * k) ⊥ ⊤ e) := by
  obtain ⟨m, q, hm, hv⟩ := (denotes_classify hy).positive hk
  rcases unpacked_cases hx with ⟨rfl, hu⟩ | ⟨rfl, hu⟩ | ⟨r, rfl, -⟩
  · rw [value_mul_eq, hu, hv]
    exact packedValue_infinity true
  · rw [value_mul_eq, hu, hv]
    exact packedValue_infinity false
  · rw [value_mul hx hy]
    rfl

/-- A product with a negative finite double `y`: rounded for a finite `x`, and the infinity of
the other sign for an infinite one. -/
theorem value_mul_of_neg {x y : Float} {k : ℚ} {e : Extended} (hy : value y = some (ofRat k))
    (hk : k < 0) (hx : value x = some e) : value (x * y) = some (roundMap (· * k) ⊤ ⊥ e) := by
  obtain ⟨m, q, hm, hv⟩ := (denotes_classify hy).negative hk
  rcases unpacked_cases hx with ⟨rfl, hu⟩ | ⟨rfl, hu⟩ | ⟨r, rfl, -⟩
  · rw [value_mul_eq, hu, hv]
    exact packedValue_infinity false
  · rw [value_mul_eq, hu, hv]
    exact packedValue_infinity true
  · rw [value_mul hx hy]
    rfl

/-- Any sum of doubles that are not NaNs: the rounded extended sum, and a NaN for two infinities
of opposite signs. -/
theorem value_add_extended {x y : Float} {a b : Extended} (hx : value x = some a)
    (hy : value y = some b) : value (x + y) = roundAdd a b := by
  rw [value_add_eq]
  rcases unpacked_cases hx with ⟨rfl, hu⟩ | ⟨rfl, hu⟩ | ⟨p, rfl, hp⟩ <;>
    rcases unpacked_cases hy with ⟨rfl, hv⟩ | ⟨rfl, hv⟩ | ⟨q, rfl, hq⟩
  · rw [hu, hv, infinity_add_infinity, packedValue_negative_infinity]
    simp [roundAdd]
  · rw [hu, hv, show UnpackedFloat.add Format.binary64 (.infinity .negative) (.infinity .positive)
      = .notANumber from rfl, packedValue_notANumber]
    simp [roundAdd]
  · rw [hu, infinity_add hq, packedValue_negative_infinity]
    simp [roundAdd]
  · rw [hu, hv, show UnpackedFloat.add Format.binary64 (.infinity .positive) (.infinity .negative)
      = .notANumber from rfl, packedValue_notANumber]
    simp [roundAdd]
  · rw [hu, hv, infinity_add_infinity, packedValue_positive_infinity]
    simp [roundAdd]
  · rw [hu, infinity_add hq, packedValue_positive_infinity]
    simp [roundAdd]
  · rw [hv, add_infinity hp, packedValue_negative_infinity]
    simp [roundAdd]
  · rw [hv, add_infinity hp, packedValue_positive_infinity]
    simp [roundAdd]
  · rw [← value_add_eq, value_add hx hy]
    simp [roundAdd]

end Backtest.Decimal
