import Mathlib
import Backtest.Decimal.Binary
/-!
# Bit patterns of doubles against Lean's own float model

The library reads a double only through its bit pattern (`classifyBits`) and writes one only
through `packBits`, `infinityBits` and `ofBitsNat`. Lean's `Float` is itself a model: a
64-bit pattern whose NaNs are one canonical pattern, with `Float.ofBits` unpacking a pattern
and packing it again. This module ties the two views together:

* `unpack_eq`: Lean's unpacking of a pattern is the library's classification of it;
* `toNat_pack_finite`: packing a canonical significand and exponent gives `packBits`;
* `ofBits_toBits`, `ofBitsNat_toNat_toBits`: a double is rebuilt from its bits, and
  `eq_of_classify_eq`: the classification determines the double;
* `toNat_toBits_ofBitsNat_lt`: a pattern with a clear sign bit gives a double with one;
* `isNaN_or_le_zero_eq_false`, `isNaN_or_ge_zero_eq_false`: the sign tests the library
  writes as `isNaN x || x ≤ 0` and `isNaN x || x ≥ 0` are the strict comparisons with zero.
-/

namespace Backtest.Decimal

open Float.Model.UnpackedFloat
open Float.Model (Format)

/-- The bits the sign contributes to a pattern. -/
def signBits (negative : Bool) : Nat := if negative then 2 ^ 63 else 0

/-- A significand and exponent as `classifyBits` gives them for a nonzero finite double: the
significand has 53 bits with the leading one set, or fewer at the least exponent. -/
structure Canonical (m : Nat) (q : Int) : Prop where
  pos : 0 < m
  lt : m < 2 ^ 53
  min_le : minExponent ≤ q
  le_max : q ≤ maxExponent
  normal : 2 ^ 52 ≤ m ∨ q = minExponent

/-! ## Classification of a pattern -/

theorem classifyBits_eq_nan {n : Nat} :
    classifyBits n = .nan ↔ n / 2 ^ 52 % 2048 = 2047 ∧ n % 2 ^ 52 ≠ 0 := by
  unfold classifyBits
  simp only [Nat.pow_eq, beq_iff_eq]
  split_ifs <;> simp_all

theorem eq_infinityBits_of_classifyBits {n : Nat} {s : Bool} (hn : n < 2 ^ 64)
    (h : classifyBits n = .infinite s) : n = infinityBits s := by
  unfold classifyBits at h
  simp only [Nat.pow_eq, Nat.reducePow, beq_iff_eq] at h hn
  split_ifs at h
  cases h
  simp only [infinityBits, Nat.pow_eq, Nat.reducePow, beq_iff_eq]
  split <;> omega

/-- A finite pattern is the packing of its own sign, significand and exponent. -/
theorem eq_packBits_of_classifyBits {n : Nat} {b : Binary} (hn : n < 2 ^ 64)
    (h : classifyBits n = .finite b) : n = packBits b.negative b.significand b.exponent := by
  unfold classifyBits at h
  simp only [Nat.pow_eq, Nat.reducePow, beq_iff_eq] at h hn
  split_ifs at h <;> cases h
  · simp only [packBits, Nat.pow_eq, Nat.reducePow, beq_iff_eq]
    split <;> split at * <;> omega
  · -- a normal pattern: the exponent field comes back from `exponent + 1075`
    have hfield : ((n / 4503599627370496 % 2048 : Nat) - 1075 + 1075 : Int).toNat =
        n / 4503599627370496 % 2048 := by omega
    simp only [packBits, Nat.pow_eq, Nat.reducePow, hfield, beq_iff_eq]
    split <;> split at * <;> omega

theorem canonical_of_classifyBits {n : Nat} {b : Binary} (h : classifyBits n = .finite b)
    (hm : b.significand ≠ 0) : Canonical b.significand b.exponent := by
  obtain ⟨s, m, q⟩ := b
  unfold classifyBits at h
  simp only [Nat.pow_eq, Nat.reducePow, beq_iff_eq] at h
  simp only at hm ⊢
  split_ifs at h <;> cases h
  · exact ⟨by omega, by omega, le_rfl, by decide, Or.inr rfl⟩
  · refine ⟨by omega, by omega, ?_, ?_, Or.inl (by omega)⟩ <;>
      simp only [minExponent, maxExponent] <;> omega

theorem exponent_of_classifyBits_zero {n : Nat} {b : Binary} (h : classifyBits n = .finite b)
    (hm : b.significand = 0) : b.exponent = minExponent := by
  unfold classifyBits at h
  simp only [Nat.pow_eq, Nat.reducePow, beq_iff_eq] at h
  split_ifs at h <;> cases h
  · rfl
  · simp only at hm; omega

/-! ## Unpacking -/

/-- The sign of Lean's float model for a sign bit. -/
def signOf (negative : Bool) : Sign := if negative then .negative else .positive

/-- The unpacked float of Lean's model that a classification describes. -/
def Classified.unpacked : Classified → Float.Model.UnpackedFloat
  | .nan => .notANumber
  | .infinite s => .infinity (signOf s)
  | .finite ⟨s, m, q⟩ =>
    if h : m = 0 then .zero (signOf s) else .finite (signOf s) m q (Nat.pos_of_ne_zero h)

theorem toNat_unpackMantissa (b : BitVec 64) :
    (@unpackMantissa Format.binary64 b).toNat = b.toNat % 2 ^ 52 := by
  simp [unpackMantissa]

theorem toNat_unpackExponent (b : BitVec 64) :
    (@unpackExponent Format.binary64 b).toNat = b.toNat / 2 ^ 52 % 2048 := by
  simp [unpackExponent, Nat.shiftRight_eq_div_pow]

theorem ofBitVec_unpackSign (b : BitVec 64) :
    Sign.ofBitVec (@unpackSign Format.binary64 b) = signOf (b.toNat / 2 ^ 63 % 2 == 1) := by
  have h : (@unpackSign Format.binary64 b).toNat = b.toNat / 2 ^ 63 % 2 := by
    simp [unpackSign, Nat.shiftRight_eq_div_pow]
  unfold Sign.ofBitVec signOf
  by_cases h0 : b.toNat / 2 ^ 63 % 2 = 0
  · have hzero : @unpackSign Format.binary64 b = 0#1 := by
      apply BitVec.eq_of_toNat_eq
      simp only [h, h0]
      rfl
    simp only [hzero, h0]
    rfl
  · have hzero : @unpackSign Format.binary64 b ≠ 0#1 := by
      intro he
      apply h0
      rw [← h, he]
      rfl
    have h1 : b.toNat / 2 ^ 63 % 2 = 1 := by omega
    simp only [hzero, h1]
    rfl

/-- Lean's unpacking of a pattern is the library's classification of it. -/
theorem unpack_eq (b : BitVec 64) :
    unpack Format.binary64 b = (classifyBits b.toNat).unpacked := by
  have hm := toNat_unpackMantissa b
  have he := toNat_unpackExponent b
  have hs := ofBitVec_unpackSign b
  -- `unpack` tests its fields as bit vectors, `classifyBits` as numbers
  have hones : ∀ x : BitVec 11, x = -1#11 ↔ x.toNat = 2047 := fun x => by
    rw [BitVec.toNat_eq]
    rfl
  have hzero : ∀ {w} (x : BitVec w), x = 0#w ↔ x.toNat = 0 := fun x => by
    rw [BitVec.toNat_eq]
    simp
  have hbias : (Format.binary64.exponentBias : Int) = 1023 := by decide
  -- a normal significand gets its leading one back
  have hlead : (1#1 ++ @unpackMantissa Format.binary64 b).toNat = b.toNat % 2 ^ 52 + 2 ^ 52 := by
    rw [BitVec.toNat_append, ← Nat.shiftLeft_add_eq_or_of_lt (by rw [hm]; omega), hm]
    simp only [Nat.shiftLeft_eq]
    simp
    omega
  unfold unpack classifyBits
  simp only [Nat.pow_eq, hones, hzero, he, hm, hs]
  simp only [Nat.reducePow] at *
  split_ifs <;> simp_all [Classified.unpacked, minExponent]

/-! ## Packing -/

theorem toNat_signOf (s : Bool) : (signOf s).toBitVec.toNat * 2 ^ 63 = signBits s := by
  cases s <;> rfl

theorem toNat_packComponents (s : Sign) (e : BitVec 11) (m : BitVec 52) :
    (packComponents Format.binary64 s e m).toNat =
      s.toBitVec.toNat * 2 ^ 63 + e.toNat * 2 ^ 52 + m.toNat := by
  have hm := m.isLt
  have he := e.isLt
  unfold packComponents
  rw [BitVec.toNat_append, ← Nat.shiftLeft_add_eq_or_of_lt hm, BitVec.toNat_append,
    ← Nat.shiftLeft_add_eq_or_of_lt he]
  simp only [Nat.shiftLeft_eq]
  ring

theorem toNat_pack_infinity (s : Bool) :
    (pack Format.binary64 (.infinity (signOf s))).toNat = infinityBits s := by
  simp only [pack, packedInfinity, toNat_packComponents, toNat_signOf]
  cases s <;> rfl

theorem toNat_pack_zero (s : Bool) :
    (pack Format.binary64 (.zero (signOf s))).toNat = signBits s := by
  simp only [pack, packedZero, toNat_packComponents, toNat_signOf]
  rfl

/-- Packing a canonical significand and exponent in Lean's model gives `packBits`. -/
theorem toNat_pack_finite (s : Bool) {m : Nat} {q : Int} (hc : Canonical m q) :
    (pack Format.binary64 (.finite (signOf s) m q hc.pos)).toNat = packBits s m q := by
  obtain ⟨hpos, hlt, hmin, hmax, hnormal⟩ := hc
  simp only [minExponent, maxExponent] at hmin hmax hnormal
  have hbias : (Format.binary64.exponentBias : Int) = 1023 := by decide
  have hbits : Format.binary64.mantissaBits = 53 := rfl
  by_cases hsub : m < 2 ^ 52
  · -- subnormal: fewer than 53 bits, at the least exponent, exponent field zero
    have hq : q = -1074 := by omega
    have hlog : m.log2 < 52 := (Nat.log2_lt (by omega)).mpr hsub
    subst hq
    have hpack : pack Format.binary64 (.finite (signOf s) m (-1074) hpos) =
        packComponents Format.binary64 (signOf s) 0#11 (BitVec.ofNat 52 m) := by
      simp [pack, hbias, hbits, hlog.ne]
    rw [hpack, toNat_packComponents, toNat_signOf]
    have hsub' : m < 4503599627370496 := hsub
    simp [packBits, signBits, hsub', Nat.mod_eq_of_lt hsub']
  · -- normal: 53 bits, the leading one implicit in the packed form
    have hlog : m.log2 = 52 := by
      rw [Nat.log2_eq_iff (by omega)]
      omega
    have hpack : pack Format.binary64 (.finite (signOf s) m q hpos) =
        packComponents Format.binary64 (signOf s) (BitVec.ofNat 11 (q + 1075).toNat)
          (BitVec.ofNat 52 m) := by
      have h52 : q + 1023 + ((52 : Nat) : Int) = q + 1075 := by omega
      have hnot : ¬ 2 ^ 11 ≤ (q + 1075).toNat + 1 := by omega
      simp only [pack, hbias, hbits, hlog, h52, if_true, if_neg hnot]
    rw [hpack, toNat_packComponents, toNat_signOf]
    have hsub' : ¬ m < 4503599627370496 := hsub
    have hfield : (q + 1075).toNat < 2048 := by omega
    have hlt' : m < 9007199254740992 := hlt
    simp [packBits, signBits, hsub', Nat.mod_eq_of_lt hfield]
    omega

/-- A valid pattern is rebuilt by unpacking and packing it again. -/
theorem pack_unpack (b : BitVec 64) (hv : Format.binary64.Valid b) :
    pack Format.binary64 (unpack Format.binary64 b) = b := by
  have hb : b.toNat < 2 ^ 64 := b.isLt
  rw [unpack_eq]
  rcases hc : classifyBits b.toNat with _ | s | ⟨s, m, q⟩
  · -- validity makes a NaN pattern the canonical one
    obtain ⟨hfield, hfrac⟩ := classifyBits_eq_nan.mp hc
    have hE : @unpackExponent Format.binary64 b = -1#11 := by
      apply BitVec.eq_of_toNat_eq
      rw [toNat_unpackExponent, hfield]
      rfl
    have hM : @unpackMantissa Format.binary64 b ≠ 0#52 := by
      intro h0
      have := congrArg BitVec.toNat h0
      rw [toNat_unpackMantissa] at this
      exact hfrac this
    exact (hv.eq_packedNaN hE hM).symm
  · apply BitVec.eq_of_toNat_eq
    rw [Classified.unpacked, toNat_pack_infinity]
    exact (eq_infinityBits_of_classifyBits hb hc).symm
  · apply BitVec.eq_of_toNat_eq
    by_cases hm : m = 0
    · subst hm
      have hbits := eq_packBits_of_classifyBits hb hc
      simp only [Classified.unpacked, dif_pos, toNat_pack_zero]
      simp [packBits, signBits] at hbits ⊢
      omega
    · have hcan := canonical_of_classifyBits hc hm
      simp only [Classified.unpacked, dif_neg hm]
      rw [toNat_pack_finite s hcan]
      exact (eq_packBits_of_classifyBits hb hc).symm

/-- A double is the double of its own bits. -/
theorem ofBits_toBits (x : Float) : Float.ofBits x.toBits = x := by
  obtain ⟨⟨bits, valid⟩⟩ := x
  show Float.ofModel (Float.Model.ofBits bits) = Float.ofModel ⟨bits, valid⟩
  congr 1
  simp only [Float.Model.ofBits, Float.Model.pack, Float.Model.mk.injEq]
  rw [pack_unpack _ valid]

theorem ofBitsNat_toNat_toBits (x : Float) : ofBitsNat x.toBits.toNat = x := by
  rw [ofBitsNat, Nat.toUInt64_eq, UInt64.ofNat_toNat, ofBits_toBits]

/-- The double `Float.ofBits` builds depends on the pattern only through its classification. -/
theorem ofBits_eq_pack (b : UInt64) :
    Float.ofBits b = .ofModel (Float.Model.pack (classifyBits b.toNat).unpacked) := by
  show Float.ofModel (Float.Model.pack (unpack Format.binary64 b.toBitVec)) = _
  rw [unpack_eq, UInt64.toNat_toBitVec]

theorem eq_of_classify_eq {x y : Float} (h : classify x = classify y) : x = y := by
  rw [← ofBits_toBits x, ← ofBits_toBits y, ofBits_eq_pack, ofBits_eq_pack]
  unfold classify at h
  rw [h]

/-- A pattern with a clear sign bit stays clear when Lean's model unpacks and packs it: a NaN
packs as the canonical NaN, which is positive, and anything else packs as itself. -/
theorem toNat_pack_unpacked_lt {n : Nat} (hn : n < 2 ^ 63) :
    (pack Format.binary64 (classifyBits n).unpacked).toNat < 2 ^ 63 := by
  have h64 : n < 2 ^ 64 := by omega
  rcases hc : classifyBits n with _ | s | ⟨s, m, q⟩
  · decide
  · have hbits := eq_infinityBits_of_classifyBits h64 hc
    cases s
    · rw [Classified.unpacked, toNat_pack_infinity]
      simp [infinityBits]
    · simp [infinityBits] at hbits
      omega
  · have hbits := eq_packBits_of_classifyBits h64 hc
    cases s
    · by_cases hm : m = 0
      · simp [Classified.unpacked, hm, toNat_pack_zero, signBits]
      · rw [Classified.unpacked, dif_neg hm,
          toNat_pack_finite false (canonical_of_classifyBits hc hm)]
        dsimp only at hbits ⊢
        omega
    · -- a set sign bit would put the pattern past `2^63`
      simp only [packBits, Nat.pow_eq, ↓reduceIte] at hbits
      split at hbits <;> omega

/-- A double built from a pattern with a clear sign bit has a clear sign bit. -/
theorem toNat_toBits_ofBitsNat_lt {n : Nat} (hn : n < 2 ^ 63) :
    (ofBitsNat n).toBits.toNat < 2 ^ 63 := by
  have hmod : n.toUInt64.toNat = n := by
    rw [Nat.toUInt64_eq, UInt64.toNat_ofNat']
    omega
  rw [ofBitsNat, ofBits_eq_pack, hmod]
  exact toNat_pack_unpacked_lt hn

/-! ## Comparison with zero -/

theorem unpack_toModel (x : Float) : x.toModel.unpack = (classify x).unpacked :=
  unpack_eq x.toBits.toBitVec

theorem le_iff_unpacked (x y : Float) :
    x ≤ y ↔ ((classify x).unpacked.le (classify y).unpacked) = true := by
  change decide (x.toModel ≤ y.toModel) = true ↔ _
  rw [decide_eq_true_eq]
  change x.toModel.unpack.le y.toModel.unpack = true ↔ _
  rw [unpack_toModel, unpack_toModel]

theorem lt_iff_unpacked (x y : Float) :
    x < y ↔ ((classify x).unpacked.lt (classify y).unpacked) = true := by
  change decide (x.toModel < y.toModel) = true ↔ _
  rw [decide_eq_true_eq]
  change x.toModel.unpack.lt y.toModel.unpack = true ↔ _
  rw [unpack_toModel, unpack_toModel]

theorem classify_zero : classify 0.0 = .finite ⟨false, 0, minExponent⟩ := by decide

/-- "NaN or at most zero" fails exactly for the positive doubles. -/
theorem isNaN_or_le_zero_eq_false (x : Float) :
    (isNaN x || decide (x ≤ 0.0)) = false ↔ 0.0 < x := by
  rw [lt_iff_unpacked]
  have hle := le_iff_unpacked x 0.0
  rw [classify_zero] at hle ⊢
  simp only [Bool.or_eq_false_iff, decide_eq_false_iff_not, hle, isNaN]
  -- IEEE comparison with `+0` by the kind of `x`: NaN, an infinity, a zero, a nonzero value
  rcases classify x with _ | s | ⟨s, m, q⟩
  · simp [Classified.unpacked, Float.Model.UnpackedFloat.le, Float.Model.UnpackedFloat.lt,
      Float.Model.UnpackedFloat.compare]
  · cases s <;> simp [Classified.unpacked, signOf, Float.Model.UnpackedFloat.le,
      Float.Model.UnpackedFloat.lt, Float.Model.UnpackedFloat.compare]
  · by_cases hm : m = 0 <;> cases s <;>
      simp [Classified.unpacked, signOf, hm, Float.Model.UnpackedFloat.le,
        Float.Model.UnpackedFloat.lt, Float.Model.UnpackedFloat.compare]

/-- "NaN or at least zero" fails exactly for the negative doubles. -/
theorem isNaN_or_ge_zero_eq_false (x : Float) :
    (isNaN x || decide (x ≥ 0.0)) = false ↔ x < 0.0 := by
  rw [lt_iff_unpacked]
  have hle := le_iff_unpacked 0.0 x
  rw [classify_zero] at hle ⊢
  simp only [ge_iff_le, Bool.or_eq_false_iff, decide_eq_false_iff_not, hle, isNaN]
  rcases classify x with _ | s | ⟨s, m, q⟩
  · simp [Classified.unpacked, Float.Model.UnpackedFloat.le, Float.Model.UnpackedFloat.lt,
      Float.Model.UnpackedFloat.compare]
  · cases s <;> simp [Classified.unpacked, signOf, Float.Model.UnpackedFloat.le,
      Float.Model.UnpackedFloat.lt, Float.Model.UnpackedFloat.compare]
  · by_cases hm : m = 0 <;> cases s <;>
      simp [Classified.unpacked, signOf, hm, Float.Model.UnpackedFloat.le,
        Float.Model.UnpackedFloat.lt, Float.Model.UnpackedFloat.compare]

end Backtest.Decimal
