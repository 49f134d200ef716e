import Mathlib
import Backtest.Decimal.Text
import Backtest.Decimal.Read
import Backtest.Proofs.Decimal.Shortest
/-!
# Reading back the plain text of a double

Every double reads back from its plain text as the same double, bit for bit:
`readFloat_render_plain`. NaN is written `NaN` and the infinities `inf` and `-inf`; a zero is
written `0` or `-0`; any other double is written with the shortest digits of its rounding
interval, positionally. Reading the positional text gives back the decimal that was printed
(`readUnsigned_positionalText`), its magnitude passes the reader's guard, and rounding it
gives back the bits of the double (`nearestBits_of_roundsTo`).
-/

namespace Backtest.Decimal

/-! ## Digit strings -/

theorem digitsValue_eq (ds : List Char) : digitsValue ds = Nat.ofDigitChars 10 ds 0 := by
  unfold digitsValue Nat.ofDigitChars
  congr 1
  funext acc c
  rw [Nat.mul_comm]

theorem toList_toString (n : Nat) : (toString n).toList = Nat.toDigits 10 n := by
  rw [Nat.toString_eq_repr, Nat.toList_repr]

theorem isDigit_of_mem_toString {n : Nat} {c : Char} (h : c ∈ (toString n).toList) :
    c.isDigit = true := by
  rw [toList_toString] at h
  exact Nat.isDigit_of_mem_toDigits (by decide) (by decide) h

theorem digitsValue_toString (n : Nat) : digitsValue (toString n).toList = n := by
  rw [digitsValue_eq, toList_toString, Nat.ofDigitChars_ten_toDigits]

/-- Zeros in front of digits add nothing. -/
theorem digitsValue_zeros_append (k : Nat) (ds : List Char) :
    digitsValue (List.replicate k '0' ++ ds) = digitsValue ds := by
  rw [digitsValue_eq, digitsValue_eq, Nat.ofDigitChars_append, Nat.ofDigitChars_replicate_zero,
    Nat.mul_zero]

/-- Zeros after digits scale them. -/
theorem digitsValue_append_zeros (ds : List Char) (k : Nat) :
    digitsValue (ds ++ List.replicate k '0') = digitsValue ds * 10 ^ k := by
  rw [digitsValue_eq, digitsValue_eq, Nat.ofDigitChars_append, Nat.ofDigitChars_replicate_zero,
    Nat.mul_comm]

theorem isDigit_of_mem_replicate {k : Nat} {c : Char} (h : c ∈ List.replicate k '0') :
    c.isDigit = true := by
  rw [(List.mem_replicate.mp h).2]
  decide

/-- A run of digits followed by the end of the text or by a point. -/
theorem spanDigits_append {ds r : List Char} (hds : ∀ c ∈ ds, c.isDigit = true)
    (hr : r = [] ∨ r.head? = some '.') : spanDigits (ds ++ r) = (ds, r) := by
  unfold spanDigits
  rw [List.takeWhile_append_of_pos hds, List.dropWhile_append_of_pos hds]
  rcases hr with rfl | hdot
  · simp
  · obtain ⟨rest, rfl⟩ : ∃ rest, r = '.' :: rest := by
      cases r with
      | nil => cases hdot
      | cons c rest =>
        simp only [List.head?_cons, Option.some.injEq] at hdot
        exact ⟨rest, hdot ▸ rfl⟩
    simp [show ('.' : Char).isDigit = false by decide]

/-! ## Reading an unsigned decimal -/

/-- Digits without a point: the value of the digits, unscaled. -/
theorem readUnsigned_digits {l : List Char} (hne : l ≠ []) (hl : ∀ c ∈ l, c.isDigit = true) :
    readUnsigned l = some (digitsValue l, 0) := by
  have hspan := spanDigits_append (r := []) hl (Or.inl rfl)
  rw [List.append_nil] at hspan
  unfold readUnsigned
  rw [hspan]
  simp [hne, readExponent]

/-- Digits, a point and digits: the value of all the digits, scaled by the fraction. -/
theorem readUnsigned_point {w f : List Char} (hw : w ≠ []) (hwd : ∀ c ∈ w, c.isDigit = true)
    (hfd : ∀ c ∈ f, c.isDigit = true) :
    readUnsigned (w ++ '.' :: f) = some (digitsValue (w ++ f), -(f.length : Int)) := by
  have hspan := spanDigits_append (r := '.' :: f) hwd (Or.inr rfl)
  have hfrac := spanDigits_append (r := []) hfd (Or.inl rfl)
  rw [List.append_nil] at hfrac
  unfold readUnsigned
  rw [hspan]
  simp only
  rw [hfrac]
  simp [hw, readExponent]

theorem readUnsigned_nil : readUnsigned [] = none := rfl

/-! ## Positional text -/

section Positional

theorem toList_toString_ne_nil (D : Nat) : (toString D).toList ≠ [] := by
  rw [toList_toString]
  exact Nat.toDigits_ne_nil

/-- The positional text of the digits of `D`, with `len D + E` of them before the point, reads
as a decimal of the same value: `D · 10^E` itself when there is a point, and the digits with
their trailing zeros otherwise. -/
theorem readUnsigned_positionalText (D : Nat) (E : Int) :
    ∃ D' E', readUnsigned (positionalText false (toString D) ((toString D).length + E)).toList =
      some (D', E') ∧ (D' : ℚ) * 10 ^ E' = D * 10 ^ E := by
  have hne := toList_toString_ne_nil D
  have hdig : ∀ c ∈ (toString D).toList, c.isDigit = true := fun _ => isDigit_of_mem_toString
  have hlen := String.length_toList (s := toString D)
  unfold positionalText
  simp only [Bool.false_eq_true, ↓reduceIte, String.append_empty]
  split_ifs with hp hn
  · -- no digit before the point: `0.` and `-p` zeros in front of the digits
    refine ⟨D, E, ?_, rfl⟩
    have hread := readUnsigned_point (w := ['0'])
      (f := List.replicate (-((toString D).length + E)).toNat '0' ++ (toString D).toList)
      (List.cons_ne_nil _ _) (by simp)
      (List.forall_mem_append.mpr ⟨fun _ => isDigit_of_mem_replicate, hdig⟩)
    simp only [String.toList_append, String.toList_ofList, List.append_assoc] at hread ⊢
    rw [show ("0." : String).toList = ['0', '.'] from rfl]
    simp only [List.cons_append, List.nil_append] at hread ⊢
    rw [hread, ← List.cons_append, ← List.replicate_succ, digitsValue_zeros_append,
      digitsValue_toString, List.length_append, List.length_replicate, hlen]
    congr 2
    omega
  · -- the point splits the digits
    refine ⟨D, E, ?_, rfl⟩
    have hw : (toString D).toList.take ((toString D).length + E).toNat ≠ [] := by
      simp only [ne_eq, List.take_eq_nil_iff, hne, or_false]
      omega
    have hread := readUnsigned_point
      (f := (toString D).toList.drop ((toString D).length + E).toNat) hw
      (fun c hc => hdig c (List.mem_of_mem_take hc)) (fun c hc => hdig c (List.mem_of_mem_drop hc))
    simp only [String.toList_append, String.toList_ofList, List.append_assoc]
    rw [show (".").toList = ['.'] from rfl, List.singleton_append]
    rw [hread, List.take_append_drop, digitsValue_toString, List.length_drop, hlen]
    congr 2
    omega
  · -- at least as many digits before the point as there are: trailing zeros, no point
    have hE : 0 ≤ E := by omega
    refine ⟨D * 10 ^ E.toNat, 0, ?_, ?_⟩
    · have hread := readUnsigned_digits (l := (toString D).toList ++
        List.replicate ((((toString D).length + E) - ((toString D).length : Int))).toNat '0')
        (by simp) (List.forall_mem_append.mpr ⟨hdig, fun _ => isDigit_of_mem_replicate⟩)
      rw [String.toList_append, String.toList_ofList, hread, digitsValue_append_zeros,
        digitsValue_toString,
        show ((toString D).length + E - ((toString D).length : Int)).toNat = E.toNat by omega]
    · push_cast
      rw [mul_one, ← zpow_natCast, Int.toNat_of_nonneg hE]

/-- The positional text begins with a digit: the reader sees no sign in it. -/
theorem head_positionalText (D : Nat) (E : Int) :
    ∀ c ∈ (positionalText false (toString D) ((toString D).length + E)).toList.head?,
      c.isDigit = true := by
  obtain ⟨c, rest, hcr⟩ := List.exists_cons_of_ne_nil (toList_toString_ne_nil D)
  have hc : c.isDigit = true := isDigit_of_mem_toString (by rw [hcr]; exact List.mem_cons_self)
  have hlen := String.length_toList (s := toString D)
  unfold positionalText
  simp only [Bool.false_eq_true, ↓reduceIte, String.append_empty]
  split_ifs with hp hn
  · -- the text starts `0.`
    rw [String.toList_append, String.toList_append,
      show ("0." : String).toList = ['0', '.'] from rfl]
    simp only [List.cons_append, List.head?_cons, Option.mem_def, Option.some.injEq]
    rintro c' rfl
    decide
  · -- the text starts with the first of at least one digit before the point
    obtain ⟨k, hk⟩ : ∃ k, ((toString D).length + E).toNat = k + 1 :=
      ⟨_, (Nat.succ_pred_eq_of_pos (by omega)).symm⟩
    rw [String.toList_append, String.toList_append, String.toList_ofList, hk, hcr]
    simp only [List.take_succ_cons, List.cons_append, List.head?_cons, Option.mem_def,
      Option.some.injEq]
    rintro c' rfl
    exact hc
  · -- the text starts with the digits themselves
    rw [String.toList_append, hcr]
    simp only [List.cons_append, List.head?_cons, Option.mem_def, Option.some.injEq]
    rintro c' rfl
    exact hc

end Positional

/-- A text that starts with a digit and reads as an unsigned decimal reads, after an optional
minus sign, as the signed decimal. -/
theorem readLiteral_signed (s : Bool) {t : String}
    (hhead : ∀ c ∈ t.toList.head?, c.isDigit = true) {d : Nat} {e : Int}
    (hread : readUnsigned t.toList = some (d, e)) :
    readLiteral ((if s then "-" else "") ++ t) = .ok (.number ⟨s, d, e⟩) := by
  -- an unsigned decimal has a digit, so the text is not empty
  obtain ⟨c, rest, hcr⟩ : ∃ c rest, t.toList = c :: rest := by
    cases h : t.toList with
    | nil => rw [h, readUnsigned_nil] at hread; cases hread
    | cons c rest => exact ⟨c, rest, rfl⟩
  have hc : c.isDigit = true := hhead c (by rw [hcr]; rfl)
  have hminus : c ≠ '-' := by rintro rfl; revert hc; decide
  have hplus : c ≠ '+' := by rintro rfl; revert hc; decide
  rw [hcr] at hread
  unfold readLiteral
  cases s
  · simp [hcr, hminus, hplus, hread]
  · simp [String.toList_append, hcr, hread]

/-! ## The magnitude guard -/

theorem decimalLength_pos (D : Nat) : 0 < decimalLength D := by
  unfold decimalLength
  rw [← String.length_toList, toList_toString]
  exact Nat.length_toDigits_pos

/-- The number of digits of a positive `D` places it between two powers of ten. -/
theorem decimalLength_bracket {D : Nat} (hD : 0 < D) :
    10 ^ (decimalLength D - 1) ≤ D ∧ D < 10 ^ decimalLength D := by
  have hlen := decimalLength_pos D
  have hrepr : decimalLength D = D.repr.length := by
    rw [decimalLength, Nat.toString_eq_repr]
  constructor
  · by_contra hlt
    rw [not_le] at hlt
    rcases Nat.eq_zero_or_pos (decimalLength D - 1) with h0 | hpos
    · rw [h0] at hlt; omega
    · -- fewer digits would already suffice
      have := (Nat.length_repr_le_iff hpos).mpr hlt
      omega
  · exact (Nat.length_repr_le_iff hlen).mp hrepr.le

/-- The same bracket for the decimal `D · 10^E`, in magnitudes `len D + E`. -/
theorem decimal_bracket {D : Nat} (hD : 0 < D) (E : Int) :
    (10 : ℚ) ^ ((decimalLength D : Int) - 1 + E) ≤ D * 10 ^ E ∧
      (D : ℚ) * 10 ^ E < 10 ^ ((decimalLength D : Int) + E) := by
  obtain ⟨hlo, hhi⟩ := decimalLength_bracket hD
  have hlen := decimalLength_pos D
  have h10 : (0 : ℚ) < 10 ^ E := zpow_pos (by norm_num) E
  rw [zpow_add₀ (by norm_num), zpow_add₀ (by norm_num)]
  constructor
  · apply mul_le_mul_of_nonneg_right _ h10.le
    rw [show (decimalLength D : Int) - 1 = ((decimalLength D - 1 : Nat) : Int) by omega,
      zpow_natCast]
    exact_mod_cast hlo
  · apply mul_lt_mul_of_pos_right _ h10
    rw [zpow_natCast]
    exact_mod_cast hhi

theorem two_pow_1024_lt : (2 : ℚ) ^ (1024 : Int) < 10 ^ (310 : Int) := by
  rw [show (1024 : Int) = ((1024 : Nat) : Int) from rfl,
    show (310 : Int) = ((310 : Nat) : Int) from rfl, zpow_natCast, zpow_natCast]
  exact_mod_cast (show 2 ^ 1024 < 10 ^ 310 by decide +kernel)

theorem ten_zpow_neg_331_lt : (10 : ℚ) ^ (-331 : Int) < 2 ^ (-1075 : Int) := by
  rw [show (-331 : Int) = -((331 : Nat) : Int) from rfl,
    show (-1075 : Int) = -((1075 : Nat) : Int) from rfl, zpow_neg, zpow_neg, zpow_natCast,
    zpow_natCast]
  apply inv_strictAnti₀ (by norm_num)
  exact_mod_cast (show 2 ^ 1075 < 10 ^ 331 by decide +kernel)

/-- A decimal below the overflow threshold has at most 310 digits before the point. -/
theorem magnitude_le {D : Nat} (hD : 0 < D) {E : Int} (h : (D : ℚ) * 10 ^ E < 2 ^ (1024 : Int)) :
    (decimalLength D : Int) + E ≤ 310 := by
  by_contra hgt
  have hloop : (10 : ℚ) ^ (310 : Int) < 10 ^ (310 : Int) :=
    calc (10 : ℚ) ^ (310 : Int) ≤ 10 ^ ((decimalLength D : Int) - 1 + E) :=
          zpow_le_zpow_right₀ (by norm_num) (by omega)
      _ ≤ D * 10 ^ E := (decimal_bracket hD E).1
      _ < 2 ^ (1024 : Int) := h
      _ < 10 ^ (310 : Int) := two_pow_1024_lt
  exact lt_irrefl _ hloop

/-- A decimal at least half the least subnormal has at most 330 zeros after the point. -/
theorem magnitude_ge {D : Nat} (hD : 0 < D) {E : Int}
    (h : (2 : ℚ) ^ (-1075 : Int) ≤ D * 10 ^ E) : -330 ≤ (decimalLength D : Int) + E := by
  by_contra hlt
  have hloop : (2 : ℚ) ^ (-1075 : Int) < 2 ^ (-1075 : Int) :=
    calc (2 : ℚ) ^ (-1075 : Int) ≤ D * 10 ^ E := h
      _ < 10 ^ ((decimalLength D : Int) + E) := (decimal_bracket hD E).2
      _ ≤ 10 ^ (-331 : Int) := zpow_le_zpow_right₀ (by norm_num) (by omega)
      _ < 2 ^ (-1075 : Int) := ten_zpow_neg_331_lt
  exact lt_irrefl _ hloop

/-- A value that rounds to a nonzero finite double lies between half the least subnormal and
the overflow threshold `2^1024`. -/
theorem RoundsTo.bounds {m : Nat} {q : Int} {r : ℚ} (hc : Canonical m q) (hr : RoundsTo m q r) :
    (2 : ℚ) ^ (-1075 : Int) ≤ r ∧ r < 2 ^ (1024 : Int) := by
  have hu := two_zpow_pos (q - 2)
  have hm1 : (1 : ℚ) ≤ m := by exact_mod_cast hc.pos
  have hm53 : (m : ℚ) + 1 ≤ 2 ^ 53 := by exact_mod_cast hc.lt
  have hqmin := hc.min_le
  have hqmax := hc.le_max
  simp only [minExponent, maxExponent] at hqmin hqmax
  constructor
  · -- at least `2 · 2^(q-2) = 2^(q-1)`, and `q - 1 ≥ -1075`
    calc (2 : ℚ) ^ (-1075 : Int) ≤ 2 ^ (q - 1) := zpow_le_zpow_right₀ (by norm_num) (by omega)
      _ = 2 * 2 ^ (q - 2) := by
        rw [show q - 1 = 1 + (q - 2) by ring, zpow_add₀ (by norm_num), zpow_one]
      _ ≤ (4 * m - 2) * 2 ^ (q - 2) := by gcongr; linarith
      _ ≤ r := by
        rcases hr.half_below hc.pos with h | ⟨h, -⟩
        · exact h.le
        · exact h.le
  · -- below `2^55 · 2^(q-2) = 2^(q+53)`, and `q + 53 ≤ 1024`
    calc r ≤ (4 * m + 2 : ℚ) * 2 ^ (q - 2) := hr.le_upper
      _ < 2 ^ (53 + 2) * 2 ^ (q - 2) := by gcongr; norm_num at hm53 ⊢; linarith
      _ = 2 ^ (q + (53 : Nat)) := (two_zpow_add_eq q 53).symm
      _ ≤ 2 ^ (1024 : Int) := zpow_le_zpow_right₀ (by norm_num) (by omega)

/-! ## Rounding a decimal in the interval -/

/-- The ratio the reader rounds for the decimal `D · 10^E`. -/
theorem decimal_ratio (D : Nat) (E : Int) :
    ((D * Nat.pow 10 E.toNat : Nat) : ℚ) / ((Nat.pow 10 (-E).toNat : Nat) : ℚ) = D * 10 ^ E := by
  push_cast
  simp only [Nat.pow_eq, Nat.cast_pow, Nat.cast_ofNat]
  rcases le_total 0 E with hE | hE
  · obtain ⟨k, rfl⟩ := Int.eq_ofNat_of_zero_le hE
    simp [zpow_natCast]
  · obtain ⟨k, hk⟩ : ∃ k : Nat, E = -(k : Int) := ⟨(-E).toNat, by omega⟩
    subst hk
    simp [zpow_neg, zpow_natCast, div_eq_mul_inv]

/-- The sign bit stands apart from the magnitude bits. -/
theorem packBits_eq_signBits_add (s : Bool) (m : Nat) (q : Int) :
    packBits s m q = signBits s + packBits false m q := by
  unfold packBits signBits
  cases s
  · simp
  · simp only [Nat.pow_eq, Bool.false_eq_true, ↓reduceIte, Nat.zero_add]
    split <;> omega

/-- A decimal in the rounding interval of a nonzero finite double reads as that double, with
either sign. -/
theorem toFloat_of_roundsTo (s : Bool) {D m : Nat} {E q : Int} (hD : 0 < D)
    (hc : Canonical m q) (hr : RoundsTo m q (D * 10 ^ E)) :
    DecimalText.toFloat ⟨s, D, E⟩ = ofBitsNat (packBits s m q) := by
  obtain ⟨hlo, hhi⟩ := hr.bounds hc
  have hn : 0 < D * Nat.pow 10 E.toNat := Nat.mul_pos hD (Nat.pow_pos (by norm_num))
  have hd : 0 < Nat.pow 10 (-E).toNat := Nat.pow_pos (by norm_num)
  have hround := nearestBits_of_roundsTo hn hd hc (by rw [decimal_ratio]; exact hr)
  unfold DecimalText.toFloat
  simp only
  -- neither zero nor out of range: the digits are rounded
  rw [if_neg hD.ne', if_neg (not_lt.mpr (magnitude_le hD hhi)),
    if_neg (not_lt.mpr (magnitude_ge hD hlo)), hround, packBits_eq_signBits_add s m q]
  rfl

/-! ## The round trip -/

/-- The plain text of a nonzero finite double: its sign, then the shortest digits of its rounding
interval written positionally. -/
theorem render_plain_finite {x : Float} {s : Bool} {m : Nat} {q : Int}
    (hx : classify x = .finite ⟨s, m, q⟩) (hm : m ≠ 0) :
    plain.render x = (if s then "-" else "") ++
      positionalText false (toString (shortest .up m q).digits)
        ((toString (shortest .up m q).digits).length + (shortest .up m q).exponent) := by
  simp [Layout.render, hx, hm, plain, digitText]

/-- A nonzero finite double reads back from its plain text. -/
theorem readFloat_render_plain_finite {x : Float} {s : Bool} {m : Nat} {q : Int}
    (hx : classify x = .finite ⟨s, m, q⟩) (hm : m ≠ 0) : readFloat (plain.render x) = .ok x := by
  have hc : Canonical m q := canonical_of_classifyBits hx hm
  obtain ⟨hpos, hr⟩ := shortest_roundsTo .up hc
  obtain ⟨D', E', hread, hval⟩ := readUnsigned_positionalText (shortest .up m q).digits
    (shortest .up m q).exponent
  -- the decimal read back has the printed value, so it is positive and in the interval
  have hD' : 0 < D' := by
    by_contra h0
    have hzero : (D' : ℚ) = 0 := by exact_mod_cast Nat.eq_zero_of_not_pos h0
    have hprinted : (0 : ℚ) < (shortest .up m q).digits * 10 ^ (shortest .up m q).exponent :=
      mul_pos (by exact_mod_cast hpos) (zpow_pos (by norm_num) _)
    rw [← hval, hzero, zero_mul] at hprinted
    exact lt_irrefl _ hprinted
  have hbits : x.toBits.toNat = packBits s m q :=
    eq_packBits_of_classifyBits (UInt64.toNat_lt x.toBits) hx
  rw [render_plain_finite hx hm, readFloat,
    readLiteral_signed s (head_positionalText _ _) hread]
  show Except.ok (DecimalText.toFloat ⟨s, D', E'⟩) = _
  rw [toFloat_of_roundsTo s hD' hc (hval ▸ hr), ← hbits, ofBitsNat_toNat_toBits]

theorem classify_nan : classify Decimal.nan = .nan := by decide

/-- Every double reads back from its plain text as itself, bit for bit; every NaN reads back as
the one NaN the model has. -/
theorem readFloat_render_plain (x : Float) : readFloat (plain.render x) = .ok x := by
  have hlt := UInt64.toNat_lt x.toBits
  rcases hx : classify x with _ | s | ⟨s, m, q⟩
  · -- NaN
    have hnan : Decimal.nan = x := eq_of_classify_eq (by rw [hx, classify_nan])
    simp only [Layout.render, hx, plain]
    rw [readFloat, show readLiteral "NaN" = .ok .nan by decide]
    exact congrArg Except.ok hnan
  · -- an infinity: its bits are those of the infinity of its sign
    have hbits := eq_infinityBits_of_classifyBits hlt hx
    simp only [Layout.render, hx, plain]
    cases s
    · rw [readFloat, if_neg Bool.false_ne_true, show readLiteral "inf" = .ok (.infinite false) by
        decide]
      show Except.ok (ofBitsNat (infinityBits false)) = _
      rw [← hbits, ofBitsNat_toNat_toBits]
    · rw [readFloat, if_pos rfl, show readLiteral "-inf" = .ok (.infinite true) by decide]
      show Except.ok (ofBitsNat (infinityBits true)) = _
      rw [← hbits, ofBitsNat_toNat_toBits]
  · by_cases hm : m = 0
    · -- a zero: its bits are the sign bit alone
      subst hm
      have hbits := eq_packBits_of_classifyBits hlt hx
      simp only [Layout.render, hx, plain, if_true]
      have h0 : ("0" : String).toList = ['0'] := rfl
      rw [readFloat, readLiteral_signed s (t := "0") (d := 0) (e := 0) (by
        rw [h0]
        rintro c ⟨⟩
        decide) (by rw [h0]; rfl)]
      show Except.ok (DecimalText.toFloat ⟨s, 0, 0⟩) = _
      rw [DecimalText.toFloat, if_pos rfl, ← ofBitsNat_toNat_toBits x, hbits]
      simp [packBits]
    · exact readFloat_render_plain_finite hx hm

end Backtest.Decimal
