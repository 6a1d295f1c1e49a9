import Mathlib
import TicketPress.Project.Document

/-!
# Numbers of dots as floats

A number of dots is read through a float. A float has 53 bits for a whole
number, so one of 32 bits goes in and comes out unchanged: `dots?_toFloat`.
The other way, what a float from one up is cut to is never zero:
`one_le_of_dots?`.

Both are read off the parts of a float, a sign, a mantissa and an exponent of
two. A positive whole number below `2 ^ 53` has its leading bit moved to the
front of the mantissa, and the exponent says by how many places.
-/

namespace TicketPress

open Float.Model Float.Model.UnpackedFloat

/-! ## The parts of a whole number -/

/-- How many places a number has to be moved for its leading bit to be the
first of 53. -/
def room (n : Nat) : Nat := 52 - n.log2

theorem log2_lt_of_lt {n : Nat} (hpos : 0 < n) (h : n < 2 ^ 53) : n.log2 < 53 :=
  (Nat.log2_lt (by omega)).mpr h

/-- The mantissa of a whole number has its leading bit in front. -/
theorem mantissa_bounds {n : Nat} (hpos : 0 < n) (h : n < 2 ^ 53) :
    2 ^ 52 ≤ n <<< room n ∧ n <<< room n < 2 ^ 53 := by
  have hlog := log2_lt_of_lt hpos h
  have hlow := Nat.log2_self_le (n := n) (by omega)
  have hhigh := Nat.lt_log2_self (n := n)
  have hpow : 2 ^ n.log2 * 2 ^ room n = 2 ^ 52 := by
    rw [← Nat.pow_add, room]
    congr 1
    omega
  rw [Nat.shiftLeft_eq]
  constructor
  · calc
      2 ^ 52 = 2 ^ n.log2 * 2 ^ room n := hpow.symm
      _ ≤ n * 2 ^ room n := Nat.mul_le_mul_right _ hlow
  · calc
      n * 2 ^ room n < 2 ^ (n.log2 + 1) * 2 ^ room n :=
        Nat.mul_lt_mul_of_pos_right hhigh (Nat.two_pow_pos _)
      _ = 2 ^ n.log2 * 2 ^ room n * 2 := by ring
      _ = 2 ^ 53 := by rw [hpow]; norm_num

theorem log2_of_front {m : Nat} (hlow : 2 ^ 52 ≤ m) (hhigh : m < 2 ^ 53) : m.log2 = 52 := by
  have hlt := (Nat.log2_lt (n := m) (k := 53) (by omega)).mpr hhigh
  have hle := (Nat.le_log2 (n := m) (k := 52) (by omega)).mpr hlow
  omega

/-- A mantissa that has its leading bit in front stays as it is. -/
theorem shiftToTargetExponent_of_front {m : Nat} (hlow : 2 ^ 52 ≤ m) (hhigh : m < 2 ^ 53)
    {e : Int} (he : -1074 ≤ e) :
    shiftToTargetExponent Format.binary64 m e .exact = (⟨m, false, false⟩, e) := by
  have hlog := log2_of_front hlow hhigh
  have htarget : Format.binary64.targetExponent (totalExponent m e) = e := by
    simp only [Format.targetExponent, totalExponent, Format.mantissaBits, Format.minExponent, hlog]
    omega
  simp [shiftToTargetExponent, shiftToExponent, htarget, ExtendedMantissa.ofMantissaAndAccuracy,
    HShiftRight.hShiftRight, Nat.repeat]

theorem ofNat_eq_finite {n : Nat} (hpos : 0 < n) (h : n < 2 ^ 53) :
    ∃ hm, UnpackedFloat.ofNat Format.binary64 n =
      .finite .positive (n <<< room n) (-(room n : Int)) hm := by
  obtain ⟨hlow, hhigh⟩ := mantissa_bounds hpos h
  have hlog := log2_lt_of_lt hpos h
  have htarget : Format.binary64.targetExponent (totalExponent n 0) = -(room n : Int) := by
    simp only [Format.targetExponent, totalExponent, Format.mantissaBits, Format.minExponent, room]
    omega
  have hdecrease : decreaseExponent n 0 (-(room n : Int)) = (n <<< room n, -(room n : Int)) := by
    simp [decreaseExponent]
  have hshift := shiftToTargetExponent_of_front hlow hhigh (e := -(room n : Int))
    (by unfold room; omega)
  have hround : roundWithAccuracy Format.binary64 .positive (n <<< room n) (-(room n : Int)) .exact =
      .finite .positive (n <<< room n) (-(room n : Int)) (by omega) := by
    simp only [roundWithAccuracy, hshift, ExtendedMantissa.roundedMantissa,
      ExtendedMantissa.accuracy, Accuracy.roundToNearestEven]
    rw [dif_neg (by omega)]
  refine ⟨by omega, ?_⟩
  have hcompare : compare (n : Int) 0 = .gt := by
    rw [Int.compare_eq_gt]
    omega
  simp only [UnpackedFloat.ofNat, UnpackedFloat.ofInt, UnpackedFloat.normalize, hcompare,
    UnpackedFloat.round, Int.toNat_natCast, htarget, hdecrease, hround]

/-- The bit in front is not stored: put back, it gives the mantissa. -/
theorem toNat_front_append {m : Nat} (hlow : 2 ^ 52 ≤ m) (hhigh : m < 2 ^ 53) :
    (1#1 ++ BitVec.ofNat 52 m).toNat = m := by
  have hlast : (BitVec.ofNat 52 m).toNat = m - 2 ^ 52 := by
    rw [BitVec.toNat_ofNat]
    omega
  rw [BitVec.toNat_append, ← Nat.shiftLeft_add_eq_or_of_lt (BitVec.isLt _), hlast, Nat.shiftLeft_eq]
  simp
  omega

/-- The parts of a float of this kind come back when it is packed. -/
theorem unpack_pack_finite {m : Nat} (hlow : 2 ^ 52 ≤ m) (hhigh : m < 2 ^ 53) {k : Nat}
    (hk : k ≤ 52) (hm : 0 < m) :
    (Float.Model.pack (.finite .positive m (-(k : Int)) hm)).unpack =
      .finite .positive m (-(k : Int)) hm := by
  have hlog := log2_of_front hlow hhigh
  have hmantissa := toNat_front_append hlow hhigh
  -- The exponent is stored with the bias of 1023 and the 52 places of the mantissa added.
  have hbiased : (-(k : Int) + (Format.binary64.exponentBias : Int) +
      (Format.binary64.mantissaBitsWithoutImplicit : Int)).toNat = 1075 - k := by
    simp only [Format.exponentBias]
    omega
  have hexponent : (BitVec.ofNat 11 (1075 - k)).toNat = 1075 - k := by
    rw [BitVec.toNat_ofNat]
    omega
  have hpack : UnpackedFloat.pack Format.binary64 (.finite .positive m (-(k : Int)) hm) =
      packComponents Format.binary64 .positive (BitVec.ofNat 11 (1075 - k)) (BitVec.ofNat 52 m) := by
    simp only [UnpackedFloat.pack, hbiased, hlog]
    rw [if_neg (by omega), if_pos (by simp [Format.mantissaBits])]
  -- Neither the exponent of what is not finite nor that of what is too small.
  have hother : ∀ v : BitVec 11, v.toNat ≠ 1075 - k → BitVec.ofNat 11 (1075 - k) ≠ v := by
    rintro v hv rfl
    exact hv hexponent
  have hones := hother (-1#11) (by simp; omega)
  have hzero := hother 0#11 (by simp; omega)
  show UnpackedFloat.unpack Format.binary64 (UnpackedFloat.pack Format.binary64 _) = _
  rw [hpack]
  simp only [UnpackedFloat.unpack, unpackMantissa_packComponents, unpackExponent_packComponents,
    unpackSign_packComponents, Sign.ofBitVec_toBitVec, hones, hzero, if_false, hexponent, hmantissa]
  congr 1
  simp only [Format.exponentBias]
  omega

/-! ## Whole parts -/

theorem shiftRight_mantissa (em : ExtendedMantissa) (k : Nat) :
    (em >>> k).mantissa = em.mantissa / 2 ^ k := by
  induction k generalizing em with
  | zero => simp [HShiftRight.hShiftRight, Nat.repeat]
  | succ k ih =>
      have hhalf : ∀ em : ExtendedMantissa, em.shiftRightOne.mantissa = em.mantissa / 2 := by
        rintro ⟨m, r, s⟩
        rfl
      change (ExtendedMantissa.shiftRightOne (em >>> k)).mantissa = _
      rw [hhalf, ih, Nat.div_div_eq_div_mul, Nat.pow_succ]

/-- The whole part of a positive float: its mantissa moved by its exponent. -/
theorem roundToInt_positive (m : Nat) (e : Int) :
    roundToInt .positive m e = ((m * 2 ^ e.toNat / 2 ^ (-e).toNat : Nat) : Int) := by
  have hplaces : (0 - (e - (e.toNat : Int))).toNat = (-e).toNat := by omega
  simp only [roundToInt, decreaseExponent, shiftToExponent, Int.sub_zero, hplaces,
    ExtendedMantissa.ofMantissaAndAccuracy, shiftRight_mantissa, Nat.shiftLeft_eq]
  rfl

/-! ## Floats by their parts -/

theorem one_unpack : (1.0 : Float).toModel.unpack =
    .finite .positive (2 ^ 52) (-52) (by decide) := rfl

/-- The float of a whole number below `2 ^ 53`, in parts. -/
theorem toFloat_unpack {n : Nat} (hpos : 0 < n) (h : n < 2 ^ 53) :
    ∃ hm, n.toUInt64.toFloat.toModel.unpack =
      .finite .positive (n <<< room n) (-(room n : Int)) hm := by
  obtain ⟨hlow, hhigh⟩ := mantissa_bounds hpos h
  obtain ⟨hm, hparts⟩ := ofNat_eq_finite hpos h
  have hn : n.toUInt64.toNat = n := by
    rw [Nat.toUInt64, UInt64.toNat_ofNat']
    omega
  refine ⟨hm, ?_⟩
  show (Float.Model.pack (UnpackedFloat.ofNat Format.binary64 n.toUInt64.toNat)).unpack = _
  rw [hn, hparts]
  exact unpack_pack_finite hlow hhigh (by unfold room; omega) hm

theorem isFinite_of_unpack {x : Float} {sign : Sign} {m : Nat} {e : Int} {hm : 0 < m}
    (h : x.toModel.unpack = .finite sign m e hm) : x.isFinite = true := by
  simp only [Float.isFinite, Float.Model.isFinite, h, UnpackedFloat.isFinite]

/-- One is the least float with its exponent and its leading bit in front. -/
theorem one_le_iff_of_unpack {x : Float} {m : Nat} {e : Int} {hm : 0 < m}
    (h : x.toModel.unpack = .finite .positive m e hm) :
    1.0 ≤ x ↔ -52 < e ∨ e = -52 ∧ 2 ^ 52 ≤ m := by
  have hcompare : 1.0 ≤ x ↔ ((compare (-52) e).then (compare (2 ^ 52) m)).isLE = true := by
    show decide (((1.0 : Float).toModel.unpack.compare x.toModel.unpack).any Ordering.isLE = true) =
      true ↔ _
    simp only [one_unpack, h, UnpackedFloat.compare, Option.any_some, decide_eq_true_eq]
  rw [hcompare]
  rcases lt_trichotomy (-52 : Int) e with hlt | heq | hgt
  · simp [compare_lt_iff_lt.mpr hlt, hlt]
  · simp [heq.symm, Nat.isLE_compare]
  · simp [compare_gt_iff_gt.mpr hgt]
    omega

theorem toUInt32_of_unpack {x : Float} {m : Nat} {e : Int} {hm : 0 < m}
    (h : x.toModel.unpack = .finite .positive m e hm) :
    x.toUInt32 = UInt32.ofNatClamp (m * 2 ^ e.toNat / 2 ^ (-e).toNat) := by
  simp only [Float.toUInt32, Float.Model.toUInt32, UnpackedFloat.toUInt32, h, UnpackedFloat.toInt,
    roundToInt_positive, Int.toNat_natCast]

/-- The leading bit stands in front unless the exponent is the smallest one. -/
theorem front_of_unpack {x : Float} {sign : Sign} {m : Nat} {e : Int} {hm : 0 < m}
    (h : x.toModel.unpack = .finite sign m e hm) : e = -1074 ∨ 2 ^ 52 ≤ m := by
  simp only [Float.Model.unpack, UnpackedFloat.unpack] at h
  split at h
  · split at h <;> cases h
  · split at h
    · rename_i hzero
      split at h
      · cases h
      · obtain ⟨-, -, he⟩ := UnpackedFloat.finite.inj h
        left
        rw [← he, hzero]
        decide
    · obtain ⟨-, hm, -⟩ := UnpackedFloat.finite.inj h
      right
      rw [← hm, BitVec.toNat_append, ← Nat.shiftLeft_add_eq_or_of_lt (BitVec.isLt _)]
      simp [Nat.shiftLeft_eq]

theorem one_le_ofNatClamp {n : Nat} (h : 1 ≤ n) : 1 ≤ UInt32.ofNatClamp n := by
  rw [UInt32.le_iff_toNat_le, UInt32.ofNatClamp]
  split
  · exact h
  · decide

/-- A float from one up is positive, and its leading bit stands in front. -/
theorem exists_unpack_of_one_le {x : Float} (hfinite : x.isFinite = true) (hone : 1.0 ≤ x) :
    ∃ m e hm, x.toModel.unpack = .finite .positive m e hm ∧ -52 ≤ e ∧ 2 ^ 52 ≤ m := by
  have hcompare : ((1.0 : Float).toModel.unpack.compare x.toModel.unpack).any
      Ordering.isLE = true := of_decide_eq_true hone
  simp only [Float.isFinite, Float.Model.isFinite] at hfinite
  cases hx : x.toModel.unpack with
  | notANumber => simp [hx, UnpackedFloat.isFinite] at hfinite
  | infinity sign => simp [hx, UnpackedFloat.isFinite] at hfinite
  | zero sign => simp [hx, one_unpack, UnpackedFloat.compare] at hcompare
  | finite sign m e hm =>
    cases sign with
    | negative => simp [hx, one_unpack, UnpackedFloat.compare] at hcompare
    | positive =>
      have hleast := (one_le_iff_of_unpack hx).mp hone
      have hfront := front_of_unpack hx
      exact ⟨m, e, hm, rfl, by omega, by omega⟩

/-! ## Numbers of dots -/

namespace ProjectFields

/-- A number of dots comes back from its float. -/
theorem dots?_toFloat {w : UInt32} (h : 1 ≤ w) : dots? w.toNat.toUInt64.toFloat = some w := by
  have hpos : 0 < w.toNat := UInt32.le_iff_toNat_le.mp h
  have hlt : w.toNat < 2 ^ 53 := Nat.lt_trans w.toNat_lt (by decide)
  obtain ⟨hm, hparts⟩ := toFloat_unpack hpos hlt
  obtain ⟨hlow, -⟩ := mantissa_bounds hpos hlt
  have hroom : room w.toNat ≤ 52 := Nat.sub_le ..
  have hone : 1.0 ≤ w.toNat.toUInt64.toFloat := by
    rw [one_le_iff_of_unpack hparts]
    omega
  have hwhole : w.toNat <<< room w.toNat * 2 ^ (-(room w.toNat : Int)).toNat /
      2 ^ (- -(room w.toNat : Int)).toNat = w.toNat := by
    have hexponent : (-(room w.toNat : Int)).toNat = 0 := by omega
    rw [hexponent, Int.neg_neg, Int.toNat_natCast, Nat.shiftLeft_eq, Nat.pow_zero, Nat.mul_one]
    exact Nat.mul_div_cancel _ (Nat.two_pow_pos _)
  have hcut : w.toNat.toUInt64.toFloat.toUInt32 = w := by
    rw [toUInt32_of_unpack hparts, hwhole, UInt32.ofNatClamp, dif_pos w.toNat_lt]
    exact UInt32.toNat_inj.mp rfl
  rw [dots?, if_pos ⟨isFinite_of_unpack hparts, hone⟩, hcut]

/-- A number of dots is never zero. -/
theorem one_le_of_dots? {x : Float} {w : UInt32} (h : dots? x = some w) : 1 ≤ w := by
  obtain ⟨⟨hfinite, hone⟩, hw⟩ : (x.isFinite = true ∧ 1.0 ≤ x) ∧ x.toUInt32 = w := by
    simpa [dots?] using h
  obtain ⟨m, e, hm, hparts, hexponent, hfront⟩ := exists_unpack_of_one_le hfinite hone
  have hwhole : 1 ≤ m * 2 ^ e.toNat / 2 ^ (-e).toNat := by
    rw [Nat.le_div_iff_mul_le (Nat.two_pow_pos _)]
    calc
      1 * 2 ^ (-e).toNat ≤ 2 ^ 52 := by
        rw [Nat.one_mul]
        exact Nat.pow_le_pow_right (by decide) (by omega)
      _ ≤ m := hfront
      _ ≤ m * 2 ^ e.toNat := Nat.le_mul_of_pos_right _ (Nat.two_pow_pos _)
  rw [← hw, toUInt32_of_unpack hparts]
  exact one_le_ofNatClamp hwhole

end ProjectFields

end TicketPress
