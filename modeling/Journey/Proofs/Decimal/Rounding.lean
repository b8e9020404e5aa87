import Journey.Decimal.Reading
import Mathlib.Algebra.Group.Nat.Defs

/-!
# Journey.Proofs.Decimal.Rounding -- whole numbers as floating numbers

A floating number is a bit pattern, and arithmetic on it takes the pattern apart, works on sign,
mantissa and exponent, rounds, and packs the result again.  The mantissa that `Binary.ofFloat` reads off
the pattern fits into fifty-three bits (`mantissa_lt_of_ofFloat`), its parts are those that arithmetic
works on (`ofFloat_eq_ofUnpacked`), and a packed number with a mantissa of fifty-three bits is unpacked as
it was (`unpack_pack`).

Rounding shifts a mantissa until fifty-three bits are left (`roundWithAccuracy_spec`); when only zeros
are shifted out nothing is lost.  So a whole number that has fifty-three bits up to zeros at its end is
read back from its floating number (`truncated?_ofInt?`), and every whole number that is not out of
range has a finite one (`isFinite_ofNat`).
-/

namespace Journey.Decimal

set_option autoImplicit false

open Float.Model Float.Model.UnpackedFloat

/-! ## The parts of a bit pattern -/

namespace Binary

/-- Whether a sign is a minus. -/
def isMinus : Sign → Bool
  | .negative => true
  | .positive => false

/-- The parts on which arithmetic works. -/
def ofUnpacked : UnpackedFloat → Binary
  | .notANumber => .undefined
  | .infinity s => .infinite (isMinus s)
  | .zero s => .finite (isMinus s) 0 (-1074)
  | .finite s m e _ => .finite (isMinus s) m e

theorem ofUnpacked_finite (s : Sign) {m : Nat} (e : Int) (pos : 0 < m) :
    ofUnpacked (.finite s m e pos) = .finite (isMinus s) m e := rfl

end Binary

/-- The bit pattern of a floating number. -/
def pattern (x : Float) : BitVec Format.binary64.numBits := x.toModel.toBits.toBitVec

/-- The reading of a bit pattern, with powers of two as they are written in statements. -/
theorem Binary.ofBits_eq (bits : Nat) :
    Binary.ofBits bits =
      (if bits / 2 ^ 52 % 2 ^ 11 = 2047 then
        if bits % 2 ^ 52 = 0 then .infinite (bits / 2 ^ 63 % 2 == 1) else .undefined
      else if bits / 2 ^ 52 % 2 ^ 11 = 0 then
        .finite (bits / 2 ^ 63 % 2 == 1) (bits % 2 ^ 52) (-1074)
      else .finite (bits / 2 ^ 63 % 2 == 1) (2 ^ 52 + bits % 2 ^ 52)
        (((bits / 2 ^ 52 % 2 ^ 11 : Nat) : Int) - 1075)) := rfl

theorem mantissa_lt_of_ofFloat {x : Float} {negative : Bool} {m : Nat} {q : Int}
    (h : Binary.ofFloat x = .finite negative m q) : m < 2 ^ 53 := by
  have bound : x.toBits.toNat % 2 ^ 52 < 2 ^ 52 := Nat.mod_lt _ (by decide)
  simp only [Binary.ofFloat, Binary.ofBits_eq] at h
  split at h
  · split at h <;> cases h
  · split at h <;> injection h <;> omega

theorem exponent_pattern (x : Float) :
    x.toBits.toNat / 2 ^ 52 % 2 ^ 11 = (unpackExponent (pattern x)).toNat := by
  show (pattern x).toNat / 2 ^ 52 % 2 ^ 11 = _
  simp [unpackExponent, BitVec.extractLsb, BitVec.extractLsb', Nat.shiftRight_eq_div_pow]

theorem mantissa_pattern (x : Float) :
    x.toBits.toNat % 2 ^ 52 = (unpackMantissa (pattern x)).toNat := by
  show (pattern x).toNat % 2 ^ 52 = _
  simp [unpackMantissa, BitVec.extractLsb, BitVec.extractLsb']

/-- The sign is the highest bit. -/
theorem unpackSign_eq {spec : Format} (b : BitVec spec.numBits) :
    unpackSign b = (b.extractLsb (spec.mantissaBitsWithoutImplicit + spec.exponentBits)
      (spec.mantissaBitsWithoutImplicit + spec.exponentBits)).cast (by omega) := rfl

theorem sign_pattern (x : Float) :
    (x.toBits.toNat / 2 ^ 63 % 2 == 1) = Binary.isMinus (Sign.ofBitVec (unpackSign (pattern x))) := by
  have bit : x.toBits.toNat / 2 ^ 63 % 2 = (unpackSign (pattern x)).toNat := by
    show (pattern x).toNat / 2 ^ 63 % 2 = _
    simp [unpackSign_eq, BitVec.extractLsb, BitVec.extractLsb', Nat.shiftRight_eq_div_pow]
  rw [bit]
  generalize unpackSign (pattern x) = b
  revert b
  decide

theorem toNat_implicit {k : Nat} (m : BitVec k) : (1#1 ++ m).toNat = 2 ^ k + m.toNat := by
  rw [BitVec.toNat_append, ← Nat.shiftLeft_add_eq_or_of_lt m.isLt]
  simp [Nat.shiftLeft_eq]

/-- The parts read off a bit pattern are those on which arithmetic works. -/
theorem ofFloat_eq_ofUnpacked (x : Float) : Binary.ofFloat x = Binary.ofUnpacked x.toModel.unpack := by
  rw [Binary.ofFloat, Binary.ofBits_eq]
  simp only [exponent_pattern, mantissa_pattern, sign_pattern]
  show _ = Binary.ofUnpacked (UnpackedFloat.unpack Format.binary64 (pattern x))
  have top : unpackExponent (pattern x) = -1#_ ↔ (unpackExponent (pattern x)).toNat = 2047 := by
    rw [← BitVec.toNat_inj]
    rfl
  have bottom : unpackExponent (pattern x) = 0#_ ↔ (unpackExponent (pattern x)).toNat = 0 := by
    rw [← BitVec.toNat_inj]
    rfl
  have void : unpackMantissa (pattern x) = 0#_ ↔ (unpackMantissa (pattern x)).toNat = 0 := by
    rw [← BitVec.toNat_inj]
    rfl
  unfold UnpackedFloat.unpack
  dsimp only
  by_cases special : (unpackExponent (pattern x)).toNat = 2047
  · rw [if_pos special, if_pos (top.2 special)]
    by_cases none : (unpackMantissa (pattern x)).toNat = 0
    · rw [if_pos none, if_pos (void.2 none)]
      rfl
    · rw [if_neg none, if_neg (mt void.1 none)]
      rfl
  · rw [if_neg special, if_neg (mt top.1 special)]
    by_cases small : (unpackExponent (pattern x)).toNat = 0
    · rw [if_pos small, if_pos (bottom.2 small)]
      by_cases none : (unpackMantissa (pattern x)).toNat = 0
      · rw [dif_pos (void.2 none), none]
        rfl
      · rw [dif_neg (mt void.1 none), Binary.ofUnpacked_finite, small]
        rfl
    · rw [if_neg small, if_neg (mt bottom.1 small), Binary.ofUnpacked_finite, toNat_implicit]
      rfl

/-- The exponent of a number is in the range of the format. -/
theorem exponent_le_of_ofFloat {x : Float} {negative : Bool} {m : Nat} {q : Int}
    (h : Binary.ofFloat x = .finite negative m q) : -1074 ≤ q ∧ q ≤ 971 := by
  have bound : x.toBits.toNat / 2 ^ 52 % 2 ^ 11 < 2048 := Nat.mod_lt _ (by decide)
  simp only [Binary.ofFloat, Binary.ofBits_eq] at h
  split at h
  · split at h <;> cases h
  · split at h <;> injection h <;> omega

theorem isFinite_of_exponent {x : Float} (h : unpackExponent (pattern x) ≠ -1#_) :
    isFinite x = true := by
  have below : x.toBits.toNat / 2 ^ 52 % 2 ^ 11 ≠ 2047 := by
    rw [exponent_pattern]
    exact fun top => h (BitVec.toNat_inj.1 top)
  rw [isFinite, Binary.ofFloat, Binary.ofBits_eq]
  by_cases small : x.toBits.toNat / 2 ^ 52 % 2 ^ 11 = 0
  · rw [if_neg below, if_pos small]
  · rw [if_neg below, if_neg small]

/-- What is packed with an exponent in the range is a number. -/
theorem isFinite_pack {s : Sign} {m : Nat} {e : Int} (pos : 0 < m) (high : e ≤ 971) :
    isFinite (.ofModel (.pack (.finite s m e pos))) = true := by
  refine isFinite_of_exponent ?_
  show unpackExponent (UnpackedFloat.pack Format.binary64 (.finite s m e pos)) ≠ -1#_
  have bias : Format.binary64.exponentBias = 1023 := rfl
  have room : ¬ 2 ^ 11 ≤ (e + Format.binary64.exponentBias + (52 : Nat)).toNat + 1 := by omega
  unfold UnpackedFloat.pack
  change unpackExponent
    (if 2 ^ 11 ≤ (e + Format.binary64.exponentBias + (52 : Nat)).toNat + 1 then _ else _) ≠ _
  rw [if_neg room]
  split
  · rw [unpackExponent_packComponents]
    intro top
    have value := congrArg BitVec.toNat top
    change (e + Format.binary64.exponentBias + (52 : Nat)).toNat % 2048 = 2047 at value
    omega
  · rw [unpackExponent_packComponents]
    decide

theorem sign_packComponents {spec : Format} (s : Sign) (e : BitVec spec.exponentBits)
    (m : BitVec spec.mantissaBitsWithoutImplicit) :
    Sign.ofBitVec (unpackSign (packComponents spec s e m)) = s := by
  have bit : unpackSign (packComponents spec s e m) = s.toBitVec := by
    apply BitVec.eq_of_getLsbD_eq
    intro i less
    obtain rfl : i = 0 := by omega
    simp [unpackSign_eq, packComponents, BitVec.getLsbD_append, BitVec.getElem_append]
  rw [bit]
  cases s <;> rfl

theorem finite_congr {s t : Sign} {m n : Nat} {e q : Int} (sign : s = t) (mantissa : m = n)
    (exponent : e = q) (posM : 0 < m) (posN : 0 < n) :
    UnpackedFloat.finite s m e posM = .finite t n q posN := by
  subst sign mantissa exponent
  rfl

/-- A number with a mantissa of fifty-three bits is unpacked as it was packed. -/
theorem unpack_pack {s : Sign} {m : Nat} {e : Int} (pos : 0 < m) (least : 2 ^ 52 ≤ m) (most : m < 2 ^ 53)
    (low : -1074 ≤ e) (high : e ≤ 971) :
    (Float.Model.pack (.finite s m e pos)).unpack = .finite s m e pos := by
  have bias : Format.binary64.exponentBias = 1023 := rfl
  have room : ¬ 2 ^ 11 ≤ (e + Format.binary64.exponentBias + (52 : Nat)).toNat + 1 := by omega
  have bits : m.log2 + 1 = Format.binary64.mantissaBits := by
    rw [(Nat.log2_eq_iff (by omega)).2 ⟨least, most⟩]
    rfl
  have biased : (BitVec.ofNat 11 (e + Format.binary64.exponentBias + (52 : Nat)).toNat).toNat
      = (e + 1075).toNat := by
    rw [BitVec.toNat_ofNat, Nat.mod_eq_of_lt (by omega)]
    omega
  have notTop : BitVec.ofNat 11 (e + Format.binary64.exponentBias + (52 : Nat)).toNat ≠ -1#11 := by
    intro top
    have value := biased.symm.trans (congrArg BitVec.toNat top)
    change (e + 1075).toNat = 2047 at value
    omega
  have notZero : BitVec.ofNat 11 (e + Format.binary64.exponentBias + (52 : Nat)).toNat ≠ 0#11 := by
    intro zero
    have value := biased.symm.trans (congrArg BitVec.toNat zero)
    change (e + 1075).toNat = 0 at value
    omega
  have whole : (1#1 ++ BitVec.ofNat 52 m).toNat = m := by
    rw [toNat_implicit, BitVec.toNat_ofNat]
    omega
  show UnpackedFloat.unpack Format.binary64
    (UnpackedFloat.pack Format.binary64 (.finite s m e pos)) = _
  change UnpackedFloat.unpack Format.binary64
    (if 2 ^ 11 ≤ (e + Format.binary64.exponentBias + (52 : Nat)).toNat + 1 then _
      else if m.log2 + 1 = Format.binary64.mantissaBits then _ else _) = _
  rw [if_neg room, if_pos bits]
  delta UnpackedFloat.unpack
  dsimp only
  rw [unpackExponent_packComponents, if_neg notTop, if_neg notZero]
  refine finite_congr (sign_packComponents _ _ _) ?_ ?_ _ _
  · rw [unpackMantissa_packComponents]
    exact whole
  · rw [biased]
    omega

/-- What is no number and no infinity has an opposite that is neither. -/
theorem isFinite_neg {x : Float} (h : isFinite x = true) : isFinite (-x) = true := by
  have parts := ofFloat_eq_ofUnpacked x
  show isFinite (.ofModel (.pack x.toModel.unpack.neg)) = true
  cases unpacked : x.toModel.unpack with
  | notANumber =>
    rw [isFinite, parts, unpacked] at h
    cases h
  | infinity s =>
    rw [isFinite, parts, unpacked] at h
    cases h
  | zero s => cases s <;> decide +kernel
  | finite s m e pos =>
    rw [unpacked] at parts
    exact isFinite_pack pos (exponent_le_of_ofFloat parts).2

/-! ## Rounding -/

theorem mantissa_shift (em : ExtendedMantissa) (k : Nat) :
    (em >>> k).mantissa = em.mantissa / 2 ^ k := by
  induction k with
  | zero => exact (Nat.div_one _).symm
  | succ k ih =>
    show (em >>> k).mantissa / 2 = _
    rw [ih, Nat.div_div_eq_div_mul, Nat.pow_succ]

/-- Where only zeros are shifted out, nothing is lost. -/
theorem shift_of_dvd {m k : Nat} (zeros : 2 ^ k ∣ m) :
    (⟨m, false, false⟩ : ExtendedMantissa) >>> k = ⟨m / 2 ^ k, false, false⟩ := by
  induction k with
  | zero => exact congrArg (ExtendedMantissa.mk · false false) (Nat.div_one m).symm
  | succ k ih =>
    have fewer : 2 ^ k ∣ m := Nat.dvd_trans (Nat.pow_dvd_pow 2 (Nat.le_succ k)) zeros
    have even : m / 2 ^ k % 2 = 0 := by
      obtain ⟨c, rfl⟩ := zeros
      rw [Nat.pow_succ, Nat.mul_assoc, Nat.mul_div_cancel_left _ (Nat.two_pow_pos k)]
      omega
    show ExtendedMantissa.shiftRightOne ((⟨m, false, false⟩ : ExtendedMantissa) >>> k) = _
    rw [ih fewer, ExtendedMantissa.shiftRightOne]
    simp only [even, Nat.div_div_eq_div_mul, ← Nat.pow_succ]
    rfl

theorem targetExponent_eq {m k : Nat} {e : Int} (bits : m.log2 = 52 + k) (low : -1074 ≤ e + k) :
    Format.binary64.targetExponent (totalExponent m e) = e + k := by
  have precision : Format.binary64.mantissaBits = 53 := rfl
  have least : Format.binary64.minExponent = -1074 := rfl
  rw [Format.targetExponent, totalExponent, bits, precision, least]
  omega

theorem shiftToTargetExponent_eq {m k : Nat} {e : Int} (bits : m.log2 = 52 + k)
    (low : -1074 ≤ e + k) :
    shiftToTargetExponent Format.binary64 m e .exact
      = ((⟨m, false, false⟩ : ExtendedMantissa) >>> k, e + k) := by
  have amount : (e + k - e).toNat = k := by omega
  rw [shiftToTargetExponent, targetExponent_eq bits low, shiftToExponent]
  simp only [amount]
  rfl

theorem roundedMantissa_le (em : ExtendedMantissa) :
    em.mantissa ≤ em.roundedMantissa ∧ em.roundedMantissa ≤ em.mantissa + 1 := by
  obtain ⟨m, round, sticky⟩ := em
  cases round <;> cases sticky <;>
    simp only [ExtendedMantissa.roundedMantissa, ExtendedMantissa.accuracy,
      Accuracy.roundToNearestEven] <;> omega

/-- A rounded mantissa is shifted once more only if rounding has made it too long. -/
theorem shiftToTargetExponent_rounded {r : Nat} {e : Int} (least : 2 ^ 52 ≤ r) (most : r ≤ 2 ^ 53)
    (low : -1074 ≤ e) :
    ∃ m' e', shiftToTargetExponent Format.binary64 r e .exact = (⟨m', false, false⟩, e')
      ∧ (2 ^ 52 ≤ m' ∧ m' < 2 ^ 53) ∧ (e ≤ e' ∧ e' ≤ e + 1) ∧ (r < 2 ^ 53 → m' = r ∧ e' = e) := by
  rcases Nat.lt_or_ge r (2 ^ 53) with small | large
  · have bits : r.log2 = 52 + 0 := (Nat.log2_eq_iff (by omega)).2 ⟨by omega, by omega⟩
    refine ⟨r, e, ?_, ⟨least, small⟩, by omega, fun _ => ⟨rfl, rfl⟩⟩
    rw [shiftToTargetExponent_eq bits (by simpa using low)]
    exact Prod.ext rfl (by simp)
  · obtain rfl : r = 2 ^ 53 := by omega
    have bits : (2 ^ 53).log2 = 52 + 1 := Nat.log2_two_pow
    refine ⟨2 ^ 52, e + 1, ?_, by omega, by omega, by omega⟩
    rw [shiftToTargetExponent_eq bits (by omega)]
    exact Prod.ext rfl (by simp)

/-- A mantissa of fifty-three bits and more is rounded to fifty-three; where only zeros are shifted
out, its value stays. -/
theorem roundWithAccuracy_spec (s : Sign) {m k : Nat} {e : Int} (bits : m.log2 = 52 + k)
    (low : -1074 ≤ e + k) :
    ∃ m' e' pos, roundWithAccuracy Format.binary64 s m e .exact = .finite s m' e' pos
      ∧ (2 ^ 52 ≤ m' ∧ m' < 2 ^ 53) ∧ (e + k ≤ e' ∧ e' ≤ e + k + 1)
      ∧ (2 ^ k ∣ m → m' = m / 2 ^ k ∧ e' = e + k) := by
  have range : 2 ^ 52 ≤ m / 2 ^ k ∧ m / 2 ^ k < 2 ^ 53 := by
    have nonzero : m ≠ 0 := by
      rintro rfl
      simp only [Nat.log2_zero] at bits
      omega
    obtain ⟨least, most⟩ := (Nat.log2_eq_iff nonzero).1 bits
    rw [Nat.le_div_iff_mul_le (Nat.two_pow_pos k), Nat.div_lt_iff_lt_mul (Nat.two_pow_pos k),
      ← Nat.pow_add, ← Nat.pow_add]
    exact ⟨least, by rwa [Nat.add_right_comm] at most⟩
  have first : ((⟨m, false, false⟩ : ExtendedMantissa) >>> k).mantissa = m / 2 ^ k :=
    mantissa_shift _ k
  obtain ⟨down, up⟩ := roundedMantissa_le ((⟨m, false, false⟩ : ExtendedMantissa) >>> k)
  rw [first] at down up
  obtain ⟨m', e', shifted, mantissa, exponent, same⟩ :=
    shiftToTargetExponent_rounded (Nat.le_trans range.1 down) (Nat.le_trans up range.2) low
  have pos : 0 < m' := by omega
  refine ⟨m', e', pos, ?_, mantissa, exponent, fun zeros => ?_⟩
  · rw [roundWithAccuracy, shiftToTargetExponent_eq bits low]
    dsimp only
    rw [shifted]
    exact dif_neg (Nat.pos_iff_ne_zero.1 pos)
  · have kept : ((⟨m, false, false⟩ : ExtendedMantissa) >>> k).roundedMantissa = m / 2 ^ k := by
      rw [shift_of_dvd zeros]
      rfl
    rw [kept] at same
    exact same range.2

theorem log2_mul_two_pow {n : Nat} (pos : 0 < n) (k : Nat) : (n * 2 ^ k).log2 = n.log2 + k := by
  have nonzero : n * 2 ^ k ≠ 0 := Nat.pos_iff_ne_zero.1 (Nat.mul_pos pos (Nat.two_pow_pos k))
  obtain ⟨least, most⟩ := (Nat.log2_eq_iff (k := n.log2) (Nat.pos_iff_ne_zero.1 pos)).1 rfl
  refine (Nat.log2_eq_iff nonzero).2 ⟨?_, ?_⟩
  · rw [Nat.pow_add]
    exact Nat.mul_le_mul_right _ least
  · rw [Nat.add_right_comm, Nat.pow_add]
    exact Nat.mul_lt_mul_of_pos_right most (Nat.two_pow_pos k)

/-- A mantissa of fifty-three bits with zeros after it is rounded to itself. -/
theorem roundWithAccuracy_exact (s : Sign) {m k : Nat} {e : Int} (pos : 0 < m) (bits : m.log2 = 52)
    (low : -1074 ≤ e + k) :
    roundWithAccuracy Format.binary64 s (m * 2 ^ k) e .exact = .finite s m (e + k) pos := by
  have length : (m * 2 ^ k).log2 = 52 + k := by rw [log2_mul_two_pow pos, bits]
  obtain ⟨m', e', _, rounded, -, -, same⟩ := roundWithAccuracy_spec s length low
  obtain ⟨rfl, rfl⟩ := same (Nat.dvd_mul_left _ _)
  rw [rounded]
  exact finite_congr rfl (Nat.mul_div_cancel _ (Nat.two_pow_pos k)) rfl _ _

/-! ## Whole numbers -/

/-- A whole number of at most fifty-three bits gets as many zeros as are missing. -/
theorem unpackedOfNat_eq {n : Nat} (pos : 0 < n) {j : Nat} (bits : n.log2 + j = 52) :
    UnpackedFloat.ofNat Format.binary64 n
      = .finite .positive (n * 2 ^ j) (-j) (Nat.mul_pos pos (Nat.two_pow_pos j)) := by
  have precision : Format.binary64.mantissaBits = 53 := rfl
  have least : Format.binary64.minExponent = -1074 := rfl
  have target : Format.binary64.targetExponent (totalExponent n 0) = -j := by
    rw [Format.targetExponent, totalExponent, precision, least]
    omega
  have whole : compare (n : Int) 0 = .gt := by
    rw [Int.compare_eq_gt]
    omega
  have amount : ((0 : Int) - -(j : Int)).toNat = j := by omega
  have length : (n * 2 ^ j).log2 = 52 := by rw [log2_mul_two_pow pos, bits]
  have rounded := roundWithAccuracy_exact .positive (k := 0) (e := 0 - (j : Int))
    (Nat.mul_pos pos (Nat.two_pow_pos j)) length (by omega)
  rw [UnpackedFloat.ofNat, UnpackedFloat.ofInt, UnpackedFloat.normalize, whole]
  show roundWithAccuracy _ _ (decreaseExponent n 0 _).1 (decreaseExponent n 0 _).2 _ = _
  rw [Int.toNat_natCast, target, decreaseExponent, amount, Nat.shiftLeft_eq]
  rw [Nat.pow_zero, Nat.mul_one] at rounded
  exact (Int.zero_sub (j : Int)) ▸ rounded.trans (finite_congr rfl rfl (by omega) _ _)

/-- A product of two positive numbers is rounded once. -/
theorem mul_positive {m n : Nat} {e q : Int} (posM : 0 < m) (posN : 0 < n) :
    UnpackedFloat.mul Format.binary64 (.finite .positive m e posM) (.finite .positive n q posN)
      = roundWithAccuracy Format.binary64 .positive (m * n) (e + q) .exact := rfl

theorem unpack_one : (Float.ofBits 0x3FF0000000000000).toModel.unpack
    = .finite .positive (2 ^ 52) (-52) (by decide) := rfl

/-- A positive whole number of at most fifty-three bits is written with zeros after it. -/
theorem ofScientific_small {n : Nat} (pos : 0 < n) {j : Nat} (bits : n.log2 + j = 52) :
    Float.ofScientific n false 0
      = .ofModel (.pack (.finite .positive (n * 2 ^ j) (-j) (Nat.mul_pos pos (Nat.two_pow_pos j)))) := by
  have posM := Nat.mul_pos pos (Nat.two_pow_pos j)
  have length : (n * 2 ^ j).log2 = 52 := by rw [log2_mul_two_pow pos, bits]
  obtain ⟨least, most⟩ := (Nat.log2_eq_iff (Nat.pos_iff_ne_zero.1 posM)).1 length
  have small : n < 2 ^ 53 := Nat.lt_of_le_of_lt (Nat.le_mul_of_pos_right n (Nat.two_pow_pos j)) most
  have same : n.toUInt64.toNat = n := by
    show n % 2 ^ 64 = n
    omega
  rw [Float.ofScientific, dif_pos ⟨small, by decide⟩]
  show Float.ofModel (.pack (UnpackedFloat.mul Format.binary64
    (Float.Model.pack (UnpackedFloat.ofNat Format.binary64 n.toUInt64.toNat)).unpack
    (Float.ofBits 0x3FF0000000000000).toModel.unpack)) = _
  rw [same, unpackedOfNat_eq pos bits, unpack_pack posM least most (by omega) (by omega), unpack_one,
    mul_positive]
  have rounded := roundWithAccuracy_exact .positive (k := 52) (e := -(j : Int) + -52) posM length
    (by omega)
  rw [rounded]
  congr 3
  omega

/-- A whole number of fifty-four bits and more is rounded once. -/
theorem ofScientific_large {n : Nat} (large : 2 ^ 53 ≤ n) :
    Float.ofScientific n false 0
      = .ofModel (.pack (roundWithAccuracy Format.binary64 .positive (n * 2 ^ 53) (-53) .exact)) := by
  have notSmall : ¬ (n < 2 ^ 53 ∧ 0 ≤ 22) := by omega
  have nonzero : n ≠ 0 := by omega
  rw [Float.ofScientific, dif_neg notSmall]
  show Float.ofModel (.pack (UnpackedFloat.ofScientific Format.binary64 n 0)) = _
  have inRange : ¬ (0 : Int) < -((2 ^ Format.binary64.exponentBits : Int) + n.log2) := by
    have scale : (2 ^ Format.binary64.exponentBits : Int) = 2048 := rfl
    omega
  rw [UnpackedFloat.ofScientific, dif_neg nonzero, if_neg (by decide), if_neg inRange,
    if_pos (by decide), mul_positive, Nat.shiftLeft_eq]
  show Float.ofModel (.pack (roundWithAccuracy _ _ (n * 2 ^ 53 * 1) (-53 + 0) _)) = _
  rw [Nat.mul_one, Int.add_zero]

theorem wholePart_mul_two_pow (n j : Nat) : Binary.wholePart (n * 2 ^ j) (-(j : Int)) = n := by
  cases j with
  | zero => simp [Binary.wholePart]
  | succ j =>
    show n * 2 ^ (j + 1) / 2 ^ (j + 1) = n
    exact Nat.mul_div_cancel n (Nat.two_pow_pos _)

/-- The floating number of a positive whole number, which is that number itself if it has fifty-three
bits up to zeros at its end. -/
theorem ofScientific_spec {n : Nat} (pos : 0 < n) :
    ∃ m e posM, Float.ofScientific n false 0 = .ofModel (.pack (.finite .positive m e posM))
      ∧ (2 ^ 52 ≤ m ∧ m < 2 ^ 53) ∧ ((n.log2 : Int) - 52 ≤ e ∧ e ≤ (n.log2 : Int) - 51)
      ∧ (2 ^ (n.log2 - 52) ∣ n → Binary.wholePart m e = n ∧ e = (n.log2 : Int) - 52) := by
  rcases Nat.lt_or_ge n (2 ^ 53) with small | large
  · have bits : n.log2 + (52 - n.log2) = 52 := by
      have := (Nat.log2_lt (Nat.pos_iff_ne_zero.1 pos)).2 small
      omega
    have posM := Nat.mul_pos pos (Nat.two_pow_pos (52 - n.log2))
    have length : (n * 2 ^ (52 - n.log2)).log2 = 52 := by rw [log2_mul_two_pow pos, bits]
    refine ⟨_, _, posM, ofScientific_small pos bits,
      (Nat.log2_eq_iff (Nat.pos_iff_ne_zero.1 posM)).1 length, by omega, fun _ => ?_⟩
    exact ⟨wholePart_mul_two_pow n _, by omega⟩
  · have long : 53 ≤ n.log2 := (Nat.le_log2 (by omega)).2 large
    have bits : (n * 2 ^ 53).log2 = 52 + (n.log2 + 1) := by
      rw [log2_mul_two_pow pos]
      omega
    obtain ⟨m, e, posM, rounded, range, ⟨low, high⟩, same⟩ :=
      roundWithAccuracy_spec .positive (e := -53) bits (by omega)
    refine ⟨m, e, posM, by rw [ofScientific_large large, rounded], range, by omega, fun zeros => ?_⟩
    obtain ⟨k, split⟩ : ∃ k, n.log2 = 52 + k := ⟨n.log2 - 52, by omega⟩
    rw [split, Nat.add_sub_cancel_left] at zeros
    obtain ⟨c, rfl⟩ := zeros
    rw [split] at same
    have cut : 2 ^ k * c * 2 ^ 53 = c * 2 ^ (52 + k + 1) := by
      rw [show 52 + k + 1 = k + 53 by omega, Nat.pow_add, Nat.mul_comm (2 ^ k) c, Nat.mul_assoc]
    obtain ⟨rfl, rfl⟩ := same ⟨c, by rw [cut, Nat.mul_comm]⟩
    rw [cut, Nat.mul_div_cancel _ (Nat.two_pow_pos _), split]
    have exponent : (-53 : Int) + ((52 + k + 1 : Nat) : Int) = (k : Nat) := by omega
    refine ⟨?_, by omega⟩
    rw [exponent]
    exact Nat.mul_comm _ _

/-- A whole number that is not out of range has a finite floating number. -/
theorem isFinite_ofNat {n : Nat} (range : n < 2 ^ 1023) : isFinite (Float.ofNat n) = true := by
  rcases Nat.eq_zero_or_pos n with rfl | pos
  · decide +kernel
  · obtain ⟨m, e, posM, value, -, ⟨-, high⟩, -⟩ := ofScientific_spec pos
    have bits := (Nat.log2_lt (Nat.pos_iff_ne_zero.1 pos)).2 range
    show isFinite (Float.ofScientific n false 0) = true
    rw [value]
    exact isFinite_pack posM (by omega)

/-- A number without its fraction has at most fifty-three bits up to zeros at its end. -/
theorem wholePart_range {m : Nat} {q : Int} (bits : m < 2 ^ 53) (high : q ≤ 971) :
    (Binary.wholePart m q).log2 ≤ 1023
      ∧ 2 ^ ((Binary.wholePart m q).log2 - 52) ∣ Binary.wholePart m q := by
  rcases Nat.eq_zero_or_pos (Binary.wholePart m q) with zero | pos
  · rw [zero]
    exact ⟨by decide, Nat.dvd_zero _⟩
  cases q with
  | ofNat k =>
    change 0 < m * 2 ^ k at pos
    show (m * 2 ^ k).log2 ≤ 1023 ∧ 2 ^ ((m * 2 ^ k).log2 - 52) ∣ m * 2 ^ k
    have posM : 0 < m := Nat.pos_of_mul_pos_right pos
    have short := (Nat.log2_lt (Nat.pos_iff_ne_zero.1 posM)).2 bits
    have most : k ≤ 971 := Int.ofNat_le.1 high
    rw [log2_mul_two_pow posM]
    exact ⟨by omega, Nat.dvd_trans (Nat.pow_dvd_pow 2 (by omega)) (Nat.dvd_mul_left _ m)⟩
  | negSucc k =>
    change 0 < m / 2 ^ (k + 1) at pos
    show (m / 2 ^ (k + 1)).log2 ≤ 1023 ∧ 2 ^ ((m / 2 ^ (k + 1)).log2 - 52) ∣ m / 2 ^ (k + 1)
    have small : m / 2 ^ (k + 1) < 2 ^ 53 := Nat.lt_of_le_of_lt (Nat.div_le_self _ _) bits
    have short := (Nat.log2_lt (Nat.pos_iff_ne_zero.1 pos)).2 small
    rw [Nat.sub_eq_zero_of_le (by omega)]
    exact ⟨by omega, Nat.one_dvd _⟩

/-- A positive floating number without its fraction is a whole number that is read back from its
floating number. -/
theorem truncated?_ofInt? {x : Float} {n : Int} (pos : 1 ≤ n)
    (h : (Binary.ofFloat x).truncated? = some n) :
    ∃ y, ofInt? n = some y ∧ (Binary.ofFloat y).truncated? = some n := by
  cases parts : Binary.ofFloat x with
  | undefined => simp [parts, Binary.truncated?] at h
  | infinite negative => simp [parts, Binary.truncated?] at h
  | finite negative m q =>
    obtain ⟨range, zeros⟩ := wholePart_range (mantissa_lt_of_ofFloat parts)
      (exponent_le_of_ofFloat parts).2
    simp only [parts, Binary.truncated?, Option.some.injEq] at h
    obtain ⟨rfl, whole⟩ : negative = false ∧ n = Binary.wholePart m q := by
      cases negative with
      | false => exact ⟨rfl, h.symm⟩
      | true =>
        simp only [Binary.signed, if_true] at h
        omega
    subst whole
    have posN : 0 < Binary.wholePart m q := by omega
    obtain ⟨m', e, posM, value, ⟨least, most⟩, -, same⟩ := ofScientific_spec posN
    obtain ⟨whole, exponent⟩ := same zeros
    have finite : isFinite (Float.ofScientific (Binary.wholePart m q) false 0) = true := by
      rw [value]
      exact isFinite_pack posM (by omega)
    have written : ofInt? (Binary.wholePart m q)
        = some (Float.ofScientific (Binary.wholePart m q) false 0) := by
      rw [ofInt?]
      simp only [Int.natAbs_natCast, finite, if_true]
      rw [if_neg (by omega)]
    refine ⟨_, written, ?_⟩
    rw [value, ofFloat_eq_ofUnpacked, unpack_pack posM least most (by omega) (by omega),
      Binary.ofUnpacked_finite]
    exact congrArg (fun n : Nat => some (n : Int)) whole

end Journey.Decimal
