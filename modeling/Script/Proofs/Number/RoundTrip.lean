import Mathlib.Tactic.Ring
import Script.Proofs.Number.Digits

/-!
# Numbers are read back from their decimals

The decimal that a number is shown as reads back as the number itself, bit for bit
(`nearest_shortest`). For the decimals that the search finds this is what the search has tested. The
decimal that is left when the search finds none is the exact one, and rounding changes nothing
there: a finite number has no more than 53 significant bits, so that what rounding drops is zero
(`nearestBits_units`).

The sign is a bit of its own, which `Number.neg` brings back.
-/

namespace Script

/-! ## Rounding

Rounding looks at a ratio through its quotient and its remainder. Both do not change when numerator
and denominator are multiplied alike, the remainder but for the factor. -/

/-- A ratio in lower terms is rounded alike. -/
theorem roundHalfEven_mul {k : Nat} (hk : 0 < k) (num den : Nat) :
    roundHalfEven (k * num) (k * den) = roundHalfEven num den := by
  have hbelow : ∀ a b : Nat, 2 * (k * a) < k * b ↔ 2 * a < b := by
    intro a b
    rw [show 2 * (k * a) = k * (2 * a) by ring, Nat.mul_lt_mul_left hk]
  have habove : ∀ a b : Nat, k * b < 2 * (k * a) ↔ b < 2 * a := by
    intro a b
    rw [show 2 * (k * a) = k * (2 * a) by ring, Nat.mul_lt_mul_left hk]
  unfold roundHalfEven
  simp only [Nat.mul_div_mul_left _ _ hk, Nat.mul_mod_mul_left, hbelow, habove]

/-- A whole number stays what it is, since nothing is left to be rounded. -/
theorem roundHalfEven_whole {den : Nat} (hden : 0 < den) (n : Nat) :
    roundHalfEven (den * n) den = n := by
  unfold roundHalfEven
  simp [Nat.mul_div_cancel_left n hden, hden]

namespace Number

/-- There are units in one. The exponent is generalized, because the power is too large to be
computed. -/
theorem unitsPerOne_pos : 0 < unitsPerOne := by
  unfold unitsPerOne
  generalize 1074 = k
  exact Nat.two_pow_pos k

/-- The bits nearest to a ratio depend on the value of the ratio only. -/
theorem nearestBits_mul {k : Nat} (hk : 0 < k) (num den : Nat) :
    nearestBits (k * num) (k * den) = nearestBits num den := by
  have hscaled : k * num * unitsPerOne = k * (num * unitsPerOne) := Nat.mul_assoc ..
  have hden : ∀ power, k * den * power = k * (den * power) := fun power => Nat.mul_assoc ..
  unfold nearestBits
  dsimp only
  rw [hscaled, Nat.mul_div_mul_left _ _ hk, hden, roundHalfEven_mul hk]

/-- The number nearest to a ratio depends on the value of the ratio only. -/
theorem ofRatio_mul {k : Nat} (hk : 0 < k) (num den : Nat) :
    ofRatio (k * num) (k * den) = ofRatio num den := by
  unfold ofRatio
  rw [nearestBits_mul hk]

/-- Where the units are a significand of 53 bits at most and a power of two, no bit is lost. -/
theorem nearestBits_significand {significand exponent : Nat}
    (hdropped : droppedBits (significand * 2 ^ exponent) = exponent) :
    nearestBits (significand * 2 ^ exponent) unitsPerOne =
      min (exponent * 2 ^ 52 + significand) infinityBits := by
  -- What is rounded is a whole number.
  have hexact : roundHalfEven (unitsPerOne * (2 ^ exponent * significand))
      (unitsPerOne * 2 ^ exponent) = significand := by
    rw [roundHalfEven_mul unitsPerOne_pos, roundHalfEven_whole (Nat.pow_pos (by decide))]
  have hpower : ∀ k, Nat.pow 2 k = 2 ^ k := fun _ => rfl
  unfold nearestBits
  dsimp only
  rw [Nat.mul_div_cancel _ unitsPerOne_pos, hdropped, hpower,
    show significand * 2 ^ exponent * unitsPerOne = unitsPerOne * (2 ^ exponent * significand) by
      ring]
  rw [hpower, hexact]

/-- A number of less than 52 bits keeps all of them. -/
theorem droppedBits_subnormal {bits : Nat} (h : bits < 2 ^ 52) : droppedBits bits = 0 := by
  unfold droppedBits
  by_cases hzero : bits = 0
  · rw [hzero]
    rfl
  · have hlog := (Nat.log2_lt hzero).mpr h
    omega

/-- Of a number of more bits all after the first 53 are dropped. -/
theorem droppedBits_normal {significand : Nat} (hlow : 2 ^ 52 ≤ significand)
    (hhigh : significand < 2 ^ 53) (exponent : Nat) :
    droppedBits (significand * 2 ^ exponent) = exponent := by
  have hpos : 0 < 2 ^ exponent := Nat.pow_pos (by decide)
  have hne : significand * 2 ^ exponent ≠ 0 := by
    have : 0 < significand := Nat.lt_of_lt_of_le (by decide) hlow
    exact Nat.ne_of_gt (Nat.mul_pos this hpos)
  have hlog : (significand * 2 ^ exponent).log2 = 52 + exponent := by
    rw [Nat.log2_eq_iff hne, Nat.pow_add, show 52 + exponent + 1 = 53 + exponent by omega,
      Nat.pow_add]
    exact ⟨Nat.mul_le_mul_right _ hlow, Nat.mul_lt_mul_of_pos_right hhigh hpos⟩
  unfold droppedBits
  omega

/-- A finite number is the one nearest to its own units. -/
theorem nearestBits_units {bits : Nat} (h : bits < infinityBits) :
    nearestBits (unitsOfBits bits) unitsPerOne = bits := by
  have hunits : unitsOfBits bits = if bits < 2 ^ 52 then bits
      else (2 ^ 52 + bits % 2 ^ 52) * 2 ^ (bits / 2 ^ 52 - 1) := rfl
  rw [hunits]
  split
  · -- Without an exponent the bits are the units.
    next hsubnormal =>
    have hbits := @nearestBits_significand bits 0 (by
      rw [Nat.pow_zero, Nat.mul_one]
      exact droppedBits_subnormal hsubnormal)
    rw [Nat.pow_zero, Nat.mul_one] at hbits
    rw [hbits]
    omega
  · next hnormal =>
    have hmod : bits % 2 ^ 52 < 2 ^ 52 := Nat.mod_lt _ (by decide)
    have hbits := Nat.div_add_mod bits (2 ^ 52)
    have hexponent : 1 ≤ bits / 2 ^ 52 := by omega
    rw [nearestBits_significand (droppedBits_normal (by omega) (by omega) _)]
    -- The leading bit of the significand is the one that the exponent was lowered by.
    omega

/-! ## Decimals of a number

All that is left out of the exact decimal are zeros at its end, and all that the search yields has
been tested. -/

/-- Zeros at the end of a fraction do not change what is read. Each step divides the coefficient and
the power of ten by ten, and the nearest number depends on their ratio only. -/
theorem nearest_trimSteps (steps coefficient places : Nat) :
    (Decimal.trimSteps steps coefficient places).nearest =
      (⟨coefficient, places⟩ : Decimal).nearest := by
  induction steps generalizing coefficient places with
  | zero => rfl
  | succ steps ih =>
    cases places with
    | zero => rfl
    | succ places =>
      rw [Decimal.trimSteps]
      split
      · next hzero =>
        -- The coefficient ends in a zero, or the step would not have been taken.
        have hten : coefficient = 10 * (coefficient / 10) := by omega
        have hpower : Nat.pow 10 (places + 1) = 10 * Nat.pow 10 places := Nat.pow_succ'
        rw [ih]
        unfold Decimal.nearest
        dsimp only
        rw [hpower]
        conv_rhs => rw [hten]
        rw [ofRatio_mul (by decide)]
      · rfl

/-- A decimal without its last zeros reads as before. -/
theorem nearest_trim (d : Decimal) : d.trim.nearest = d.nearest :=
  nearest_trimSteps d.places d.coefficient d.places

/-- Ten to the power of the places of the exact decimal holds the units in one. -/
theorem nearest_exactDecimal (units : Nat) :
    (exactDecimal units).nearest = ofRatio units unitsPerOne := by
  have hpower : ∀ k, Nat.pow 10 k = Nat.pow 5 k * Nat.pow 2 k := fun k => Nat.mul_pow 5 2 k
  have hpos : ∀ k, 0 < Nat.pow 5 k := fun k => Nat.pow_pos (by decide)
  unfold exactDecimal Decimal.nearest unitsPerOne
  generalize 1074 = places
  dsimp only
  rw [hpower, Nat.mul_comm units, ofRatio_mul (hpos places)]

/-- What the search for a neighbour finds reads back as the number. -/
theorem nearest_of_neighbour? {n : Number} {exponent : Int} {d : Decimal}
    (h : neighbour? n exponent = some d) : d.nearest = n := by
  unfold neighbour? at h
  dsimp only at h
  split at h
  · next hlower =>
    split at h
    · next hupper =>
      obtain rfl := Option.some.inj h
      exact hupper.1
    · obtain rfl := Option.some.inj h
      exact hlower
  · split at h
    · next hupper =>
      obtain rfl := Option.some.inj h
      exact hupper
    · cases h

/-- Whatever the search finds reads back as the number. -/
theorem nearest_of_shortestFrom {n : Number} {count : Nat} {exponent : Int} {d : Decimal}
    (h : shortestFrom n count exponent = some d) : d.nearest = n := by
  induction count generalizing exponent with
  | zero =>
    rw [shortestFrom] at h
    cases h
  | succ count ih =>
    rw [shortestFrom, Option.orElse_eq_or, Option.or_eq_some_iff] at h
    rcases h with hfound | ⟨-, hfound⟩
    · exact nearest_of_neighbour? hfound
    · exact ih hfound

/-! ## Signs

The sign is the highest bit. Clearing it gives the magnitude, and setting it again gives the number
back. -/

variable {n : Number}

/-- Without a sign the highest bit is not set. -/
theorem bits_lt_of_not_negative (h : n.negative = false) : n.bits.toNat < 2 ^ 63 :=
  Nat.lt_of_not_le (of_decide_eq_false h)

/-- Without a sign the bits are those of the magnitude. -/
theorem magnitudeBits_of_not_negative (h : n.negative = false) :
    n.magnitudeBits = n.bits.toNat := Nat.mod_eq_of_lt (bits_lt_of_not_negative h)

/-- A number without a sign is its own magnitude. -/
theorem magnitude_of_not_negative (h : n.negative = false) : n.magnitude = n := by
  unfold magnitude
  rw [magnitudeBits_of_not_negative h]
  exact congrArg Number.mk (UInt64.ofNat_toNat)

/-- The bits of a magnitude leave out the highest one. -/
theorem magnitudeBits_lt (n : Number) : n.magnitudeBits < 2 ^ 63 := Nat.mod_lt _ (by decide)

/-- The magnitude has the bits that were left. -/
theorem toNat_bits_magnitude (n : Number) : n.magnitude.bits.toNat = n.magnitudeBits := by
  have hlt : n.magnitudeBits < 2 ^ 64 := Nat.lt_trans n.magnitudeBits_lt (by decide)
  exact UInt64.toNat_ofNat_of_lt' hlt

/-- A magnitude has no sign, for its sign bit has been cleared. -/
theorem magnitude_not_negative (n : Number) : n.magnitude.negative = false := by
  have hlt := n.magnitudeBits_lt
  unfold negative
  rw [toNat_bits_magnitude]
  exact decide_eq_false (Nat.not_le_of_lt hlt)

/-- A number is finite if its magnitude is. -/
theorem isFinite_magnitude (n : Number) : n.magnitude.isFinite = n.isFinite := by
  have hbits := magnitudeBits_of_not_negative n.magnitude_not_negative
  rw [toNat_bits_magnitude] at hbits
  unfold isFinite
  rw [hbits]

/-- The sign of a number and its magnitude are the number. -/
theorem neg_magnitude (h : n.negative = true) : n.magnitude.neg = n := by
  have hsign : 2 ^ 63 ≤ n.bits.toNat := of_decide_eq_true h
  have hword : n.bits.toNat < 2 ^ 64 := n.bits.toNat_lt
  have hbits : n.magnitudeBits = n.bits.toNat % 2 ^ 63 := rfl
  have hlt := n.magnitudeBits_lt
  -- Above the magnitude there is the sign bit only.
  have hxor : n.magnitudeBits ^^^ 2 ^ 63 = n.bits.toNat := by
    have hhigh := @Nat.xor_div_two_pow n.magnitudeBits (2 ^ 63) 63
    have hlow := @Nat.xor_mod_two_pow n.magnitudeBits (2 ^ 63) 63
    rw [Nat.div_eq_of_lt hlt, Nat.div_self (by decide), Nat.zero_xor] at hhigh
    rw [Nat.mod_eq_of_lt hlt, Nat.mod_self, Nat.xor_zero] at hlow
    omega
  have htoNat : (n.magnitude.bits ^^^ 0x8000000000000000).toNat = n.bits.toNat := by
    rw [UInt64.toNat_xor, toNat_bits_magnitude]
    exact hxor
  exact congrArg Number.mk (UInt64.toNat_inj.mp htoNat)

/-! ## Reading back -/

/-- Without a sign a finite number is nearest to its own units. -/
theorem ofRatio_units (hfinite : n.isFinite = true) (hsign : n.negative = false) :
    ofRatio n.units unitsPerOne = n := by
  have hbits : nearestBits n.units unitsPerOne = n.bits.toNat := by
    rw [← magnitudeBits_of_not_negative hsign]
    exact nearestBits_units (of_decide_eq_true hfinite)
  unfold ofRatio
  rw [hbits]
  exact congrArg Number.mk (UInt64.ofNat_toNat)

/-- The decimal that stands for a finite number without a sign reads back as the number. -/
theorem nearest_shortest (hfinite : n.isFinite = true) (hsign : n.negative = false) :
    n.shortest.nearest = n := by
  have hunits := ofRatio_units hfinite hsign
  unfold shortest
  split
  · -- Zero has no digits that could be searched for.
    next hzero =>
    have hnone := ofRatio_mul unitsPerOne_pos 0 1
    rw [Nat.mul_zero, Nat.mul_one] at hnone
    rw [hzero, hnone] at hunits
    exact hunits
  · cases hfound : shortestFrom n 17 (decimalExponent n.units - 1) with
    | some d => exact nearest_of_shortestFrom hfound
    -- Where nothing shorter is found the exact decimal is left.
    | none =>
      rw [Option.getD_none, nearest_trim, nearest_exactDecimal, hunits]

end Number

end Script
