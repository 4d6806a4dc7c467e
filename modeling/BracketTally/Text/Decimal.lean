namespace BracketTally.Text

def decimal (n : Nat) : String := String.ofList (Nat.toDigits 10 n)

def signedDecimal (n : Int) : String :=
  if n < 0 then "-" ++ decimal n.natAbs else decimal n.natAbs

/-! ## Rounding -/

def roundQuotient (num den : Nat) : Nat :=
  let floor := num / den
  let rest := num % den
  if den < 2 * rest ∨ (2 * rest = den ∧ floor % 2 = 1) then floor + 1 else floor

theorem roundQuotient_near (num : Nat) {den : Nat} (positive : 0 < den) :
    2 * num ≤ 2 * (roundQuotient num den * den) + den ∧
      2 * (roundQuotient num den * den) ≤ 2 * num + den := by
  have split := Nat.div_add_mod' num den
  have small := Nat.mod_lt num positive
  unfold roundQuotient
  dsimp only
  split
  · rw [Nat.add_mul, Nat.one_mul]
    omega
  · omega

/-! ## Fixed places -/

/-- The value `mantissa * 2 ^ (exponent - 1075)`, which a double of these bits has. -/
structure Binary64 where
  negative : Bool
  exponent : Nat
  mantissa : Nat

def Binary64.ofBits (bits : UInt64) : Binary64 :=
  let exponent := (bits >>> 52 &&& 0x7FF).toNat
  let fraction := (bits &&& 0xFFFFFFFFFFFFF).toNat
  ⟨bits >>> 63 = 1, max exponent 1, if exponent = 0 then fraction else fraction + 0x10000000000000⟩

def unitsPerOne (places : Nat) : Nat := Nat.pow 10 places

def Binary64.units (b : Binary64) (places : Nat) : Nat :=
  roundQuotient ((b.mantissa * unitsPerOne places) <<< b.exponent) (1 <<< 1075)

def fixedPoint (places : Nat) (x : Float) : String :=
  let b := Binary64.ofBits x.toBits
  let sign := if b.negative then "-" else ""
  if x.isNaN then "NaN"
  else if x.isInf then sign ++ "inf"
  else
    let units := b.units places
    let one := unitsPerOne places
    let fraction := (Nat.toDigits 10 (units % one)).leftpad places '0'
    sign ++ decimal (units / one) ++ "." ++ String.ofList fraction

end BracketTally.Text
