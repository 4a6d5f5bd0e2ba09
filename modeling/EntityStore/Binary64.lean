import EntityStore.Bytes

/-! # The range of binary64 numbers

Which decimal numbers have a finite binary64 number.  `Binary64.isFinite` rounds once, at the
end.  `Binary64.isFiniteProduct` multiplies a number and a power of ten that are each rounded
first; just below the limit the two differ. -/

namespace EntityStore

namespace Binary64

/-- The least number that rounds to no finite one: the largest finite number and half a
    unit. -/
def limit : Nat := Nat.pow 2 1024 - Nat.pow 2 970

/-- The nearest number with 53 significant binary digits; of two that are equally near, the
    even one. -/
def round (n : Nat) : Nat :=
  let unit := Nat.pow 2 (n.log2 - 52)
  let units := n / unit
  let rest := n % unit
  if 2 * rest < unit ∨ 2 * rest = unit ∧ units % 2 = 0 then units * unit
  else (units + 1) * unit

/-- Whether the nearest number to `digits · 10 ^ power` is finite.  The number of digits
    decides for all but a small range of powers. -/
def isFinite (digits : Nat) (power : Int) : Bool :=
  let length := (Decimal.digits digits).length
  digits == 0 || length + power ≤ 308 ||
    (length + power ≤ 310 &&
      digits * Nat.pow 10 power.toNat < limit * Nat.pow 10 (-power).toNat)

/-- Whether `significand · 10 ^ power` is finite when both factors are rounded before they
    are multiplied.  The significand has to be below `2^64`. -/
def isFiniteProduct (significand : Nat) (power : Int) : Bool :=
  significand == 0 || power < 0 ||
    (power ≤ 308 && round significand * round (Nat.pow 10 power.toNat) < limit)

end Binary64

end EntityStore
