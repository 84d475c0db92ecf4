namespace QueryShape

/-- The signed value of the low 32 bits of a number. -/
def narrow32 (n : Int) : Int :=
  n.bmod 0x100000000

/-- The low 8 bits of a number. -/
def narrow8 (n : Int) : Nat :=
  (n % 256).toNat

theorem narrow32_eq_self {n : Int} (lower : -0x80000000 ≤ n) (upper : n < 0x80000000) :
    narrow32 n = n := by
  unfold narrow32
  rw [Int.bmod_def]
  split <;> omega

end QueryShape
