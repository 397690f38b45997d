/-
Numbers of 64 bits, with and without a sign.
-/
namespace ObjectGroups.Word

/-- How many there are: the least that is none without a sign. -/
def size : Nat := 18446744073709551616

/-- The least that is none with a sign; the negative of it is one. -/
def half : Nat := 9223372036854775808

/-- Whether `n` is one with a sign. -/
def signed (n : Int) : Bool := decide (-half ≤ n ∧ n < half)

/-- Whether `n` is one without a sign. -/
def unsigned (n : Int) : Bool := decide (0 ≤ n ∧ n < size)

/-- The one with a sign that is `n` but for a multiple of `size`. -/
def wrap (n : Int) : Int := n.bmod size

end ObjectGroups.Word
