/-!
Numbers of binary floating point, without a bound on their exponents: a mantissa of at most a given number
of bits times a power of two. A result that does not fit is rounded to the nearest that does, ties to even.
-/
namespace CallFusion.Text

/-- `num / den` as a mantissa of at most `p` bits and an exponent, to nearest, ties to even. -/
def roundRatio (p num den : Nat) : Nat × Int :=
  if num = 0 then (0, 0)
  else
    let shift : Int := (p : Int) + (Nat.log2 den : Int) - (Nat.log2 num : Int)
    let scaledNum := num * Nat.pow 2 shift.toNat
    let scaledDen := den * Nat.pow 2 (-shift).toNat
    -- the quotient has p or p + 1 bits; drop one when it has p + 1
    let extra : Nat := if scaledNum / scaledDen ≥ Nat.pow 2 p then 1 else 0
    let den' := scaledDen * Nat.pow 2 extra
    let q := scaledNum / den'
    let r := scaledNum % den'
    let up := 2 * r > den' || (2 * r == den' && q % 2 == 1)
    (if up then q + 1 else q, (extra : Int) - shift)

structure Binary where
  mantissa : Nat
  exponent : Int
  deriving DecidableEq, Repr, Inhabited

namespace Binary

def precision : Nat := 53

def ofRatio (num den : Nat) : Binary :=
  let (m, e) := roundRatio precision num den
  ⟨m, e⟩

def ofNat (n : Nat) : Binary := ofRatio n 1

def num (b : Binary) : Nat := b.mantissa * Nat.pow 2 b.exponent.toNat

def den (b : Binary) : Nat := Nat.pow 2 (-b.exponent).toNat

def plus (a b : Binary) : Binary := ofRatio (a.num * b.den + b.num * a.den) (a.den * b.den)

def times (a b : Binary) : Binary := ofRatio (a.num * b.num) (a.den * b.den)

def dividedBy (a b : Binary) : Binary := ofRatio (a.num * b.den) (a.den * b.num)

def atMost (a b : Binary) : Bool := a.num * b.den ≤ b.num * a.den

def floor (b : Binary) : Nat := b.num / b.den

end Binary
end CallFusion.Text
