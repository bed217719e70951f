import CallFusion.Text.Utf8

/-!
Punycode: a text's ASCII characters first, then the others as positions in the code space. The last
underscore divides the two.
-/
namespace CallFusion.Symbol.Punycode

def digit? (c : Char) : Option Nat :=
  if c.isDigit then some (c.toNat - 48 + 26)
  else if c.isUpper then some (c.toNat - 65)
  else if c.isLower then some (c.toNat - 97)
  else none

def threshold (k bias : Nat) : Nat := if k ≤ bias then 1 else if bias + 26 < k then 26 else k - bias

/-- A number of variable length that starts at position `k` with this weight. -/
def number? (bias : Nat) (k weight : Nat) (sum : Nat) : List Char → Option (Nat × List Char)
  | [] => none
  | c :: cs =>
    match digit? c with
    | none => none
    | some d =>
      let sum := sum + d * weight
      let t := threshold k bias
      if d < t then some (sum, cs)
      else if 0x7fffffff / 36 ≤ weight then none
      else number? bias (k + 36) (weight * (36 - t)) sum cs

theorem number?_length {bias k weight sum : Nat} {cs rest : List Char} {n : Nat}
    (found : number? bias k weight sum cs = some (n, rest)) : rest.length < cs.length := by
  induction cs generalizing k weight sum with
  | nil => simp [number?] at found
  | cons c cs ih =>
    rw [number?] at found
    split at found
    · simp at found
    · dsimp only at found
      split at found
      · injection found with found
        injection found with _ found
        rw [← found, List.length_cons]
        omega
      · split at found
        · simp at found
        · have shorter := ih found
          rw [List.length_cons]
          omega

/-- Divides by 35 until the value is small; counts the divisions in steps of 36. -/
def shrink (delta k : Nat) : Nat × Nat :=
  if 455 < delta then shrink (delta / 35) (k + 36) else (delta, k)
termination_by delta
decreasing_by exact Nat.div_lt_self (by omega) (by omega)

def adapt (delta points : Nat) (first : Bool) : Nat :=
  let delta := if first then delta / 700 else delta / 2
  let delta := delta + delta / points
  let (delta, k) := shrink delta 0
  k + 36 * delta / (delta + 38)

def insertAll (code index bias : Nat) (out : List Char) (cs : List Char) : Option (List Char) :=
  if cs.isEmpty then some out
  else match found : number? bias 36 1 0 cs with
    | none => none
    | some (sum, rest) =>
      have : rest.length < cs.length := number?_length found
      let points := out.length + 1
      let total := index + sum
      let code := code + total / points
      let place := total % points
      if (Char.ofNat code).toNat != code then none
      else
        insertAll code (place + 1) (adapt sum points (index = 0)) (out.take place ++ Char.ofNat code :: out.drop place) rest
termination_by cs.length

def decode? (s : String) : Option String :=
  let rev := s.toList.reverse
  let tail := (rev.takeWhile (· != '_')).reverse
  let out := (rev.dropWhile (· != '_')).drop 1
  (insertAll 128 0 72 out.reverse tail).map fun cs => String.ofList (cs.flatMap Text.carried)

end CallFusion.Symbol.Punycode
