import CallFusion.Text.Escape

/-!
Mangled paths that a hash closes: `_ZN`, a sequence of length-prefixed identifiers, and the last
identifier `h` with sixteen hexadecimal digits. Characters that an assembler would refuse are
spelled by escapes between dollar signs.
-/
namespace CallFusion.Symbol.HashedPath

open CallFusion.Text

def isDigitByte (b : UInt8) : Bool := 48 ≤ b && b ≤ 57

def hashValue? (b : UInt8) : Option UInt8 := if 65 ≤ b && b ≤ 70 then none else hexValue? b

/-- Sixteen digits count as a hash when at least five of them differ. -/
def isHash (bs : List UInt8) : Bool := bs.all (fun b => (hashValue? b).isSome) && 5 ≤ bs.eraseDups.length

def escapes : List (String × Char) :=
  [("SP", '@'), ("BP", '*'), ("RF", '&'), ("LT", '<'), ("GT", '>'), ("LP", '('), ("RP", ')')]

def escape? : List UInt8 → Option (UInt8 × List UInt8)
  | 67 :: 36 :: rest => some (44, rest)
  | a :: b :: c :: rest =>
    match rest with
    | 36 :: after =>
      if a = 117 then do
        let high ← hashValue? b
        let low ← hashValue? c
        if 2 ≤ high && high ≤ 7 then return (high * 16 + low, after) else none
      else if c = 36 then code? a b rest
      else none
    | _ => if c = 36 then code? a b rest else none
  | _ => none
where
  code? (a b : UInt8) (rest : List UInt8) : Option (UInt8 × List UInt8) :=
    (escapes.find? fun e => bytes e.1 == [a, b]).map fun e => (e.2.toUInt8, rest)

theorem escape?_length {bs rest : List UInt8} {b : UInt8} (found : escape? bs = some (b, rest)) :
    rest.length < bs.length := by
  unfold escape? at found
  split at found
  · simp only [Option.some.injEq, Prod.mk.injEq] at found
    obtain ⟨_, rfl⟩ := found
    simp only [List.length_cons]
    omega
  · rename_i a b c rest' _
    split at found
    · split at found
      · simp [Option.bind_eq_some_iff] at found
        obtain ⟨_, _, _, _, _, _, rfl⟩ := found
        simp; omega
      · split at found
        · simp [escape?.code?] at found
          obtain ⟨_, _, _, _, rfl⟩ := found
          simp
        · simp at found
    · split at found
      · simp [escape?.code?] at found
        obtain ⟨_, _, _, _, rfl⟩ := found
        simp; omega
      · simp at found
  · simp at found

/-- The text of an identifier: escapes are undone and two dots separate path segments. From an
escape of another form on the identifier stands as it is. -/
def unescapeId : List UInt8 → List UInt8
  | [] => []
  | 46 :: 46 :: rest => 58 :: 58 :: unescapeId rest
  | 36 :: rest =>
    match found : escape? rest with
    | some (b, after) =>
      have := escape?_length found
      b :: unescapeId after
    | none => 36 :: rest
  | b :: rest => b :: unescapeId rest
termination_by bs => bs.length
decreasing_by all_goals (simp only [List.length_cons]; omega)

/-- An underscore in front of an escape only keeps the identifier from starting with a dollar. -/
def idText : List UInt8 → List UInt8
  | 95 :: 36 :: rest => unescapeId (36 :: rest)
  | bs => unescapeId bs

def numberOf (digits : List UInt8) : Nat := digits.foldl (fun n d => n * 10 + (d.toNat - 48)) 0

/-- The identifiers of a path; an underscore behind a length counts as part of the identifier and
is dropped. -/
def idsFrom : Nat → List UInt8 → Option (List (List UInt8))
  | 0, _ => none
  | _ + 1, [] => some []
  | fuel + 1, bs =>
    let digits := bs.takeWhile isDigitByte
    let rest := bs.dropWhile isDigitByte
    let length := numberOf digits
    if digits.isEmpty || 214748364 * 10 ≤ length then none
    else match rest with
      | 95 :: more =>
        if length = 0 || more.length < length - 1 then none
        else (idsFrom fuel (more.drop (length - 1))).map (idText (more.take (length - 1)) :: ·)
      | _ =>
        if rest.length < length then none
        else (idsFrom fuel (rest.drop length)).map (idText (rest.take length) :: ·)

def joinSegments (segments : List (List UInt8)) : List UInt8 :=
  segments.foldl (fun acc s => if acc.isEmpty then s else acc ++ [58, 58] ++ s) []

/-- The bytes up to the last `E` that a dot follows, or all of them. -/
def withoutTag (bs : List UInt8) : List UInt8 :=
  let rec cut : List UInt8 → Option (List UInt8)
    | 46 :: 69 :: rest => some (69 :: rest)
    | _ :: rest => cut rest
    | [] => none
  ((cut bs.reverse).map List.reverse).getD bs

def demangle? (symbol : String) : Option String := do
  let bs := withoutTag (bytes symbol)
  let hash := (bs.drop (bs.length - 17)).take 16
  let mark := (bs.drop (bs.length - 20)).take 3
  if bytes "_ZN" == bs.take 3 && 23 < bs.length && mark == bytes "17h" && bs.getLast? == some 69 && isHash hash then
    let path := (bs.drop 3).take (bs.length - 23)
    let ids ← idsFrom (path.length + 1) path
    return ofBytes (joinSegments ids)
  else none

end CallFusion.Symbol.HashedPath
