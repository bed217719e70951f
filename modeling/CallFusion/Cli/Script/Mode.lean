/-!
Rights that new files do not get: three groups of three bits, as octal digits or as letters for the rights
that are left.
-/
namespace CallFusion.Cli.Script.Mode

def groups : List (Char × Nat) := [('u', 6), ('g', 3), ('o', 0)]

def rights : List (Char × Nat) := [('r', 4), ('w', 2), ('x', 1)]

def has (mode shift bit : Nat) : Bool := mode / Nat.pow 2 shift % 8 / bit % 2 == 1

def complement (mask : Nat) : Nat := 511 - mask % 512

def digits (mask : Nat) : String :=
  let ds := Nat.toDigits 8 mask
  String.ofList (List.replicate (4 - ds.length) '0' ++ ds)

def letters (mask : Nat) : String :=
  let mode := complement mask
  ",".intercalate (groups.map fun (group, shift) =>
    String.ofList (group :: '=' :: (rights.filter fun (_, bit) => has mode shift bit).map (·.1)))

def ofDigits? (word : String) : Option Nat :=
  if word.toList.all fun c => '0' ≤ c && c ≤ '7' then
    some (word.toList.foldl (fun n c => n * 8 + (c.toNat - 48)) 0 % 512)
  else none

def changed (sign : Char) (old bits : Nat) : Nat :=
  let pick (test : Bool → Bool → Bool) : Nat :=
    ([4, 2, 1].filter fun bit => test (old / bit % 2 == 1) (bits / bit % 2 == 1)).foldl (· + ·) 0
  match sign with
  | '+' => pick (· || ·)
  | '-' => pick fun a b => a && !b
  | _ => bits

def applied? (mode : Nat) (change : List Char) : Option Nat := do
  let who := change.takeWhile fun c => c == 'a' || (groups.lookup c).isSome
  let sign :: named := change.drop who.length | none
  if sign != '+' && sign != '-' && sign != '=' then none
  let bits ← named.mapM fun c => rights.lookup c
  let bits := bits.eraseDups.foldl (· + ·) 0
  let isMeant (group : Char) : Bool := who.isEmpty || who.contains 'a' || who.contains group
  return (groups.map fun (group, shift) =>
    let old := mode / Nat.pow 2 shift % 8
    (if isMeant group then changed sign old bits else old) * Nat.pow 2 shift).foldl (· + ·) 0

/-- The mask after changes to the rights it leaves, between commas. -/
def ofLetters? (mask : Nat) (word : String) : Option Nat :=
  ((word.splitOn ",").foldlM (fun mode change => applied? mode change.toList) (complement mask)).map complement

end CallFusion.Cli.Script.Mode
