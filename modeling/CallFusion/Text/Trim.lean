/-! Blank characters at the ends of a text. -/
namespace CallFusion.Text

def isSpace (c : Char) : Bool :=
  let n := c.toNat
  (9 ≤ n && n ≤ 13) || n == 32 || n == 0x85 || n == 0xA0 || n == 0x1680 || (0x2000 ≤ n && n ≤ 0x200A) ||
    n == 0x2028 || n == 0x2029 || n == 0x202F || n == 0x205F || n == 0x3000

def trimWith (drop : Char → Bool) (s : String) : String :=
  String.ofList (((s.toList.dropWhile drop).reverse.dropWhile drop).reverse)

def trimEndWith (drop : Char → Bool) (s : String) : String :=
  String.ofList ((s.toList.reverse.dropWhile drop).reverse)

def trim (s : String) : String := trimWith isSpace s

/-- Letters outside ASCII whose lower case is in it or takes another number of bytes. -/
def lowerForms : List (Nat × Nat) :=
  [(0x130, 0x69), (0x23A, 0x2C65), (0x23E, 0x2C66), (0x1E9E, 0xDF), (0x2126, 0x3C9), (0x212A, 0x6B), (0x212B, 0xE5),
    (0x2C62, 0x26B), (0x2C64, 0x27D), (0x2C6D, 0x251), (0x2C6E, 0x271), (0x2C6F, 0x250), (0x2C70, 0x252),
    (0x2C7E, 0x23F), (0x2C7F, 0x240), (0xA78D, 0x265), (0xA7AA, 0x266), (0xA7AB, 0x25C), (0xA7AC, 0x261),
    (0xA7AD, 0x26C), (0xA7AE, 0x26A), (0xA7B0, 0x29E), (0xA7B1, 0x287), (0xA7B2, 0x29D), (0xA7C5, 0x282)]

/-- A letter in lower case, as far as ASCII letters or another number of bytes can come out. -/
def lowerChar (c : Char) : Char :=
  match lowerForms.lookup c.toNat with
  | some n => Char.ofNat n
  | none => c.toLower

def lower (s : String) : String := s.map lowerChar

def upperChar (c : Char) : Char :=
  if c.toNat == 0x131 then 'I' else if c.toNat == 0x17F then 'S' else c.toUpper

def upper (s : String) : String := s.map upperChar

def words (s : String) : List String := go [] s.toList
where
  go (current : List Char) : List Char → List String
    | [] => if current.isEmpty then [] else [String.ofList current.reverse]
    | c :: cs =>
      if isSpace c then
        (if current.isEmpty then [] else [String.ofList current.reverse]) ++ go [] cs
      else go (c :: current) cs

def splitChar (sep : Char) (s : String) : List String := (go s.toList).map String.ofList
where
  go : List Char → List (List Char)
    | [] => [[]]
    | c :: cs =>
      if c == sep then [] :: go cs
      else match go cs with
        | [] => [[c]]
        | piece :: rest => (c :: piece) :: rest

end CallFusion.Text
