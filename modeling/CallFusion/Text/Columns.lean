import CallFusion.Text.Utf8

/-!
Aligned columns. A tab ends a cell, and cells that stand above each other on lines without a gap
share one width: the widest of them and two blanks. What follows a line's last tab is not aligned. A
form feed ends a line too, and nothing behind it is aligned with what came before. Between two bytes `0xFF`,
which have no width, tabs and ends of lines are text.
-/
namespace CallFusion.Text

/-- The cells of a line; the last one was ended by no tab. -/
abbrev Cells := List String

def verbatimMark : Char := strayChar 0xFF

def splitBare (isSeparator : Char → Bool) (s : String) : List String := (go false s.toList).map String.ofList
where
  go (verbatim : Bool) : List Char → List (List Char)
    | [] => [[]]
    | c :: cs =>
      if !verbatim && isSeparator c then [] :: go false cs
      else match go (if c == verbatimMark then !verbatim else verbatim) cs with
        | [] => [[c]]
        | piece :: rest => (c :: piece) :: rest

/-- Marks have no width where verbatim text is closed. -/
def cellWidth (s : String) : Nat := glyphCount s - 2 * (s.toList.count verbatimMark / 2)

def columnWidths (column : Nat) (lines : List Cells) : List (Option Nat) :=
  lines.map fun cells => if column + 1 < cells.length then (cells[column]?).map cellWidth else none

/-- Carries the maximum of a run forward, over lines that have the cell. -/
def spreadMax (start : Option Nat) : List (Option Nat) → List (Option Nat)
  | [] => []
  | none :: rest => none :: spreadMax none rest
  | some w :: rest =>
    let m := max w (start.getD 0)
    some m :: spreadMax (some m) rest

def runMax (widths : List (Option Nat)) : List (Option Nat) :=
  (spreadMax none (spreadMax none widths).reverse).reverse

def padTo (width : Nat) (s : String) : String := s ++ String.ofList (List.replicate (width - cellWidth s) ' ')

def alignLine (widths : List Nat) (cells : Cells) : String :=
  String.join (cells.zipIdx.map fun (c, i) => match widths[i]? with
    | some w => if i + 1 < cells.length then padTo (w + 2) c else c
    | none => c)

def cellsOf (line : String) : Cells := splitBare (fun c => c == '\t' || c == '\x0b') line

def alignBlock (text : String) : String :=
  let lines := (splitBare (· == '\n') text).map cellsOf
  let columns := (lines.map List.length).foldl max 0
  let widths := (List.range columns).map fun c => runMax (columnWidths c lines)
  "\n".intercalate (lines.zipIdx.map fun (cells, i) =>
    alignLine (widths.map fun ws => ((ws[i]?).join).getD 0) cells)

def align (text : String) : String := "\n".intercalate ((splitBare (· == '\x0c') text).map alignBlock)

end CallFusion.Text
