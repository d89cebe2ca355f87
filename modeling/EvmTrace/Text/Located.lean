/-!
# Located messages

A message may end in the place of a text that it is about, a line and a column. Line 0 stands for no
place: a message that names it is shown without, and a number is shown in its fewest digits.
-/
namespace EvmTrace.Text

structure Located where
  message : String
  line : Nat
  column : Nat
  deriving DecidableEq, Repr

namespace Located

def lineMark : String := " at line "

def columnMark : String := " column "

/-- Takes a mark off the end of a text; the text is given backwards. -/
def strip? (mark : String) (back : List Char) : Option (List Char) :=
  let m := mark.toList.reverse
  if m.isPrefixOf back then some (back.drop m.length) else none

/-- The number that some digits give backwards. There must be a digit, and the number must fit 64
bits. -/
def number? (back : List Char) : Option Nat :=
  let n := back.foldr (fun d n => 10 * n + (d.toNat - 48)) 0
  if back ≠ [] ∧ n < UInt64.size then some n else none

/-- Takes the place off the end of a text. -/
def place? (s : String) : Option Located := do
  let back := s.toList.reverse
  let column ← number? (back.takeWhile Char.isDigit)
  let back ← strip? columnMark (back.dropWhile Char.isDigit)
  let line ← number? (back.takeWhile Char.isDigit)
  let back ← strip? lineMark (back.dropWhile Char.isDigit)
  return ⟨String.ofList back.reverse, line, column⟩

def ofText (s : String) : Located := (place? s).getD ⟨s, 0, 0⟩

def render (l : Located) : String :=
  if l.line = 0 then l.message
  else l.message ++ lineMark ++ toString l.line ++ columnMark ++ toString l.column

/-- A text that names no place is shown as it is. -/
theorem render_ofText_of_place?_eq_none {s : String} (h : place? s = none) :
    (ofText s).render = s := by
  simp [ofText, h, render]

end Located
end EvmTrace.Text
