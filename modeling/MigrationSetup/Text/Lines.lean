/-! Lines and where they end.

A file may end its lines with a line feed, a carriage return or both. Reading it as
text turns each of the three into one line feed (`unify`), so what follows counts
lines by line feeds alone. -/
namespace MigrationSetup.Text.Lines

/-- Turns every line end into a line feed. -/
def unify : List Char → List Char
  | [] => []
  | '\r' :: '\n' :: cs => '\n' :: unify cs
  | '\r' :: cs => '\n' :: unify cs
  | c :: cs => c :: unify cs

/-- The line and the column of the character behind `before`, both counted from one. -/
def position (before : List Char) : Nat × Nat :=
  before.foldl (fun p c => if c = '\n' then (p.1 + 1, 1) else (p.1, p.2 + 1)) (1, 1)

end MigrationSetup.Text.Lines
