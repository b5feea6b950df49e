import MigrationSetup.Text.Letter

/-! White space at the ends of a setting.

A letter is blank when it separates words or lines. `strip` drops blanks at
both ends and keeps what stands between. The laws say that the result neither
begins nor ends with a blank (`head_strip`, `getLast_strip`), that stripping a
text that has no blank ends changes nothing (`strip_of_ends`), and that a second
strip finds nothing to do (`strip_strip`). -/
namespace MigrationSetup.Text

/-- The letters that `strip` removes: the ASCII controls and separators that
end words or lines, and the spaces and line ends beyond ASCII. -/
def isBlank (c : Letter) : Bool :=
  let n := c.code
  (9 ≤ n && n ≤ 13) || (28 ≤ n && n ≤ 32) || n == 0x85 || n == 0xA0 || n == 0x1680 ||
    (0x2000 ≤ n && n ≤ 0x200A) || n == 0x2028 || n == 0x2029 || n == 0x202F || n == 0x205F ||
    n == 0x3000

/-- Drops the blanks at the end. -/
def stripEnd : Text → Text
  | [] => []
  | c :: cs =>
    match stripEnd cs with
    | [] => if isBlank c then [] else [c]
    | rest => c :: rest

/-- Drops the blanks at both ends. -/
def strip (cs : Text) : Text := stripEnd (cs.dropWhile isBlank)

/-! ### Laws -/

theorem stripEnd_append {cs : Text} {c : Letter} (h : isBlank c = false) :
    stripEnd (cs ++ [c]) = cs ++ [c] := by
  induction cs with
  | nil => simp [stripEnd, h]
  | cons d cs ih =>
    rw [List.cons_append, stripEnd, ih]
    cases cs <;> rfl

/-- What is left at the end is not blank. -/
theorem getLast_stripEnd {cs : Text} {c : Letter} (h : c ∈ (stripEnd cs).getLast?) :
    isBlank c = false := by
  induction cs with
  | nil => simp [stripEnd] at h
  | cons d cs ih =>
    rw [stripEnd] at h
    split at h
    · split at h
      · simp at h
      · next hd => simp at h; subst h; simpa using hd
    · next rest hne =>
      apply ih
      cases hs : stripEnd cs with
      | nil => exact absurd hs hne
      | cons e es => rw [hs] at h; simpa [List.getLast?_cons_cons] using h

theorem stripEnd_of_getLast {cs : Text} (h : ∀ c ∈ cs.getLast?, isBlank c = false) :
    stripEnd cs = cs := by
  rcases List.eq_nil_or_concat cs with rfl | ⟨init, c, rfl⟩
  · rfl
  · rw [List.concat_eq_append] at h ⊢
    exact stripEnd_append (h c (by simp))

theorem head_stripEnd {cs : Text} {c : Letter} (h : c ∈ (stripEnd cs).head?) :
    c ∈ cs.head? := by
  cases cs with
  | nil => simp [stripEnd] at h
  | cons d cs =>
    rw [stripEnd] at h
    split at h
    · split at h <;> simp_all
    · simpa using h

/-- What is left at the front is not blank. -/
theorem head_strip {cs : Text} {c : Letter} (h : c ∈ (strip cs).head?) : isBlank c = false := by
  have := head_stripEnd h
  have hd := List.head?_dropWhile_not isBlank cs
  cases hc : (cs.dropWhile isBlank).head? with
  | none => simp [hc] at this
  | some d => simp_all

theorem getLast_strip {cs : Text} {c : Letter} (h : c ∈ (strip cs).getLast?) :
    isBlank c = false :=
  getLast_stripEnd h

/-- A text without blank ends is kept. -/
theorem strip_of_ends {cs : Text} (first : ∀ c ∈ cs.head?, isBlank c = false)
    (last : ∀ c ∈ cs.getLast?, isBlank c = false) : strip cs = cs := by
  have : cs.dropWhile isBlank = cs := by
    cases cs with
    | nil => rfl
    | cons c cs => simp [List.dropWhile, first c (by simp)]
  rw [strip, this, stripEnd_of_getLast last]

/-- A second strip finds nothing to do. -/
theorem strip_strip (cs : Text) : strip (strip cs) = strip cs :=
  strip_of_ends (fun _ h => head_strip h) (fun _ h => getLast_strip h)

end MigrationSetup.Text
