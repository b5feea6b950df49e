import Mathlib.Data.List.Forall2
import MigrationSetup.Canonical

/-! Where canonical texts end.

In a canonical text nothing separates one part from the next but the parts themselves, so
each has to show where it ends. A quoted text ends at the first quote that is not escaped
(`quote_append`), and a whole number where no digit follows (`whole_append`). Parts that
show their ends still do so once they are joined by commas and closed (`commaJoin_append`),
and so rows and dicts show theirs. -/
namespace MigrationSetup

/-! ### Hexadecimal digits -/

namespace Text

theorem hexDigit_injective {m n : Nat} (hm : m < 16) (hn : n < 16)
    (h : hexDigit m = hexDigit n) : m = n := by
  have hall : ∀ a < 16, ∀ b < 16, hexDigit a = hexDigit b → a = b := by decide
  exact hall m hm n hn h

/-- Digits tell numbers apart that fit into them. -/
theorem hex_injective {width m n : Nat} (hm : m < Nat.pow 16 width) (hn : n < Nat.pow 16 width)
    (h : hex width m = hex width n) : m = n := by
  induction width generalizing m n with
  | zero => exact (Nat.lt_one_iff.1 hm).trans (Nat.lt_one_iff.1 hn).symm
  | succ width ih =>
    obtain ⟨hfront, hlast⟩ := List.append_inj' h rfl
    have hrest : m / 16 = n / 16 := by
      refine ih ?_ ?_ hfront
      · exact Nat.div_lt_of_lt_mul (Nat.mul_comm 16 _ ▸ hm)
      · exact Nat.div_lt_of_lt_mul (Nat.mul_comm 16 _ ▸ hn)
    have hdigit : m % 16 = n % 16 :=
      hexDigit_injective (Nat.mod_lt _ (by decide)) (Nat.mod_lt _ (by decide))
        (List.singleton_injective hlast)
    omega

end Text

namespace Canonical

/-! ### Quoted texts -/

/-- The letters that stand for others behind a backslash. -/
def letters : List (Char × Char) :=
  [('"', '"'), ('\\', '\\'), ('n', '\n'), ('r', '\r'), ('t', '\t'), ('f', '\x0c'), ('b', '\x08')]

/-- The ways in which a letter is written inside quotes. -/
inductive Escaped (c : Letter) : Text → Prop
  | plain (quote : c ≠ '"') (backslash : c ≠ '\\') : Escaped c [c]
  | letter {l d : Char} (known : (l, d) ∈ letters) (is : c = d) : Escaped c [.char '\\', .char l]
  | code (small : c.code < 0x20) :
      Escaped c (.char '\\' :: .char 'u' :: Text.ofChars (Text.hex 4 c.code))

theorem escaped (c : Letter) : Escaped c (escape c) := by
  unfold escape
  split
  · next h => exact .letter (l := '"') (by decide) h
  split
  · next h => exact .letter (l := '\\') (by decide) h
  split
  · next h => exact .letter (l := 'n') (by decide) h
  split
  · next h => exact .letter (l := 'r') (by decide) h
  split
  · next h => exact .letter (l := 't') (by decide) h
  split
  · next h => exact .letter (l := 'f') (by decide) h
  split
  · next h => exact .letter (l := 'b') (by decide) h
  split
  · next h => exact .code h
  · next hq hb _ _ _ _ _ _ => exact .plain hq hb

/-- No letter stands for two characters, and `u` for none. -/
theorem letters_unique : ∀ p ∈ letters, p.1 ≠ 'u' ∧ ∀ q ∈ letters, p.1 = q.1 → p.2 = q.2 := by
  decide

/-- A letter inside quotes shows where it ends. -/
theorem escape_append {c d : Letter} {r s : Text} (h : escape c ++ r = escape d ++ s) :
    c = d ∧ r = s := by
  have hc := escaped c
  have hd := escaped d
  generalize escape c = t at h hc
  generalize escape d = u at h hd
  cases hc with
  | plain hq hb =>
    cases hd with
    | plain => exact List.cons.inj h
    | letter => exact absurd (List.cons.inj h).1 hb
    | code => exact absurd (List.cons.inj h).1 hb
  | letter hl hc =>
    cases hd with
    | plain hq hb => exact absurd (List.cons.inj h).1.symm hb
    | letter hm hd =>
      obtain ⟨hsame, hrest⟩ := List.cons.inj (List.cons.inj h).2
      have hsource := (letters_unique _ hl).2 _ hm (Letter.char.inj hsame)
      exact ⟨by rw [hc, hd]; exact congrArg Letter.char hsource, hrest⟩
    | code =>
      have hletter := Letter.char.inj (List.cons.inj (List.cons.inj h).2).1
      exact absurd hletter (letters_unique _ hl).1
  | code hsmall =>
    cases hd with
    | plain hq hb => exact absurd (List.cons.inj h).1.symm hb
    | letter hm =>
      have hletter := Letter.char.inj (List.cons.inj (List.cons.inj h).2).1
      exact absurd hletter.symm (letters_unique _ hm).1
    | code hsmall' =>
      have hdigits := (List.cons.inj (List.cons.inj h).2).2
      obtain ⟨hhex, hrest⟩ := List.append_inj hdigits (by
        rw [Text.ofChars, Text.ofChars, List.length_map, List.length_map, Text.length_hex,
          Text.length_hex])
      have hfour : Nat.pow 16 4 = 65536 := rfl
      have hcode : c.code = d.code :=
        Text.hex_injective (by omega) (by omega) (Text.ofChars_inj.1 hhex)
      exact ⟨Letter.code_injective hcode, hrest⟩

/-- What is written for a letter is no quote. -/
theorem escape_ne_quote (c : Letter) (r s : Text) : escape c ++ r ≠ .char '"' :: s := by
  have hc := escaped c
  generalize escape c = t at hc
  cases hc with
  | plain hq => exact fun h => hq (List.cons.inj h).1
  | letter => exact fun h => absurd (List.cons.inj h).1 (by decide)
  | code => exact fun h => absurd (List.cons.inj h).1 (by decide)

/-- A quoted text shows where it ends. -/
theorem quote_append {cs ds r s : Text} (h : quote cs ++ r = quote ds ++ s) :
    cs = ds ∧ r = s := by
  have hbody : cs.flatMap escape ++ .char '"' :: r = ds.flatMap escape ++ .char '"' :: s := by
    simpa [quote] using h
  clear h
  induction cs generalizing ds with
  | nil =>
    cases ds with
    | nil => exact ⟨rfl, (List.cons.inj hbody).2⟩
    | cons d ds =>
      rw [List.flatMap_cons, List.append_assoc] at hbody
      exact absurd hbody.symm (escape_ne_quote d _ _)
  | cons c cs ih =>
    cases ds with
    | nil =>
      rw [List.flatMap_cons, List.append_assoc] at hbody
      exact absurd hbody (escape_ne_quote c _ _)
    | cons d ds =>
      rw [List.flatMap_cons, List.flatMap_cons, List.append_assoc, List.append_assoc] at hbody
      obtain ⟨rfl, hrest⟩ := escape_append hbody
      obtain ⟨rfl, hend⟩ := ih hrest
      exact ⟨rfl, hend⟩

/-! ### Whole numbers -/

/-- A character of a whole number. -/
def isNumeral (c : Char) : Bool := c.isDigit || c == '-'

theorem toList_natural (n : Nat) : (toString (Int.ofNat n)).toList = Nat.toDigits 10 n := by
  show (toString n).toList = _
  simp

theorem toList_negative (n : Nat) :
    (toString (Int.negSucc n)).toList = '-' :: Nat.toDigits 10 (n + 1) := by
  show ("-" ++ toString (n + 1)).toList = _
  simp

theorem isDigit_of_mem_toDigits {n : Nat} {c : Char} (h : c ∈ Nat.toDigits 10 n) :
    c.isDigit = true :=
  Nat.isDigit_of_mem_toDigits (by decide) (by decide) h

theorem isNumeral_of_mem {n : Int} {c : Char} (h : c ∈ (toString n).toList) :
    isNumeral c = true := by
  have hdigit {m : Nat} (hm : c ∈ Nat.toDigits 10 m) : isNumeral c = true := by
    simp [isNumeral, isDigit_of_mem_toDigits hm]
  cases n with
  | ofNat n =>
    rw [toList_natural] at h
    exact hdigit h
  | negSucc n =>
    rw [toList_negative] at h
    rcases List.mem_cons.1 h with rfl | h
    · rfl
    · exact hdigit h

/-- A letter of a whole number. -/
def isNumeralLetter (c : Letter) : Bool := c.char?.any isNumeral

theorem isNumeralLetter_of_mem {n : Int} {c : Letter} (h : c ∈ Text.ofString (toString n)) :
    isNumeralLetter c = true := by
  obtain ⟨d, hd, rfl⟩ := List.mem_map.1 h
  exact isNumeral_of_mem hd

theorem toString_ne_nil (n : Int) : (toString n).toList ≠ [] := by
  cases n with
  | ofNat n =>
    rw [toList_natural]
    exact Nat.toDigits_ne_nil
  | negSucc n =>
    rw [toList_negative]
    exact List.cons_ne_nil _ _

theorem toDigits_injective {m n : Nat} (h : Nat.toDigits 10 m = Nat.toDigits 10 n) : m = n := by
  have hread (k : Nat) : Nat.ofDigitChars 10 (Nat.toDigits 10 k) 0 = k :=
    Nat.ofDigitChars_toDigits (by decide) (by decide)
  rw [← hread m, ← hread n, h]

/-- No digit is a sign. -/
theorem toDigits_ne_negative (m : Nat) (ds : List Char) : Nat.toDigits 10 m ≠ '-' :: ds := by
  intro h
  have hsign : ('-' : Char).isDigit = true :=
    isDigit_of_mem_toDigits (h ▸ List.mem_cons_self)
  exact absurd hsign (by decide)

theorem toString_injective {m n : Int} (h : (toString m).toList = (toString n).toList) :
    m = n := by
  cases m with
  | ofNat m =>
    cases n with
    | ofNat n =>
      rw [toList_natural, toList_natural] at h
      rw [toDigits_injective h]
    | negSucc n =>
      rw [toList_natural, toList_negative] at h
      exact absurd h (toDigits_ne_negative m _)
  | negSucc m =>
    cases n with
    | ofNat n =>
      rw [toList_natural, toList_negative] at h
      exact absurd h.symm (toDigits_ne_negative n _)
    | negSucc n =>
      rw [toList_negative, toList_negative] at h
      rw [Nat.succ.inj (toDigits_injective (List.cons.inj h).2)]

/-- A text ends here: nothing follows, or a mark that parts or closes. -/
def Ends (r : Text) : Prop := ∀ c ∈ r.head?, c = ',' ∨ c = ']' ∨ c = '\x7d'

theorem ends_cons {c : Letter} (h : c = ',' ∨ c = ']' ∨ c = '\x7d') (r : Text) :
    Ends (c :: r) := by
  intro d hd
  obtain rfl : c = d := by simpa using hd
  exact h

theorem Ends.takeWhile {r : Text} (h : Ends r) : r.takeWhile isNumeralLetter = [] := by
  cases r with
  | nil => rfl
  | cons c r =>
    have hc : isNumeralLetter c = false := by
      rcases h c (by simp) with rfl | rfl | rfl <;> decide
    exact List.takeWhile_cons_of_neg (by simp [hc])

/-- A whole number shows where it ends. -/
theorem whole_append {m n : Int} {r s : Text} (hr : Ends r) (hs : Ends s)
    (h : Text.ofString (toString m) ++ r = Text.ofString (toString n) ++ s) : m = n ∧ r = s := by
  have hfront (k : Int) {q : Text} (hq : Ends q) :
      (Text.ofString (toString k) ++ q).takeWhile isNumeralLetter = toString k := by
    rw [List.takeWhile_append_of_pos fun c hc => isNumeralLetter_of_mem hc, hq.takeWhile,
      List.append_nil]
  have hsame : Text.ofString (toString m) = toString n := by
    rw [← hfront m hr, ← hfront n hs, h]
  rw [hsame] at h
  exact ⟨toString_injective (Text.ofChars_inj.1 hsame), List.append_cancel_left h⟩

/-! ### Parts with commas between them -/

theorem commaJoin_cons (t : Text) (ts : List Text) (r : Text) :
    commaJoin (t :: ts) ++ r = t ++ if ts = [] then r else .char ',' :: (commaJoin ts ++ r) := by
  cases ts with
  | nil => rfl
  | cons u us => simp [commaJoin]

section Parts
variable {α : Type} {Writes : α → Text → Prop} {Same : α → α → Prop}

/-- Whatever is written as `x` is and ends as its text does is the same as `x`. -/
def Delimited (Writes : α → Text → Prop) (Same : α → α → Prop) (x : α) : Prop :=
  ∀ {y t u r s}, Writes x t → Writes y u → Ends r → Ends s → t ++ r = u ++ s →
    Same x y ∧ r = s

/-- Parts that show their ends still do so once they are joined and closed. -/
theorem commaJoin_append {close : Letter} (hclose : close = ']' ∨ close = '\x7d')
    (hopen : ∀ {y u r}, Writes y u → u ≠ close :: r ∧ u ≠ []) {xs ys : List α}
    {ts us : List Text} {r s : Text} (h : ∀ x ∈ xs, Delimited Writes Same x)
    (hx : List.Forall₂ Writes xs ts) (hy : List.Forall₂ Writes ys us)
    (he : commaJoin ts ++ close :: r = commaJoin us ++ close :: s) :
    List.Forall₂ Same xs ys ∧ r = s := by
  -- What follows a part, be it the next one or the close, ends it.
  have hafter (q : Text) (ts : List Text) :
      Ends (if ts = [] then close :: q else .char ',' :: (commaJoin ts ++ close :: q)) := by
    split
    · exact ends_cons (.inr hclose) _
    · exact ends_cons (.inl rfl) _
  have hstart {y : α} {u : Text} (hu : Writes y u) (us : List Text) (q p : Text) :
      close :: q ≠ commaJoin (u :: us) ++ p := by
    rw [commaJoin_cons]
    intro heq
    cases u with
    | nil => exact (hopen (r := []) hu).2 rfl
    | cons c u => exact (hopen hu).1 (congrArg (· :: u) (List.cons.inj heq).1.symm)
  have hcomma : close ≠ ',' := by
    rcases hclose with rfl | rfl <;> decide
  induction hx generalizing ys us with
  | nil =>
    cases hy with
    | nil => exact ⟨.nil, (List.cons.inj he).2⟩
    | cons hu => exact absurd he (hstart hu _ _ _)
  | @cons x t xs ts ht hts ih =>
    cases hy with
    | nil => exact absurd he.symm (hstart ht _ _ _)
    | @cons y u ys us hu hus =>
      rw [commaJoin_cons, commaJoin_cons] at he
      obtain ⟨hsame, hrest⟩ := h x List.mem_cons_self ht hu (hafter r ts) (hafter s us) he
      cases hts with
      | nil =>
        cases hus with
        | nil => exact ⟨.cons hsame .nil, (List.cons.inj hrest).2⟩
        | cons => exact absurd (List.cons.inj hrest).1 hcomma
      | cons ht' hts =>
        cases hus with
        | nil => exact absurd (List.cons.inj hrest).1.symm hcomma
        | cons hu' hus =>
          obtain ⟨hall, hend⟩ := ih (fun x hx => h x (List.mem_cons_of_mem _ hx)) (.cons hu' hus)
            (List.cons.inj hrest).2
          exact ⟨.cons hsame hall, hend⟩

end Parts

end Canonical
end MigrationSetup
