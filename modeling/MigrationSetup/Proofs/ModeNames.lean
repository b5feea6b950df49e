import Mathlib
import MigrationSetup.Proofs.Building
import MigrationSetup.Proofs.Grammar

/-! How a mode may be named.

A text names a mode if it spells its name letter by letter once blanks at its ends are dropped
(`Text.Spells`), each letter large or small. Since letters are raised before they are compared,
the small `i` without a dot stands for an `I` as well, the long small `s` for an `S`, and two
ligatures stand for `ST`. No other text names a mode (`TransactionMode.parsed_iff`). All that
takes a mode goes by this: a builder, options from values, and the binder
(`TransactionMode.mode_spellings`). -/
namespace MigrationSetup
namespace Text

/-- A capital, or the small letter for it. -/
def IsCase (c : Letter) (l : Char) : Prop := c = l ∨ c = l.toLower

/-- A character beyond ASCII that is raised to capitals of which names are made. -/
def IsForeign (c : Letter) : Prop := c = 'ı' ∨ c = 'ſ' ∨ c = 'ﬅ' ∨ c = 'ﬆ'

instance (c : Letter) (l : Char) : Decidable (IsCase c l) := inferInstanceAs (Decidable (_ ∨ _))

instance (c : Letter) : Decidable (IsForeign c) := inferInstanceAs (Decidable (_ ∨ _))

/-- A text that spells a name in capitals letter by letter. -/
inductive Spells : Text → List Char → Prop
  | nil : Spells [] []
  | letter {c : Letter} {l : Char} {cs : Text} {ls : List Char} (case : IsCase c l)
    (rest : Spells cs ls) : Spells (c :: cs) (l :: ls)
  | dotless {cs : Text} {ls : List Char} (rest : Spells cs ls) :
    Spells (.char 'ı' :: cs) ('I' :: ls)
  | long {cs : Text} {ls : List Char} (rest : Spells cs ls) : Spells (.char 'ſ' :: cs) ('S' :: ls)
  | ligature {c : Letter} {cs : Text} {ls : List Char} (either : c = 'ﬅ' ∨ c = 'ﬆ')
    (rest : Spells cs ls) : Spells (c :: cs) ('S' :: 'T' :: ls)

/-- Capitals and underscores, of which no ligature but those of `ST` stands for any. -/
structure Plain (name : List Char) : Prop where
  capitals : ∀ l ∈ name, l.isUpper = true ∨ l = '_'
  noF : 'F' ∉ name
  noDoubleS : ¬['S', 'S'] <:+: name

theorem Plain.tail {l : Char} {ls : List Char} (h : Plain (l :: ls)) : Plain ls where
  capitals := fun l hl => h.capitals l (List.mem_cons_of_mem _ hl)
  noF := fun hf => h.noF (List.mem_cons_of_mem _ hf)
  noDoubleS := fun hs => h.noDoubleS (hs.trans (List.suffix_cons l ls).isInfix)

theorem asciiUppercase_cons (c : Letter) (cs : Text) :
    asciiUppercase (c :: cs) = asciiUpper c ++ asciiUppercase cs := rfl

/-! ### Single letters -/

theorem asciiUpper_ascii {c : Char} (h : c.toNat < 128) : asciiUpper c = [.char c.toUpper] := by
  simp only [asciiUpper]
  split
  iterate 10 exact absurd h (by decide)
  rfl

/-- A character is a case of what core raises it to. -/
theorem isCase_toUpper (c : Char) : IsCase c c.toUpper := by
  by_cases hc : c.isLower = true
  · have hsmall : c.toLower = c := Char.toLower_eq_of_not_isUpper (Char.not_isUpper_of_isLower hc)
    exact .inr (by rw [Char.toLower_toUpper_eq_toLower, hsmall])
  · exact .inl (congrArg Letter.char (Char.toUpper_eq_of_not_isLower hc).symm)

/-- Both cases of a capital are in ASCII. -/
theorem ascii_of_isCase {c : Letter} {l : Char} (hl : l.isUpper = true ∨ l = '_')
    (h : IsCase c l) : c.code < 128 := by
  rcases hl with hl | rfl
  · have hle : l.toNat ≤ 90 := UInt32.le_iff_toNat_le.1 (of_decide_eq_true hl).2
    rcases h with rfl | rfl
    · simp only [Letter.code]
      omega
    · rw [Letter.code, Char.toLower_eq_of_isUpper hl, Char.toNat_ofNat]
      split <;> omega
  · rcases h with rfl | rfl <;> decide

/-- Both cases of a capital are raised to it. -/
theorem asciiUpper_of_isCase {c : Letter} {l : Char} (hl : l.isUpper = true ∨ l = '_')
    (h : IsCase c l) : asciiUpper c = [.char l] := by
  have hraised : l.toUpper = l := by
    rcases hl with hl | rfl
    · exact Char.toUpper_eq_of_not_isLower (Char.not_isLower_of_isUpper hl)
    · rfl
  have hascii := ascii_of_isCase hl h
  rcases h with rfl | rfl
  · rw [asciiUpper_ascii hascii, hraised]
  · rw [asciiUpper_ascii hascii, Char.toUpper_toLower_eq_toUpper, hraised]

/-! ### Names -/

theorem asciiUppercase_eq_iff {name : List Char} (h : Plain name) (cs : Text) :
    asciiUppercase cs = ofChars name ↔ Spells cs name := by
  constructor
  · intro hname
    induction cs generalizing name with
    | nil =>
      obtain rfl := List.map_eq_nil_iff.1 hname.symm
      exact .nil
    | cons c cs ih =>
      rw [asciiUppercase_cons] at hname
      obtain ⟨front, rest, rfl, hfront, hrest⟩ := List.append_eq_map_iff.1 hname
      cases c with
      | half n =>
        obtain ⟨l, ls, -, hl, -⟩ := List.map_eq_cons_iff.1 hfront
        cases hl
      | char c =>
        simp only [asciiUpper] at hfront
        split at hfront
        · obtain rfl : front = ['S', 'S'] := ofChars_inj.1 hfront
          exact absurd (List.prefix_append ['S', 'S'] _).isInfix h.noDoubleS
        · obtain rfl : front = ['I'] := ofChars_inj.1 hfront
          exact .dotless (ih h.tail hrest.symm)
        · obtain rfl : front = ['S'] := ofChars_inj.1 hfront
          exact .long (ih h.tail hrest.symm)
        iterate 5
          · obtain ⟨ls, rfl⟩ : ∃ ls, front = 'F' :: ls := ⟨_, ofChars_inj.1 hfront⟩
            exact absurd List.mem_cons_self h.noF
        · obtain rfl : front = ['S', 'T'] := ofChars_inj.1 hfront
          exact .ligature (.inl rfl) (ih h.tail.tail hrest.symm)
        · obtain rfl : front = ['S', 'T'] := ofChars_inj.1 hfront
          exact .ligature (.inr rfl) (ih h.tail.tail hrest.symm)
        · obtain rfl : front = [c.toUpper] := ofChars_inj.1 hfront
          exact .letter (isCase_toUpper c) (ih h.tail hrest.symm)
  · intro hspells
    induction hspells with
    | nil => rfl
    | @letter c l cs ls case _ ih =>
      rw [asciiUppercase_cons, asciiUpper_of_isCase (h.capitals l List.mem_cons_self) case,
        ih h.tail]
      rfl
    | dotless _ ih => exact congrArg (Letter.char 'I' :: ·) (ih h.tail)
    | long _ ih => exact congrArg (Letter.char 'S' :: ·) (ih h.tail)
    | ligature either _ ih =>
      rcases either with rfl | rfl
      · exact congrArg (Letter.char 'S' :: Letter.char 'T' :: ·) (ih h.tail.tail)
      · exact congrArg (Letter.char 'S' :: Letter.char 'T' :: ·) (ih h.tail.tail)

/-- Without foreign characters a name is spelled with one letter for each of its letters. -/
theorem spells_iff_forall₂ {cs : Text} {name : List Char} (h : ∀ c ∈ cs, ¬IsForeign c) :
    Spells cs name ↔ List.Forall₂ IsCase cs name := by
  constructor
  · intro hspells
    induction hspells with
    | nil => exact .nil
    | letter case _ ih => exact .cons case (ih fun c hc => h c (List.mem_cons_of_mem _ hc))
    | dotless => exact absurd (.inl rfl) (h _ List.mem_cons_self)
    | long => exact absurd (.inr (.inl rfl)) (h _ List.mem_cons_self)
    | ligature either => exact absurd (.inr (.inr either)) (h _ List.mem_cons_self)
  · intro hcases
    induction hcases with
    | nil => exact .nil
    | cons case _ ih => exact .letter case (ih fun c hc => h c (List.mem_cons_of_mem _ hc))

/-- Nothing beyond ASCII is part of a spelling but the four foreign characters. -/
theorem Spells.ascii_or_foreign {cs : Text} {name : List Char} (h : Spells cs name)
    (hname : Plain name) : ∀ c ∈ cs, c.code < 128 ∨ IsForeign c := by
  induction h with
  | nil => exact List.forall_mem_nil _
  | @letter c l cs ls case _ ih =>
    refine List.forall_mem_cons.2 ⟨.inl ?_, ih hname.tail⟩
    exact ascii_of_isCase (hname.capitals l List.mem_cons_self) case
  | dotless _ ih => exact List.forall_mem_cons.2 ⟨.inr (.inl rfl), ih hname.tail⟩
  | long _ ih => exact List.forall_mem_cons.2 ⟨.inr (.inr (.inl rfl)), ih hname.tail⟩
  | ligature either _ ih =>
    exact List.forall_mem_cons.2 ⟨.inr (.inr (.inr either)), ih hname.tail.tail⟩

end Text

open Text

namespace TransactionMode

theorem plain_name (m : TransactionMode) : Plain m.name.toList := by
  cases m <;> exact ⟨List.forall_iff_forall_mem.1 (by decide), by decide, by decide⟩

/-- Where all but the mode is as the settings take it. -/
structure FineApart (es : Entries) : Prop where
  named : ∀ e ∈ es, ∃ t, e.1.Names t
  taken : ∀ t ≠ Setting.mode, ∀ v, Settings.Last t es v → ∃ p, t.Takes v p

/-- All that takes a mode takes the text for `m`. -/
structure Taken (s : Text) (m : TransactionMode) : Prop where
  parsed : (Value.text s).mode? = .ok (some m)
  applied : ∀ b : Builder, b.apply (.mode (.text s)) =
    (.ok (), { b with options := { b.options with mode := some m } })
  given : ∀ {packages locations ps ls} (database installedBy : Value),
    Options.scanList packages = .ok ps → Options.scanList locations = .ok ls →
      Options.ofValues packages locations (.text s) database installedBy =
        .ok ⟨ps, ls, some m, database, installedBy⟩
  bound : ∀ {x es}, Settings.Section x es → Settings.Last .mode es (.text s) → FineApart es →
    ∃ l, Settings.ofValue x = .ok l ∧ l.options.mode = some m

/-- All that takes a mode refuses the text, and nothing is changed. -/
structure Refused (s : Text) : Prop where
  parsed : (Value.text s).mode? = .error (.unknownMode s)
  applied : ∀ b : Builder, b.apply (.mode (.text s)) =
    (.error (.setting (.unknownMode s)), b)
  given : ∀ {packages locations ps ls} (database installedBy : Value),
    Options.scanList packages = .ok ps → Options.scanList locations = .ok ls →
      Options.ofValues packages locations (.text s) database installedBy =
        .error (.setting (.unknownMode s))
  bound : ∀ {x es}, Settings.Section x es → Settings.Last .mode es (.text s) →
    (∀ e ∈ es, e.1.hasLong = false) →
      ∃ e, Settings.ofValue x = .error e ∧ e.fault = .invalidSetting

variable {s : Text} {m : TransactionMode}

theorem parsed_iff :
    (Value.text s).mode? = .ok (some m) ↔ Spells (strip s) m.name.toList := by
  rw [← asciiUppercase_eq_iff m.plain_name, Settings.mode?_eq_ok_iff]
  exact ⟨fun h => by cases h with | named name => exact name, .named⟩

/-- A text is parsed as some mode or refused by name. -/
theorem parsed_or_refused (s : Text) : (∃ m, (Value.text s).mode? = .ok (some m)) ∨
    (Value.text s).mode? = .error (.unknownMode s) := by
  cases h : TransactionMode.ofText? s with
  | some m => exact .inl ⟨m, by rw [Value.mode?, h]⟩
  | none => exact .inr (by rw [Value.mode?, h])

theorem Taken.of_parsed (h : (Value.text s).mode? = .ok (some m)) : Taken s m where
  parsed := h
  applied := fun b => by rw [Builder.apply_eq, Options.replace, h]; rfl
  given := fun database installedBy hp hl => by rw [Options.ofValues, hp, hl, h]; rfl
  bound := fun {x es} hsection hlast hfine => by
    have htakes : Setting.mode.Takes (.text s) (.mode (some m)) :=
      ⟨_, Settings.mode?_eq_ok_iff.1 h, rfl⟩
    have hbinds : ∀ t v, Settings.Last t es v → ∃ p, t.Takes v p := by
      intro t v hv
      by_cases ht : t = .mode
      · subst ht
        obtain rfl := (Settings.lastOf_iff.2 hv).symm.trans (Settings.lastOf_iff.2 hlast)
        exact ⟨_, htakes⟩
      · exact hfine.taken t ht v hv
    obtain ⟨l, hl⟩ := Settings.ofEntries_binds_iff.2 ⟨hfine.named, hbinds⟩
    refine ⟨l, (Settings.ofValue_of_section hsection).trans hl, ?_⟩
    have hmode := (Settings.ofEntries_eq_ok.1 hl).2.mode
    rw [Settings.lastOf_iff.2 hlast, h] at hmode
    exact (Except.ok.inj hmode).symm

/-- No switch is looked at before the mode, so nothing that is refused has to be shown. -/
theorem fault_of_refused (h : (Value.text s).mode? = .error (.unknownMode s)) {es : Entries}
    (hlast : Settings.Last .mode es (.text s)) (hkeys : ∀ e ∈ es, e.1.hasLong = false)
    {e : SettingError} (he : Settings.ofEntries es = .error e) : e.fault = .invalidSetting := by
  cases hk : Settings.stranger? es with
  | some k =>
    obtain ⟨entry, hentry, -, rfl⟩ := (Settings.stranger?_eq_some_iff.1 hk).exists_mem
    simp only [Settings.ofEntries, hk] at he
    cases he
    rw [Settings.showing_fault, hkeys entry hentry]
    rfl
  | none =>
    have hmode : Setting.mode.read (Settings.lastOf .mode .null es) = .error (.unknownMode s) := by
      rw [Settings.lastOf_iff.2 hlast]
      exact map_eq_error.2 h
    have hfirst := (Settings.ofEntries_eq_error_iff hk).1 he
    rw [show Setting.all = [.packages, .locations, .mode] ++
      [.database, .installedBy, .enabled, .checkLocation] from rfl, first_append] at hfirst
    rcases hfirst with hfirst | ⟨hnone, -⟩
    · obtain ⟨t, ht, hread⟩ := hfirst.exists_mem
      rcases Settings.read_fault hread with ⟨hswitch, -, -⟩ | ⟨-, hfault⟩
      · rcases hswitch with rfl | rfl <;> simp at ht
      · exact hfault
    · refine absurd (exists_first_iff.2 ⟨.mode, ?_, _, hmode⟩) (not_exists.2 hnone)
      exact List.mem_cons_of_mem _ (List.mem_cons_of_mem _ List.mem_cons_self)

theorem Refused.of_parsed (h : (Value.text s).mode? = .error (.unknownMode s)) : Refused s where
  parsed := h
  applied := fun b => by rw [Builder.apply_eq, Options.replace, h]; rfl
  given := fun database installedBy hp hl => by rw [Options.ofValues, hp, hl, h]; rfl
  bound := fun {x es} hsection hlast hkeys => by
    rw [Settings.ofValue_of_section hsection]
    cases hx : Settings.ofEntries es with
    | ok l =>
      have hmode := (Settings.ofEntries_eq_ok.1 hx).2.mode
      rw [Settings.lastOf_iff.2 hlast, h] at hmode
      cases hmode
    | error e => exact ⟨e, rfl, fault_of_refused h hlast hkeys hx⟩

/-- **A text is taken for a mode exactly if it spells its name**, wherever a mode is taken, and
every other text is refused there. In ASCII letters only their case is free, and of all other
characters no more than four are part of any spelling. -/
theorem mode_spellings (s : Text) :
    (∀ m, Taken s m ↔ Spells (strip s) m.name.toList) ∧
    (Refused s ↔ ∀ m : TransactionMode, ¬Spells (strip s) m.name.toList) ∧
    ((∀ c ∈ strip s, ¬IsForeign c) →
      (∀ m, Taken s m ↔ List.Forall₂ IsCase (strip s) m.name.toList) ∧
      (Refused s ↔ ∀ m : TransactionMode,
        ¬List.Forall₂ IsCase (strip s) m.name.toList)) ∧
    ((∃ c ∈ strip s, 128 ≤ c.code ∧ ¬IsForeign c) → Refused s) := by
  have htaken (m : TransactionMode) : Taken s m ↔ Spells (strip s) m.name.toList :=
    ⟨fun h => parsed_iff.1 h.parsed, fun h => .of_parsed (parsed_iff.2 h)⟩
  have hrefused : Refused s ↔ ∀ m : TransactionMode, ¬Spells (strip s) m.name.toList := by
    constructor
    · intro h m hm
      cases h.parsed.symm.trans (parsed_iff.2 hm)
    · intro h
      rcases parsed_or_refused s with ⟨m, hm⟩ | hm
      · exact absurd (parsed_iff.1 hm) (h m)
      · exact .of_parsed hm
  refine ⟨htaken, hrefused, fun hnone => ?_, fun ⟨c, hc, hascii, hforeign⟩ => ?_⟩
  · simp only [htaken, hrefused, spells_iff_forall₂ hnone, implies_true, and_self]
  · refine hrefused.2 fun m hm => ?_
    rcases hm.ascii_or_foreign m.plain_name c hc with hlt | hc'
    · exact absurd hascii (not_le.2 hlt)
    · exact hforeign hc'

/-- Blanks and case do not matter, an accent does, and two small letters beyond ASCII and a
ligature do not. -/
theorem mode_spellings_beyond_ascii :
    (∀ c ∈ strip " Per_Migration ", ¬IsForeign c) ∧ Taken " Per_Migration " .perMigration ∧
      (∃ c ∈ strip "per_migratión", 128 ≤ c.code ∧ ¬IsForeign c) ∧
      Refused "per_migratión" ∧ Taken "per_mıgratıon" .perMigration ∧
      Taken "per_ﬆatement" .perStatement := by
  have hascii : ∀ c ∈ strip " Per_Migration ", ¬IsForeign c :=
    List.forall_iff_forall_mem.1 (by decide)
  have haccent : ∃ c ∈ strip "per_migratión", 128 ≤ c.code ∧ ¬IsForeign c :=
    ⟨.char 'ó', by decide, by decide, by decide⟩
  have hcases : List.Forall₂ IsCase (strip " Per_Migration ")
      perMigration.name.toList := by decide
  have hforeign : Spells (strip "per_mıgratıon") perMigration.name.toList :=
    (asciiUppercase_eq_iff (plain_name _) _).1 (by decide)
  have hligature : Spells (strip "per_ﬆatement") perStatement.name.toList :=
    (asciiUppercase_eq_iff (plain_name _) _).1 (by decide)
  exact ⟨hascii, (((mode_spellings _).2.2.1 hascii).1 _).2 hcases, haccent,
    (mode_spellings _).2.2.2 haccent, ((mode_spellings _).1 _).2 hforeign,
    ((mode_spellings _).1 _).2 hligature⟩

end TransactionMode
end MigrationSetup
