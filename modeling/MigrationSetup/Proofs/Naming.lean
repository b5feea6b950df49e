import MigrationSetup.Settings.Name

/-! Which keys name settings.

The names of settings are made of small letters and underscores. What is no text is spelled
with a digit, a capital or a sign of some kind (`Foreign`), and the few words that are not
name no setting. So only texts name settings (`text_of_ofKey?`), and what is one key with the
spelling of a setting is that spelling (`eq_of_sameKey`). -/
namespace MigrationSetup

/-- A character of the spellings of settings. -/
def isNameChar (c : Char) : Bool := c.isLower || c == '_' || c == '-'

theorem isNameChar_of_isDigit {c : Char} (h : c.isDigit = true) : isNameChar c = false := by
  have hne (d : Char) (hd : d.isDigit = false) : c ≠ d := fun he => by
    rw [he, hd] at h
    cases h
  have hlow : c.isLower = false := by
    have hle : c.val ≤ 57 := of_decide_eq_true (Bool.and_eq_true_iff.1 h).2
    exact Bool.and_eq_false_iff.2 (.inl (decide_eq_false fun hge =>
      absurd (UInt32.le_trans hge hle) (by decide)))
  simp [isNameChar, hlow, hne '_' (by decide), hne '-' (by decide)]

/-- Some character is none of a setting's name. -/
def Foreign (s : String) : Prop := ∃ c ∈ s.toList, isNameChar c = false

namespace Foreign

theorem append_left {s : String} (h : Foreign s) (t : String) : Foreign (s ++ t) := by
  obtain ⟨c, hc, hn⟩ := h
  exact ⟨c, by simp [hc], hn⟩

theorem append_right (s : String) {t : String} (h : Foreign t) : Foreign (s ++ t) := by
  obtain ⟨c, hc, hn⟩ := h
  exact ⟨c, by simp [hc], hn⟩

theorem natural (n : Nat) : Foreign (toString n) := by
  obtain ⟨c, hc⟩ := List.exists_mem_of_ne_nil (Nat.toDigits 10 n) Nat.toDigits_ne_nil
  exact ⟨c, by simpa using hc,
    isNameChar_of_isDigit (Nat.isDigit_of_mem_toDigits (by decide) (by decide) hc)⟩

theorem integer (n : Int) : Foreign (toString n) := by
  cases n with
  | ofNat n => exact natural n
  | negSucc n => exact append_right "-" (natural (n + 1))

theorem padded (width n : Nat) : Foreign (Text.padded width n) := append_right _ (natural n)

end Foreign

/-- A string with a character that is none of a name names no setting. -/
theorem Setting.ofName?_of_foreign {s : String} (h : Foreign s) : ofName? s = none := by
  obtain ⟨c, hc, hn⟩ := h
  rw [ofName?, List.find?_eq_none]
  intro setting _ heq
  have hmem : (if c = '-' then '_' else c) ∈ setting.name.toList := by
    have hletter : (if Letter.char c = .char '-' then Letter.char '_' else .char c) ∈
        Text.ofString setting.name := by
      rw [eq_of_beq heq]
      exact List.mem_map_of_mem (List.mem_map_of_mem hc)
    obtain ⟨d, hd, hsame⟩ := List.mem_map.1 hletter
    have : (if c = '-' then '_' else c) = d := by
      apply Letter.char.inj
      rw [hsame]
      simp only [Letter.char.injEq]
      split <;> rfl
    exact this ▸ hd
  have hall : setting.name.toList.all isNameChar = true := by
    cases setting <;> decide
  have hd := List.all_eq_true.1 hall _ hmem
  by_cases h : c = '-'
  · rw [h] at hn
    exact absurd hn (by decide)
  · simp only [h, if_false] at hd
    rw [hn] at hd
    cases hd

namespace Value

theorem foreign_positional (digits : String) (point : Int) :
    Foreign (Binary64.positional digits point) := by
  have hdot : Foreign "." := ⟨'.', by decide, by decide⟩
  unfold Binary64.positional
  simp only
  split
  · exact .append_left (.append_left ⟨'.', by decide, by decide⟩ _) _
  · split
    · exact .append_right _ ⟨'.', by decide, by decide⟩
    · exact .append_left (.append_right _ hdot) _

theorem foreign_scientific (digits : String) (exponent : Int) :
    Foreign (Binary64.scientific digits exponent) := .append_right _ (.natural _)

/-- Only texts name settings. -/
theorem text_of_ofKey? {k : Value} {s : Setting} (h : Setting.ofKey? k = some s) :
    ∃ t, k = .text t := by
  have hno {w : String} (hf : Foreign w) (hw : k.spelled = w) : False := by
    rw [Setting.ofKey?, hw, Setting.ofName?_of_foreign hf] at h
    cases h
  have hword : Setting.ofName? k.spelled ≠ none := fun hn => by
    rw [Setting.ofKey?, hn] at h
    cases h
  cases k with
  | text t => exact ⟨t, rfl⟩
  | null => exact (hno ⟨'N', by decide, by decide⟩ rfl).elim
  | bool b =>
    cases b
    · exact (hno ⟨'F', by decide, by decide⟩ rfl).elim
    · exact (hno ⟨'T', by decide, by decide⟩ rfl).elim
  | int n => exact (hno (.integer n) rfl).elim
  | float x =>
    cases x with
    | nan => exact (hword rfl).elim
    | infinite negative => cases negative <;> exact (hword rfl).elim
    | finite negative m e =>
      refine (hno (w := Binary64.write Binary64.plain (.finite negative m e)) ?_ rfl).elim
      simp only [Binary64.write]
      split
      · exact .append_right _ ⟨'.', by decide, by decide⟩
      · refine .append_right _ ?_
        split
        · exact foreign_positional _ _
        · exact foreign_scientific _ _
  | nan n =>
    have hnan : Setting.ofName? "nan" = none := by decide
    exact (hword hnan).elim
  | mode m => exact (hno (.append_left ⟨'T', by decide, by decide⟩ _) rfl).elim
  | bytes bs =>
    refine (hno ⟨Text.chooseQuote (bs.contains 39) (bs.contains 34), ?_, ?_⟩ rfl).elim
    · simp [shown, Text.quotedBytes]
    · unfold Text.chooseQuote
      split <;> rfl
  | date d => exact (hno (.append_right _ (.padded 2 d.day)) rfl).elim
  | moment t =>
    refine (hno ⟨' ', ?_, by decide⟩ rfl).elim
    simp [momentSpelled, Moment.text]
  | list xs => exact (hno (.append_left (.append_left ⟨'[', by decide, by decide⟩ _) _) rfl).elim
  | tuple xs => exact (hno (.append_left (.append_left ⟨'(', by decide, by decide⟩ _) _) rfl).elim
  | dict es =>
    exact (hno (.append_left (.append_left ⟨'\x7b', by decide, by decide⟩ _) _) rfl).elim
  | set xs =>
    have hset : Foreign (shown (.set xs)) := by
      rw [shown]
      split
      · exact ⟨'(', by decide, by decide⟩
      · exact .append_left (.append_left ⟨'\x7b', by decide, by decide⟩ _) _
    exact (hno hset rfl).elim
  | loop isList =>
    cases isList
    · exact (hno ⟨'.', by decide, by decide⟩ rfl).elim
    · exact (hno ⟨'.', by decide, by decide⟩ rfl).elim

/-- A key that is one key with the spelling of a setting is spelled like it. -/
theorem eq_of_sameKey {k l : Value} {s : Setting} (h : sameKey k l = true)
    (hl : Setting.ofKey? l = some s) : k = l := by
  obtain ⟨t, rfl⟩ := text_of_ofKey? hl
  obtain ⟨x, hk, ht⟩ := sameKey_iff.1 h
  rw [atoms?] at ht
  cases ht
  cases k with
  | text u =>
    rw [atoms?] at hk
    cases hk
    rfl
  | mode m =>
    -- No mode has the name of a setting.
    rw [atoms?] at hk
    cases hk
    have hnone : Setting.ofName? m.name = none := by cases m <;> decide
    cases hnone.symm.trans hl
  | float x => cases x <;> simp [atoms?, floatAtom?] at hk
  | moment t =>
    simp only [atoms?] at hk
    split at hk <;> cases hk
  | _ => simp [atoms?, intAtom] at hk

/-- A key that names no setting is none that does. -/
theorem sameKey_of_unnamed {k l : Value} {s : Setting} (hl : Setting.ofKey? l = some s)
    (hk : Setting.ofKey? k = none) : sameKey l k = false := by
  rw [← Bool.not_eq_true, sameKey_comm]
  intro hs
  rw [eq_of_sameKey hs hl, hl] at hk
  cases hk

end Value
end MigrationSetup
