import Mathlib
import MigrationSetup.Proofs.Failing
import MigrationSetup.Proofs.Uniting

/-! Files without content.

A file that is empty or holds nothing but line breaks should count as a file that says
nothing. One in YAML does: it holds an empty dict, and in either place it may as well not be
given (`FileSystem.Neutral`), since an empty dict changes nothing, neither below nor above
another (`Document.merge_empty`). One in JSON is no document, and whatever it is loaded with
fails where a value should begin (`FileSystem.Unread`). So it is the suffix that decides
(`Settings.load_blank`). -/
namespace MigrationSetup

/-! ### Line breaks -/

/-- Whether a line of a file ends here, before its line ends are made alike. -/
def Text.Lines.isEnd (c : Char) : Bool := c == '\r' || Yaml.isBreak c

/-- Made alike, line ends are breaks. -/
theorem Text.Lines.isBreak_unify {cs : List Char} (h : ∀ c ∈ cs, isEnd c) :
    ∀ c ∈ unify cs, Yaml.isBreak c := by
  fun_induction unify cs with
  | case1 => exact fun c hc => absurd hc List.not_mem_nil
  | case2 cs ih =>
    simp only [List.forall_mem_cons] at h ⊢
    exact ⟨rfl, ih h.2.2⟩
  | case3 cs _ ih =>
    simp only [List.forall_mem_cons] at h ⊢
    exact ⟨rfl, ih h.2⟩
  | case4 c cs _ hreturn ih =>
    simp only [List.forall_mem_cons] at h ⊢
    refine ⟨?_, ih h.2⟩
    have hc := h.1
    simp only [isEnd, Bool.or_eq_true, beq_iff_eq] at hc
    exact hc.resolve_left hreturn

namespace Yaml

theorem isBreak_iff {c : Char} :
    isBreak c = true ↔ c = '\n' ∨ c = '\u0085' ∨ c = '\u2028' ∨ c = '\u2029' := by
  simp [isBreak, or_assoc]

theorem ne_of_isBreak {c x : Char} (hc : isBreak c = true) (hx : isBreak x = false) : c ≠ x := by
  rintro rfl
  exact Bool.false_ne_true (hx.symm.trans hc)

theorem isAllowed_of_isBreak {c : Char} (h : isBreak c) : isAllowed c = true := by
  rcases isBreak_iff.1 h with rfl | rfl | rfl | rfl <;> decide

/-- A text of breaks does not break off. -/
theorem Source.ofBytes_breaks {bytes : List UInt8} {cs : List Char}
    (text : Text.Utf8.decode bytes = .ok cs) (h : ∀ c ∈ Text.Lines.unify cs, isBreak c) :
    ofBytes bytes = ⟨Text.Lines.unify cs, none⟩ := by
  have hallowed : (Text.Lines.unify cs).findIdx? (fun c => !isAllowed c) = none := by
    rw [List.findIdx?_eq_none_iff]
    intro c hc
    rw [isAllowed_of_isBreak (h c hc)]
    rfl
  rw [ofBytes, text]
  simp only [ofText, hallowed]

/-! ### Tokens of a text of breaks -/

namespace Cursor
variable {c : Cursor}

theorem peekAt_whole (whole : c.fault = none) (n : Nat) :
    c.peekAt n = .ok (c.rest[n]?.getD stop) := by
  rw [peekAt, whole]
  cases c.rest[n]? <;> rfl

theorem skip_whole (whole : c.fault = none) (n : Nat) : c.skip n = .ok (n.repeat step c) := by
  rw [skip, peekAt_whole whole]
  rfl

theorem peek_end (whole : c.fault = none) (ended : c.rest = []) : c.peek = .ok stop := by
  rw [peek, peekAt_whole whole, ended]
  rfl

theorem peek_cons {x : Char} {rest : List Char} (whole : c.fault = none)
    (hrest : c.rest = x :: rest) : c.peek = .ok x := by
  rw [peek, peekAt_whole whole, hrest]
  rfl

/-- Before a break there are neither blanks nor a comment to pass over. -/
theorem dropWhile_breaks (whole : c.fault = none) (breaks : ∀ x ∈ c.rest, isBreak x) :
    c.dropWhile (· == ' ') = .ok c := by
  have htaken : c.rest.takeWhile (· == ' ') = [] := by
    cases hrest : c.rest with
    | nil => rfl
    | cons x rest =>
      have hx : isBreak x := breaks x (hrest ▸ List.mem_cons_self)
      have hspace : (x == ' ') = false := beq_eq_false_iff_ne.2 (ne_of_isBreak hx (by decide))
      rw [List.takeWhile_cons, hspace]
      rfl
  simp only [dropWhile, takeWhile, htaken, skip_whole whole]
  rfl

theorem dropComment_breaks (whole : c.fault = none) (breaks : ∀ x ∈ c.rest, isBreak x) :
    c.dropComment = .ok c := by
  cases hrest : c.rest with
  | nil =>
    rw [dropComment, peek_end whole hrest]
    rfl
  | cons x rest =>
    have hx : isBreak x := breaks x (hrest ▸ List.mem_cons_self)
    have hmark : x ≠ '#' := ne_of_isBreak hx (by decide)
    rw [dropComment, peek_cons whole hrest]
    simp only [bind, Except.bind, hmark, if_false]
    rfl

theorem lineBreak?_end (whole : c.fault = none) (ended : c.rest = []) :
    c.lineBreak? = .ok none := by
  rw [lineBreak?, peek_end whole ended]
  rfl

/-- A break leads to what is left behind it. -/
theorem lineBreak?_break {x : Char} {rest : List Char} (whole : c.fault = none)
    (hrest : c.rest = x :: rest) (hx : isBreak x) :
    ∃ shown d, c.lineBreak? = .ok (some (shown, d)) ∧ d.rest = rest ∧ d.fault = none := by
  have hnext : c.next = .ok c.step := skip_whole whole 1
  have hstep : c.step.rest = rest ∧ c.step.fault = none := by
    rw [step, hrest]
    simp only [hx, if_true]
    exact ⟨trivial, whole⟩
  refine ⟨if x = '\u0085' then '\n' else x, c.step, ?_, hstep⟩
  rw [lineBreak?, peek_cons whole hrest]
  simp only [bind, Except.bind, hx, if_true, hnext]
  rfl

end Cursor

namespace Tokens
open Cursor

/-- Nothing has been found, and nothing but breaks is left. -/
structure Scan.Idle (s : Scan) : Prop where
  whole : s.cursor.fault = none
  breaks : ∀ x ∈ s.cursor.rest, isBreak x
  found : s.found = []
  starts : s.starts = []
  outer : s.outer = []

namespace Scan
variable {s : Scan}

/-- Breaks are passed over up to the end of the text. -/
theorem Idle.dropBlanks {fuel : Nat} (h : s.Idle) (hfuel : s.cursor.rest.length < fuel) :
    ∃ s', s.dropBlanks fuel = .ok s' ∧ s'.Idle ∧ s'.cursor.rest = [] := by
  -- Each round takes one break, so what is left gets shorter with the fuel.
  induction fuel generalizing s with
  | zero => omega
  | succ fuel ih =>
    rw [Scan.dropBlanks, dropWhile_breaks h.whole h.breaks]
    simp only [bind, Except.bind, dropComment_breaks h.whole h.breaks]
    cases hrest : s.cursor.rest with
    | nil =>
      rw [lineBreak?_end h.whole hrest]
      exact ⟨_, rfl, h, hrest⟩
    | cons x rest =>
      have hbreaks := h.breaks
      rw [hrest, List.forall_mem_cons] at hbreaks
      obtain ⟨shown, d, hline, hd, hwhole⟩ := lineBreak?_break h.whole hrest hbreaks.1
      rw [hline]
      refine ih ⟨hwhole, ?_, h.found, h.starts, h.outer⟩ ?_
      · rw [hd]
        exact hbreaks.2
      · rw [hrest, List.length_cons] at hfuel
        show d.rest.length < fuel
        rw [hd]
        omega

/-- Where no key may have begun none is given up. -/
theorem dropPast_none (h : s.starts = []) : s.dropPast = .ok s := by
  simp only [dropPast, h, List.any_nil, List.filter_nil]
  rw [← h]
  rfl

theorem Idle.closeTo (h : s.Idle) (column : Int) : s.closeTo column = s := by
  rw [Scan.closeTo, h.outer]
  simp only [closeTo.close, ite_self]

/-- At the end of the text the end is found, and nothing before it. -/
theorem Idle.token (h : s.Idle) (ended : s.cursor.rest = []) :
    ∃ s', s.token = .ok s' ∧ s'.found = [.streamEnd] ∧ s'.starts = [] := by
  have hdrop : s.dropStart = .ok s := by
    rw [dropStart, h.starts]
    rfl
  have hblocks : s.endBlocks = .ok { s with mayStart := false } := by
    rw [endBlocks, h.closeTo, hdrop]
    rfl
  refine ⟨{ Scan.emit .streamEnd { s with mayStart := false } with starts := [] }, ?_, ?_, rfl⟩
  · rw [Scan.token]
    simp only [bind, Except.bind, peek_end h.whole ended, if_true]
    rw [streamEnd, hblocks]
    rfl
  · exact congrArg (Token.streamEnd :: ·) h.found

theorem Idle.step (h : s.Idle) (hsize : s.cursor.rest.length ≤ s.cursor.size) :
    ∃ s', s.step = .ok s' ∧ s'.found = [.streamEnd] := by
  obtain ⟨s₁, hblanks, h₁, ended⟩ := h.dropBlanks (Nat.lt_succ_of_le hsize)
  obtain ⟨s₂, htoken, hfound, hstarts⟩ := h₁.token ended
  refine ⟨s₂, ?_, hfound⟩
  rw [Scan.step]
  have hfuel : s.dropBlanks s.cursor.fuel = .ok s₁ := hblanks
  simp only [bind, Except.bind, hfuel, dropPast_none h₁.starts, h₁.closeTo, htoken,
    dropPast_none hstarts]

end Scan

/-- A text of breaks has no token but its end. -/
theorem ofSource_breaks {cs : List Char} (breaks : ∀ c ∈ cs, isBreak c) :
    ofSource ⟨cs, none⟩ = [.streamEnd] := by
  have hbeginning : beginning ⟨cs, none⟩ = .ok (Cursor.start ⟨cs, none⟩) := by
    rw [beginning]
    cases cs with
    | nil => rfl
    | cons c cs =>
      have hmark : c ≠ byteOrderMark := ne_of_isBreak (breaks c List.mem_cons_self) (by decide)
      have hpeek : (Cursor.start ⟨c :: cs, none⟩).peek = .ok c := rfl
      simp only [hpeek, bind, Except.bind, hmark, if_false]
      rfl
  have hidle : (Scan.mk (Cursor.start ⟨cs, none⟩) [] 0 0 (-1) [] true []).Idle :=
    ⟨rfl, breaks, rfl, rfl, rfl⟩
  obtain ⟨s, hstep, hfound⟩ := hidle.step (Nat.le_refl _)
  rw [ofSource, hbeginning]
  simp only [Scan.run, hstep, hfound]
  rfl

end Tokens
end Yaml

/-- A text of breaks is a document with nothing in it. -/
theorem Document.ofYaml_breaks {cs : List Char} (breaks : ∀ c ∈ cs, Yaml.isBreak c) :
    ofYaml ⟨cs, none⟩ = .ok (.plain .null) := by
  have hnodes : Yaml.Nodes.ofTokens [.streamEnd] = .ok none := by
    rfl
  rw [ofYaml, Yaml.Tokens.ofSource_breaks breaks, hnodes]
  rfl

/-! ### JSON without a value -/

namespace Json

/-- The line feeds that a text begins with. -/
def feeds (cs : List Char) : Nat := (cs.takeWhile (· == '\n')).length

theorem isBlank_of_isBreak {c : Char} (h : Yaml.isBreak c) : isBlank c = (c == '\n') := by
  rcases Yaml.isBreak_iff.1 h with rfl | rfl | rfl | rfl <;> decide

/-- Of breaks only line feeds are blanks. -/
theorem skip_breaks {cs : List Char} (breaks : ∀ c ∈ cs, Yaml.isBreak c) :
    skip cs = cs.dropWhile (· == '\n') := by
  rw [skip]
  induction cs with
  | nil => rfl
  | cons c cs ih =>
    rw [List.forall_mem_cons] at breaks
    rw [List.dropWhile_cons, List.dropWhile_cons, isBlank_of_isBreak breaks.1, ih breaks.2]

/-- No value begins with a break. -/
theorem value_breaks {cs : List Char} (fuel : Nat) (breaks : ∀ c ∈ cs, Yaml.isBreak c) :
    value fuel cs = fail .value cs := by
  cases fuel with
  | zero => rfl
  | succ fuel =>
    cases cs with
    | nil => rfl
    | cons c cs =>
      rcases Yaml.isBreak_iff.1 (breaks c List.mem_cons_self) with rfl | rfl | rfl | rfl <;> rfl

/-- Behind line feeds alone one line further has begun with each. -/
theorem position_replicate (n : Nat) :
    Text.Lines.position (.replicate n '\n') = (n + 1, 1) := by
  induction n with
  | zero => rfl
  | succ n ih =>
    rw [List.replicate_succ', Text.Lines.position, List.foldl_append]
    rw [Text.Lines.position] at ih
    rw [ih]
    rfl

/-- In a text of breaks a value is missed behind the line feeds at its front. -/
theorem read_breaks {cs : List Char} (breaks : ∀ c ∈ cs, Yaml.isBreak c) :
    read cs = .error (.json ⟨.value, feeds cs + 1, 1, feeds cs⟩) := by
  have hrest : ∀ c ∈ cs.dropWhile (· == '\n'), Yaml.isBreak c := fun c hc =>
    breaks c ((List.dropWhile_sublist _).mem hc)
  have hmark : cs.head? ≠ some '\ufeff' := by
    intro h
    exact Yaml.ne_of_isBreak (breaks _ (List.mem_of_head? h)) (by decide) rfl
  have hdocument : document cs = fail .value (cs.dropWhile (· == '\n')) := by
    rw [document, if_neg hmark, skip_breaks breaks, value_breaks _ hrest]
    rfl
  have hlength : cs.length - (cs.dropWhile (· == '\n')).length = feeds cs := by
    have h := congrArg List.length (List.takeWhile_append_dropWhile (p := (· == '\n')) (l := cs))
    rw [List.length_append] at h
    rw [feeds]
    omega
  have hbefore : cs.take (feeds cs) = .replicate (feeds cs) '\n' := by
    rw [feeds, ← List.prefix_iff_eq_take.1 (List.takeWhile_prefix _), List.eq_replicate_iff]
    exact ⟨rfl, fun c hc => beq_iff_eq.1 (List.mem_takeWhile_imp (p := (· == '\n')) hc)⟩
  rw [read, hdocument, fail]
  simp only [hlength, hbefore, position_replicate, List.length_replicate]

end Json

/-! ### Suffixes -/

namespace Text

/-- A letter with its ASCII capitals made small. -/
def small : Letter → Letter
  | .char c => .char c.toLower
  | .half n => .half n

/-- A letter that is ASCII once it is made small is an ASCII letter. -/
theorem lower_of_ascii {c : Letter} (h : (small c).code < 0x80) : lower c = [small c] := by
  cases c with
  | half n => rfl
  | char c =>
    have hc : c.toNat < 0x80 := by
      by_cases hupper : c.isUpper
      · have hle : c.toNat ≤ 90 := UInt32.le_iff_toNat_le.1 (of_decide_eq_true hupper).2
        omega
      · rwa [small, Char.toLower_eq_of_not_isUpper hupper] at h
    rw [lower, if_pos hc]
    rfl

/-- A text that is ASCII once its letters are made small one by one is lowered so. -/
theorem lowercase_eq_map {cs : Text} (h : ∀ c ∈ cs.map small, c.code < 0x80) :
    lowercase cs = cs.map small := by
  suffices hfrom : ∀ isInWord, lowerFrom isInWord cs = cs.map small from hfrom false
  induction cs with
  | nil => exact fun _ => rfl
  | cons c cs ih =>
    intro isInWord
    simp only [List.map_cons, List.forall_mem_cons] at h
    have hsigma : c ≠ .char 'Σ' := by
      rintro rfl
      exact absurd h.1 (by decide)
    show _ ++ lowerFrom _ cs = _
    rw [ih h.2, if_neg hsigma, lower_of_ascii h.1]
    rfl

end Text

namespace Format

/-- The suffixes of a format, in small letters. -/
def suffixes : Format → List Text
  | .yaml => [".yaml", ".yml"]
  | .json => [".json"]

/-- A suffix tells its format in any letter case. -/
theorem ofSuffix?_of_small {format : Format} {suffix : Text}
    (h : suffix.map Text.small ∈ format.suffixes) : ofSuffix? suffix = some format := by
  have hascii : ∀ name ∈ format.suffixes, ∀ c ∈ name, c.code < 0x80 := by
    cases format <;> decide
  have hlower : Text.lowercase suffix = suffix.map Text.small :=
    Text.lowercase_eq_map (hascii _ h)
  simp only [ofSuffix?, hlower]
  cases format with
  | yaml =>
    simp only [suffixes, List.mem_cons, List.not_mem_nil, or_false] at h
    rw [if_pos h]
  | json =>
    have hname := List.mem_singleton.1 h
    simp only [hname]
    decide

end Format

/-! ### An empty dict as a layer -/

/-- Nothing laid over a document leaves its settings as they are. -/
theorem Document.merge_empty {d : Document} {i : Nat}
    (hi : d.graph.root.dict? d.graph.objects = some i) :
    ∃ m, d.merge .empty = .ok m ∧ Settings.ofDocument m = Settings.ofDocument d := by
  cases d with
  | plain v =>
    cases v with
    | dict es => exact ⟨.plain (.dict es), rfl, rfl⟩
    | _ => cases hi
  | shared g =>
    obtain ⟨objects, root, isShared⟩ := g
    obtain rfl : root = .object i := (Ref.dict?_eq_some_iff.1 hi).1
    have hroot : (Ref.object i).dict? objects = some i := hi
    -- The override has no entries, so the merge ends with the objects that were there.
    have hnone : ((Graph.ofValue (.dict [])).apart objects.size).objects.entries
        (Graph.rootOf []) = [] := by
      rw [Graph.entries_apart, Graph.entries_ofValue]
      rfl
    have hmerge : (Graph.mk objects (.object i) isShared).merge (Graph.ofValue (.dict [])) =
        .ok ⟨objects, .object i, true⟩ := by
      rw [Graph.merge_eq hroot (Graph.root_ofValue []), hnone]
      rfl
    refine ⟨.shared ⟨objects, .object i, true⟩, ?_, rfl⟩
    show ((Graph.mk objects (.object i) isShared).merge (Graph.ofValue (.dict []))).map shared = _
    rw [hmerge]
    rfl

/-! ### Files -/

namespace FileSystem
variable {fs : FileSystem} {b : Path}

/-- What is owed of a file that says nothing: wherever it is loaded it may as well not be given,
and as a local file it may as well not be there. -/
structure Neutral (fs : FileSystem) (b : Path) : Prop where
  file : fs.settingsFile b = .ok .empty
  below : ∀ local?, Settings.load fs (some b) local? = Settings.load fs none local?
  above : ∀ defaults, Settings.load fs defaults (some b) = Settings.load fs defaults none
  missing : ∀ defaults q, fs.exists? q = .ok false →
    Settings.load fs defaults (some b) = Settings.load fs defaults (some q)

/-- What a file does that cannot be read: it fails, and so does loading, for the failure of the
file unless the defaults fail before it. -/
structure Unread (fs : FileSystem) (b : Path) (e : Failure) : Prop where
  file : fs.settingsFile b = .error e
  below : ∀ local?, Settings.load fs (some b) local? = .error e
  above : ∀ defaults, Settings.load fs defaults (some b) =
    (fs.defaultsFile defaults >>= fun _ => .error e)

/-- What there is of defaults has a dict at its root. -/
theorem exists_root_defaultsFile {defaults : Option Path} {d : Document}
    (h : fs.defaultsFile defaults = .ok d) :
    ∃ i, d.graph.root.dict? d.graph.objects = some i := by
  cases defaults with
  | none =>
    cases h
    exact ⟨_, Graph.root_ofValue []⟩
  | some p => exact Document.exists_root h

/-- An empty dict says nothing, in either place. -/
theorem neutral_of_empty (h : fs.settingsFile b = .ok .empty) : fs.Neutral b := by
  have there : fs.exists? b = .ok true := Settings.exists_of_settingsFile h
  have hbelow (local? : Option Path) : fs.settingsFiles (some b) local? =
      fs.settingsFiles none local? := by
    simp only [settingsFiles, Option.map_some, Option.map_none, Option.getD_some, Option.getD_none,
      h]
  have habove (defaults : Option Path) :
      Settings.load fs defaults (some b) = Settings.load fs defaults none := by
    rw [Settings.load, Settings.load, settingsFiles_some, settingsFiles_none]
    cases hbase : fs.defaultsFile defaults with
    | error e => rfl
    | ok base =>
      obtain ⟨i, hi⟩ := exists_root_defaultsFile hbase
      obtain ⟨m, hm, hsame⟩ := Document.merge_empty hi
      simp only [bind, Except.bind, there, h, hm, if_true, hsame]
  refine ⟨h, fun local? => ?_, habove, fun defaults q absent => ?_⟩
  · rw [Settings.load, Settings.load, hbelow]
  · rw [habove, Settings.load, Settings.load, settingsFiles_some, settingsFiles_none]
    cases fs.defaultsFile defaults with
    | error e => rfl
    | ok base => simp only [bind, Except.bind, absent, if_false, Bool.false_eq_true]

/-- A failure to read a file is one of loading. -/
theorem unread_of_error {e : Failure} (there : fs.exists? b = .ok true)
    (h : fs.settingsFile b = .error e) : fs.Unread b e := by
  refine ⟨h, fun local? => ?_, fun defaults => ?_⟩
  · simp only [Settings.load, settingsFiles, Option.map_some, Option.getD_some, h]
    rfl
  · rw [Settings.load, settingsFiles_some]
    cases fs.defaultsFile defaults with
    | error e' => rfl
    | ok base => simp only [bind, Except.bind, there, if_true, h]

end FileSystem

namespace Settings

/-- **Files without content.** One in YAML says nothing: wherever it is loaded it may as well not be
given. One in JSON is no document, and loading fails where a value should begin, behind the line
feeds at the front. -/
theorem load_blank {fs : FileSystem} {b : Path} {bytes : List UInt8} {cs : List Char}
    (there : fs.Holds b (.file bytes)) (text : Text.Utf8.decode bytes = .ok cs)
    (blank : ∀ c ∈ cs, Text.Lines.isEnd c) :
    (b.suffix.map Text.small ∈ Format.yaml.suffixes → fs.Neutral b) ∧
    (b.suffix.map Text.small ∈ Format.json.suffixes → fs.Unread b (.json
      ⟨.value, Json.feeds (Text.Lines.unify cs) + 1, 1, Json.feeds (Text.Lines.unify cs)⟩)) := by
  have hbreaks := Text.Lines.isBreak_unify blank
  have hfile {format : Format} (h : b.suffix.map Text.small ∈ format.suffixes) :
      fs.settingsFile b = format.read bytes >>= fun d => d.requireDict.mapError .setting := by
    rw [FileSystem.settingsFile_of_exists (FileSystem.exists?_eq_true_iff.2 ⟨_, there⟩),
      Format.ofSuffix?_of_small h, FileSystem.read_file there]
    rfl
  constructor
  · intro hsuffix
    refine FileSystem.neutral_of_empty ?_
    rw [hfile hsuffix, Format.read, Yaml.Source.ofBytes_breaks text hbreaks,
      Document.ofYaml_breaks hbreaks]
    rfl
  · intro hsuffix
    refine FileSystem.unread_of_error (FileSystem.exists?_eq_true_iff.2 ⟨_, there⟩) ?_
    rw [hfile hsuffix, Format.read, text]
    show (Document.ofJson (Text.Lines.unify cs) >>= _) = _
    rw [Document.ofJson, Json.read_breaks hbreaks]
    rfl

/-- Line ends of three kinds, under a suffix in capitals and in JSON. -/
theorem load_blank_lines :
    let lines := ['\n', '\r', '\u2028']
    let bytes := Text.Utf8.encode lines
    let yaml : Path := ⟨.here, ["local.YML"]⟩
    let json := FileSystem.localPath
    let fs : FileSystem :=
      ⟨.directory [("local.YML", .file bytes), ("local.json", .file bytes)], []⟩
    fs.Holds yaml (.file bytes) ∧ fs.Holds json (.file bytes) ∧
      Text.Utf8.decode bytes = .ok lines ∧ (∀ c ∈ lines, Text.Lines.isEnd c) ∧
      yaml.suffix.map Text.small ∈ Format.yaml.suffixes ∧
      json.suffix.map Text.small ∈ Format.json.suffixes ∧
      fs.Neutral yaml ∧ fs.Unread json (.json ⟨.value, 3, 1, 2⟩) := by
  intro lines bytes yaml json fs
  have hyaml : fs.Holds yaml (.file bytes) :=
    FileSystem.holds_iff.2 ⟨by decide, FileSystem.lookup_current (by decide) (by decide) rfl⟩
  have hjson : fs.Holds json (.file bytes) :=
    FileSystem.holds_iff.2 ⟨by decide, FileSystem.lookup_current (by decide) (by decide) rfl⟩
  have text : Text.Utf8.decode bytes = .ok lines := rfl
  have blank : ∀ c ∈ lines, Text.Lines.isEnd c := by
    simp only [lines, List.forall_mem_cons]
    exact ⟨rfl, rfl, rfl, nofun⟩
  have hupper : yaml.suffix.map Text.small ∈ Format.yaml.suffixes := by
    decide +kernel
  have hlower : json.suffix.map Text.small ∈ Format.json.suffixes := by
    decide +kernel
  exact ⟨hyaml, hjson, text, blank, hupper, hlower, (load_blank hyaml text blank).1 hupper,
    (load_blank hjson text blank).2 hlower⟩

end Settings
end MigrationSetup
