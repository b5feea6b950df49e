import MigrationSetup.Proofs.Parts
import MigrationSetup.Proofs.SameTree

/-! The grammar of settings.

A value holds settings if it is a dict, with a section or without (`Settings.Section`), in
which every key names a setting (`Value.Names`) and the last value given for a setting
(`Settings.Last`) is one that it takes (`Setting.Takes`). Exactly such values bind, and what
comes out is part by part what the grammar says. Everything else is refused: as a wrong root if
there is no section, and as an invalid setting otherwise, unless the message would have to show
a number that is too long for it (`Settings.ofValue_grammar`). -/
namespace MigrationSetup

/-! ### The grammar -/

/-- A key is a text that is the name of a setting once its hyphens are underscores. -/
def Value.Names (k : Value) (s : Setting) : Prop :=
  ∃ t, k = .text t ∧ Setting.underscored t = s.name

namespace Settings

/-- The entries that hold the settings of a value. -/
inductive Section : Value → Entries → Prop
  | bare {root : Entries} (absent : Table.get? (.text sectionKey) root = none) :
    Section (.dict root) root
  | empty {root : Entries} (nothing : Table.get? (.text sectionKey) root = some .null) :
    Section (.dict root) []
  | own {root es : Entries} (held : Table.get? (.text sectionKey) root = some (.dict es)) :
    Section (.dict root) es

/-- The value of the last spelling of a setting, or nothing where it has none. -/
inductive Last (s : Setting) (es : Entries) : Value → Prop
  | unset (unnamed : ∀ e ∈ es, ¬e.1.Names s) : Last s es .null
  | given {before after : Entries} {k v : Value} (entry : es = before ++ (k, v) :: after)
    (named : k.Names s) (last : ∀ e ∈ after, ¬e.1.Names s) : Last s es v

/-- Pieces without commas that joined by commas are the text. -/
structure CutAtCommas (cs : Text) (pieces : List Text) : Prop where
  nonempty : pieces ≠ []
  commaless : ∀ p ∈ pieces, Letter.char ',' ∉ p
  joined : List.intercalate [.char ','] pieces = cs

/-- The items of a scan list as they are written: the pieces of a text, or texts in a row. -/
inductive Items : Value → List Text → Prop
  | text {v : Value} {t : Text} {pieces : List Text} (isText : v.text? = some t)
    (cut : CutAtCommas t pieces) : Items v pieces
  | row {v : Value} {xs : List Value} {ts : List Text} (isRow : v.row? = some xs)
    (texts : xs.map Value.text? = ts.map some) : Items v ts

/-- What a scan list is read as. -/
inductive ScanList : Value → Option (List Value) → Prop
  | unset : ScanList .null none
  | items {v : Value} {pieces : List Text} (written : Items v pieces) :
    ScanList v (some (keepItems pieces))

/-- What a mode is read as. -/
inductive Mode : Value → Option TransactionMode → Prop
  | unset : Mode .null none
  | given (m : TransactionMode) : Mode (.mode m) (some m)
  | named {t : Text} {m : TransactionMode}
    (name : Text.asciiUppercase (Text.strip t) = m.name) : Mode (.text t) (some m)

/-- What a switch is read as. -/
inductive Switch : Value → Bool → Prop
  | unset : Switch .null true
  | given (b : Bool) : Switch (.bool b) b
  | named {v : Value} {t : Text} {b : Bool} (isText : v.text? = some t)
    (name : Text.lowercase (Text.strip t) = (if b then "true" else "false")) :
    Switch v b

end Settings

/-- What a setting takes a value for. -/
def Setting.Takes : Setting → Value → Part → Prop
  | .packages, v, p => ∃ o, Settings.ScanList v o ∧ p = .items o
  | .locations, v, p => ∃ o, Settings.ScanList v o ∧ p = .items o
  | .mode, v, p => ∃ o, Settings.Mode v o ∧ p = .mode o
  | .database, v, p => (v = .null ∨ v.isText = true) ∧ p = .text v
  | .installedBy, v, p => (v = .null ∨ v.isText = true) ∧ p = .text v
  | .enabled, v, p => ∃ b, Settings.Switch v b ∧ p = .switch b
  | .checkLocation, v, p => ∃ b, Settings.Switch v b ∧ p = .switch b

namespace Settings

/-- Entries whose refusal would have to show a number that is too long: the first key that
names no setting holds one, or the first setting that does not take its value is a switch and
its value holds one. -/
inductive Unshowable (es : Entries) : Prop
  | key {k : Value} (first : First (fun e k => (∀ s, ¬e.1.Names s) ∧ e.1 = k) es k)
    (long : k.hasLong = true)
  | switch {s : Setting} {v : Value} (named : ∀ e ∈ es, ∃ s, e.1.Names s)
    (first : First (fun s t => (∀ v, Last s es v → ∀ p, ¬s.Takes v p) ∧ s = t) Setting.all s)
    (isSwitch : s = .enabled ∨ s = .checkLocation) (last : Last s es v)
    (long : v.hasLong = true)

end Settings

/-! ### Single settings -/

theorem Setting.ofKey?_eq_some_iff {k : Value} {s : Setting} :
    ofKey? k = some s ↔ k.Names s := by
  constructor
  · intro h
    obtain ⟨t, rfl⟩ := Value.text_of_ofKey? h
    have hname := List.find?_some (p := fun n : Setting => Text.ofString n.name == underscored t) h
    exact ⟨t, rfl, (eq_of_beq hname).symm⟩
  · rintro ⟨t, rfl, ht⟩
    show all.find? (fun n => Text.ofString n.name == underscored t) = some s
    rw [ht]
    cases s <;> decide

namespace Settings
variable {es : Entries} {s : Setting} {v : Value}

theorem commaPieces_cons {c : Letter} {cs p : Text} {ps : List Text} (hc : c ≠ ',')
    (h : commaPieces cs = p :: ps) : commaPieces (c :: cs) = (c :: p) :: ps := by
  rw [commaPieces, h]
  exact hc

theorem intercalate_cons {p : Text} {ps : List Text} (h : ps ≠ []) :
    List.intercalate [.char ','] (p :: ps) =
      p ++ Letter.char ',' :: List.intercalate [.char ','] ps := by
  cases ps with
  | nil => exact absurd rfl h
  | cons q qs => rw [List.intercalate_cons_cons, List.append_assoc]; rfl

/-- Cutting at commas takes out the commas and nothing else. -/
theorem cutAtCommas_commaPieces (cs : Text) : CutAtCommas cs (commaPieces cs) := by
  induction cs with
  | nil => exact ⟨List.cons_ne_nil _ _, List.forall_mem_singleton.2 List.not_mem_nil, rfl⟩
  | cons c cs ih =>
    by_cases hc : c = ','
    · rw [hc]
      refine ⟨List.cons_ne_nil _ _, List.forall_mem_cons.2 ⟨List.not_mem_nil, ih.commaless⟩, ?_⟩
      show List.intercalate [.char ','] ([] :: commaPieces cs) = Letter.char ',' :: cs
      rw [intercalate_cons ih.nonempty, ih.joined]
      rfl
    · cases hps : commaPieces cs with
      | nil => exact absurd hps ih.nonempty
      | cons p ps =>
        rw [hps] at ih
        obtain ⟨hp, hrest⟩ := List.forall_mem_cons.1 ih.commaless
        rw [commaPieces_cons hc hps]
        refine ⟨List.cons_ne_nil _ _, List.forall_mem_cons.2 ⟨?_, hrest⟩, ?_⟩
        · exact List.not_mem_cons_of_ne_of_not_mem (Ne.symm hc) hp
        · have hjoined := ih.joined
          cases ps with
          | nil => rw [← hjoined]; rfl
          | cons q qs =>
            rw [intercalate_cons (List.cons_ne_nil _ _)] at hjoined ⊢
            rw [← hjoined]
            rfl

theorem commaPieces_append {p : Text} (h : Letter.char ',' ∉ p) (cs : Text) :
    commaPieces (p ++ .char ',' :: cs) = p :: commaPieces cs := by
  induction p with
  | nil => rfl
  | cons c p ih =>
    obtain ⟨hc, hp⟩ := List.ne_and_not_mem_of_not_mem_cons h
    exact commaPieces_cons hc.symm (ih hp)

theorem commaPieces_commaless {p : Text} (h : Letter.char ',' ∉ p) : commaPieces p = [p] := by
  induction p with
  | nil => rfl
  | cons c p ih =>
    obtain ⟨hc, hp⟩ := List.ne_and_not_mem_of_not_mem_cons h
    exact commaPieces_cons hc.symm (ih hp)

/-- A text can be cut at its commas in one way only. -/
theorem commaPieces_of_cut {cs : Text} {pieces : List Text}
    (h : CutAtCommas cs pieces) : commaPieces cs = pieces := by
  obtain ⟨hne, hcommaless, rfl⟩ := h
  induction pieces with
  | nil => exact absurd rfl hne
  | cons p ps ih =>
    obtain ⟨hp, hrest⟩ := List.forall_mem_cons.1 hcommaless
    by_cases hps : ps = []
    · rw [hps]
      exact (congrArg commaPieces (List.append_nil p)).trans (commaPieces_commaless hp)
    · rw [intercalate_cons hps, commaPieces_append hp, ih hps hrest]

theorem texts_eq_ok_iff {xs : List Value} {items : List Text} :
    texts xs = .ok items ↔ xs.map Value.text? = items.map some := by
  induction xs generalizing items with
  | nil =>
    constructor
    · intro h
      cases h
      rfl
    · intro h
      obtain rfl := List.map_eq_nil_iff.1 h.symm
      rfl
  | cons x xs ih =>
    cases hx : x.text? with
    | none =>
      simp only [texts, hx, List.map_cons]
      constructor
      · rintro ⟨⟩
      · intro h
        cases items <;> cases h
    | some t =>
      simp only [texts, hx, List.map_cons, bind_eq_ok, ih]
      constructor
      · rintro ⟨ts, hts, h⟩
        cases h
        rw [hts]
        rfl
      · intro h
        cases items with
        | nil => cases h
        | cons u us =>
          obtain ⟨hu, hus⟩ := List.cons.inj h
          cases hu
          exact ⟨us, hus, rfl⟩

/-- A row is read item by item. -/
theorem scanList_row {xs : List Value} (h : v.row? = some xs) {o : Option (List Value)} :
    scanList s v = .ok o ↔ ∃ items, texts xs = .ok items ∧ o = some (keepItems items) := by
  rcases Value.row?_iff.1 h with rfl | rfl
  · cases hx : texts xs <;> simp [scanList, hx, eq_comm]
  · cases hx : texts xs <;> simp [scanList, hx, eq_comm]

/-- A text is read piece by piece. -/
theorem scanList_text {t : Text} (h : v.text? = some t) :
    scanList s v = .ok (some (keepItems (commaPieces t))) := by
  rcases Value.text?_iff.1 h with rfl | ⟨m, rfl, rfl⟩
  · rfl
  · rfl

theorem scanList_eq_ok_iff {o : Option (List Value)} :
    scanList s v = .ok o ↔ ScanList v o := by
  constructor
  · intro h
    cases hv : v.row? with
    | none =>
      cases v with
      | null => cases h; exact .unset
      | text t => cases h; exact .items (.text rfl (cutAtCommas_commaPieces _))
      | mode m => cases h; exact .items (.text rfl (cutAtCommas_commaPieces _))
      | list xs => cases hv
      | tuple xs => cases hv
      | _ => cases h
    | some xs =>
      obtain ⟨items, hitems, rfl⟩ := (scanList_row hv).1 h
      exact .items (.row hv (texts_eq_ok_iff.1 hitems))
  · rintro (_ | ⟨⟨isText, cut⟩ | ⟨isRow, htexts⟩⟩)
    · rfl
    · rw [scanList_text isText, commaPieces_of_cut cut]
    · exact (scanList_row isRow).2 ⟨_, texts_eq_ok_iff.2 htexts, rfl⟩

theorem mode?_eq_ok_iff {o : Option TransactionMode} : v.mode? = .ok o ↔ Mode v o := by
  constructor
  · intro h
    cases v with
    | null => cases h; exact .unset
    | mode m => cases h; exact .given m
    | text t =>
      rw [Value.mode?] at h
      cases ht : TransactionMode.ofText? t with
      | none =>
        rw [ht] at h
        cases h
      | some m =>
        rw [ht] at h
        cases h
        exact .named (TransactionMode.ofText?_eq_some_iff.1 ht)
    | _ => cases h
  · rintro (_ | m | ⟨name⟩)
    · rfl
    · rfl
    · rw [Value.mode?, TransactionMode.ofText?_eq_some_iff.2 name]

theorem switch?_eq_some_iff {t : Text} {b : Bool} : switch? t = some b ↔
    Text.lowercase (Text.strip t) = (if b then "true" else "false") := by
  have hne : Text.ofString "false" ≠ Text.ofString "true" := by decide
  simp only [switch?]
  generalize Text.lowercase (Text.strip t) = name
  by_cases htrue : name = Text.ofString "true"
  · rw [if_pos htrue, htrue]
    cases b with
    | true => exact iff_of_true rfl rfl
    | false => exact iff_of_false nofun hne.symm
  · rw [if_neg htrue]
    by_cases hfalse : name = Text.ofString "false"
    · rw [if_pos hfalse, hfalse]
      cases b with
      | true => exact iff_of_false nofun hne
      | false => exact iff_of_true rfl rfl
    · rw [if_neg hfalse]
      cases b with
      | true => exact iff_of_false nofun htrue
      | false => exact iff_of_false nofun hfalse

theorem switch_text {t : Text} (h : v.text? = some t) :
    switch s true v = (switch? t).elim (.error (.showing v (.notBool s v))) .ok := by
  rcases Value.text?_iff.1 h with rfl | ⟨m, rfl, rfl⟩
  · cases hu : switch? t <;> simp [switch, Value.text?, hu]
  · cases hu : switch? m.name <;> simp [switch, Value.text?, hu]

theorem switch_eq_ok_iff {b : Bool} : switch s true v = .ok b ↔ Switch v b := by
  constructor
  · intro h
    cases hv : v.text? with
    | some t =>
      rw [switch_text hv] at h
      cases ht : switch? t with
      | none =>
        rw [ht] at h
        cases h
      | some c =>
        rw [ht] at h
        cases h
        exact .named hv (switch?_eq_some_iff.1 ht)
    | none =>
      cases v with
      | null => cases h; exact .unset
      | bool => cases h; exact .given b
      | text t => cases hv
      | mode m => cases hv
      | _ => cases h
  · rintro (_ | _ | ⟨isText, name⟩)
    · rfl
    · rfl
    · rw [switch_text isText, switch?_eq_some_iff.2 name]
      rfl

theorem textOrNull_eq_ok_iff {w : Value} :
    textOrNull s v = .ok w ↔ (v = .null ∨ v.isText = true) ∧ w = v := by
  rw [textOrNull_ok, Bool.or_eq_true_iff, Value.isNull_iff]

end Settings

theorem Setting.read_eq_ok_iff {s : Setting} {v : Value} {p : Part} :
    s.read v = .ok p ↔ s.Takes v p := by
  have hmap {α : Type} {x : Except SettingError α} {f : α → Part} {Q : α → Prop}
      (h : ∀ a, x = .ok a ↔ Q a) : x.map f = .ok p ↔ ∃ a, Q a ∧ p = f a := by
    simp only [map_eq_ok, h, @eq_comm _ p]
  have htext (s : Setting) : (Settings.textOrNull s v).map .text = .ok p ↔
      (v = .null ∨ v.isText = true) ∧ p = .text v := by
    rw [hmap fun _ => Settings.textOrNull_eq_ok_iff]
    simp only [and_assoc, exists_and_left, exists_eq_left]
  cases s with
  | packages => exact hmap fun _ => Settings.scanList_eq_ok_iff
  | locations => exact hmap fun _ => Settings.scanList_eq_ok_iff
  | mode => exact hmap fun _ => Settings.mode?_eq_ok_iff
  | database => exact htext .database
  | installedBy => exact htext .installedBy
  | enabled => exact hmap fun _ => Settings.switch_eq_ok_iff
  | checkLocation => exact hmap fun _ => Settings.switch_eq_ok_iff

namespace Settings
variable {es : Entries} {s : Setting} {v : Value}

/-! ### What is given -/

/-- What a setting reads is the value of its last spelling. -/
theorem lastOf_iff : lastOf s .null es = v ↔ Last s es v := by
  have hunnamed {es : Entries} : (∀ e ∈ es, Setting.ofKey? e.1 ≠ some s) ↔
      ∀ e ∈ es, ¬e.1.Names s := by
    simp only [ne_eq, Setting.ofKey?_eq_some_iff]
  rw [lastOf_eq]
  constructor
  · rintro rfl
    cases h : given? s es with
    | none => exact .unset (hunnamed.1 (given?_eq_none_iff.1 h))
    | some w =>
      obtain ⟨before, k, after, entry, named, last⟩ := given?_eq_some_iff.1 h
      exact .given entry (Setting.ofKey?_eq_some_iff.1 named) (hunnamed.1 last)
  · rintro (unnamed | ⟨entry, named, last⟩)
    · rw [given?_eq_none_iff.2 (hunnamed.2 unnamed)]
      rfl
    · rw [given?_eq_some_iff.2
        ⟨_, _, _, entry, Setting.ofKey?_eq_some_iff.2 named, hunnamed.2 last⟩]
      rfl

theorem sectionOf_eq_ok_iff {x : Value} : sectionOf x = .ok es ↔ Section x es := by
  constructor
  · intro h
    unfold sectionOf at h
    split at h
    · split at h
      · next absent => cases h; exact .bare absent
      · next nothing => cases h; exact .empty nothing
      · next held => cases h; exact .own held
      · cases h
    · cases h
  · rintro (absent | nothing | held)
    · simp only [sectionOf, absent]
    · simp only [sectionOf, nothing]
    · simp only [sectionOf, held]

theorem sectionOf_fault {x : Value} {e : SettingError} (h : sectionOf x = .error e) :
    e.fault = .invalidRoot := by
  unfold sectionOf at h
  split at h
  · split at h
    · cases h
    · cases h
    · cases h
    · cases h; rfl
  · cases h; rfl

theorem ofValue_of_section {x : Value} (h : Section x es) : ofValue x = ofEntries es := by
  rw [ofValue, sectionOf_eq_ok_iff.2 h]
  rfl

/-! ### Strange keys -/

theorem named_iff {k : Value} : (Setting.ofKey? k).isSome = true ↔ ∃ s, k.Names s := by
  simp only [Option.isSome_iff_exists, Setting.ofKey?_eq_some_iff]

theorem stranger?_eq_none_iff_named : stranger? es = none ↔ ∀ e ∈ es, ∃ s, e.1.Names s := by
  simp only [stranger?_eq_none_iff, named_iff]

/-- The first strange key is the one that is shown. -/
theorem stranger?_eq_some_iff {k : Value} : stranger? es = some k ↔
    First (fun e k => (∀ s, ¬e.1.Names s) ∧ e.1 = k) es k := by
  induction es with
  | nil => exact iff_of_false nofun not_first_nil
  | cons e es ih =>
    obtain ⟨l, v⟩ := e
    rw [first_cons, ← ih, stranger?]
    cases hl : Setting.ofKey? l with
    | some s =>
      have hs : l.Names s := Setting.ofKey?_eq_some_iff.1 hl
      exact ⟨fun h => .inr ⟨fun _ hk => hk.1 s hs, h⟩,
        fun h => h.elim (fun hk => absurd hs (hk.1 s)) And.right⟩
    | none =>
      have hs (s : Setting) : ¬l.Names s := fun h => by
        rw [Setting.ofKey?_eq_some_iff.2 h] at hl
        cases hl
      constructor
      · intro h
        cases h
        exact .inl ⟨hs, rfl⟩
      · rintro (⟨-, rfl⟩ | ⟨h, -⟩)
        · rfl
        · exact absurd ⟨hs, rfl⟩ (h l)

/-! ### Which failure comes first -/

/-- Entries without strange keys fail with the first setting that does not take its value. -/
theorem ofEntries_eq_error_iff {e : SettingError} (h : stranger? es = none) :
    ofEntries es = .error e ↔
      First (fun s e => Setting.read s (lastOf s .null es) = .error e) Setting.all e := by
  simp only [ofEntries, h]
  refine bind_eq_error_iff_first (fun _ => map_eq_error) fun _ => ?_
  refine bind_eq_error_iff_first (fun _ => map_eq_error) fun _ => ?_
  refine bind_eq_error_iff_first (fun _ => map_eq_error) fun _ => ?_
  refine bind_eq_error_iff_first (fun _ => map_eq_error) fun _ => ?_
  refine bind_eq_error_iff_first (fun _ => map_eq_error) fun _ => ?_
  refine bind_eq_error_iff_first (fun _ => map_eq_error) fun _ => ?_
  refine bind_eq_error_iff_first (fun _ => map_eq_error) fun _ => ?_
  refine iff_of_false ?_ not_first_nil
  rintro ⟨⟩

/-! ### What a failure is for -/

section Fault
variable {e : SettingError}

theorem not_takes_iff :
    (∀ v, Last s es v → ∀ p, ¬s.Takes v p) ↔ ∃ e, s.read (lastOf s .null es) = .error e := by
  simp only [← lastOf_iff, forall_eq', ← Setting.read_eq_ok_iff]
  cases s.read (lastOf s .null es) <;> simp

/-- A strange key is refused as an invalid setting, if it can be shown. -/
theorem fault_of_stranger {k : Value} (hk : stranger? es = some k) (h : ofEntries es = .error e) :
    Unshowable es ∧ e.fault = .longNumber ∨ ¬Unshowable es ∧ e.fault = .invalidSetting := by
  simp only [ofEntries, hk] at h
  cases h
  rw [showing_fault]
  cases hlong : k.hasLong with
  | true => exact .inl ⟨.key (stranger?_eq_some_iff.1 hk) hlong, rfl⟩
  | false =>
    refine .inr ⟨?_, rfl⟩
    rintro (⟨hfirst, hlong'⟩ | ⟨named, -, -, -, -⟩)
    · cases hk.symm.trans (stranger?_eq_some_iff.2 hfirst)
      cases hlong.symm.trans hlong'
    · cases hk.symm.trans (stranger?_eq_none_iff_named.2 named)

/-- A value that a setting does not take is refused as an invalid setting, if it need not be
shown or can be. -/
theorem fault_of_setting (hk : stranger? es = none) (h : ofEntries es = .error e) :
    Unshowable es ∧ e.fault = .longNumber ∨ ¬Unshowable es ∧ e.fault = .invalidSetting := by
  obtain ⟨s, hfirst, hread⟩ := first_iff_culprit.1 ((ofEntries_eq_error_iff hk).1 h)
  simp only [← not_takes_iff] at hfirst
  rcases read_fault hread with ⟨isSwitch, long, hfault⟩ | ⟨hnot, hfault⟩
  · have named := stranger?_eq_none_iff_named.1 hk
    exact .inl ⟨.switch named hfirst isSwitch (lastOf_iff.1 rfl) long, hfault⟩
  · refine .inr ⟨?_, hfault⟩
    rintro (⟨hfirst', -⟩ | ⟨-, hfirst', isSwitch, last, long⟩)
    · cases hk.symm.trans (stranger?_eq_some_iff.2 hfirst')
    · -- the first setting to refuse its value is the same one
      obtain rfl := hfirst.eq (fun _ _ _ h h' => h.2.symm.trans h'.2) hfirst'
      exact hnot ⟨isSwitch, lastOf_iff.2 last ▸ long⟩

/-- What entries are refused for. -/
theorem ofEntries_fault (h : ofEntries es = .error e) :
    Unshowable es ∧ e.fault = .longNumber ∨ ¬Unshowable es ∧ e.fault = .invalidSetting := by
  cases hk : stranger? es with
  | some k => exact fault_of_stranger hk h
  | none => exact fault_of_setting hk h

end Fault

/-! ### Binding -/

theorem ofEntries_grammar {l : Settings} : ofEntries es = .ok l ↔
    (∀ e ∈ es, ∃ s, e.1.Names s) ∧ ∀ s v, Last s es v → s.Takes v (l.part s) := by
  simp only [ofEntries_eq_ok_iff, stranger?_eq_none_iff_named, Setting.read_eq_ok_iff, ← lastOf_iff,
    forall_eq']

theorem ofEntries_binds_iff : (∃ l, ofEntries es = .ok l) ↔
    (∀ e ∈ es, ∃ s, e.1.Names s) ∧ ∀ s v, Last s es v → ∃ p, s.Takes v p := by
  simp only [binds_iff, Setting.accepts_eq, Option.isSome_iff_exists, Setting.seen_eq_some_iff,
    stranger?_eq_none_iff_named, Setting.read_eq_ok_iff, ← lastOf_iff, forall_eq']

/-- **A value binds exactly if it holds settings, and to what the grammar says.** What has no
section is refused as a wrong root, and anything else as an invalid setting unless the message
would show too long a number. -/
theorem ofValue_grammar (x : Value) :
    (∀ l, ofValue x = .ok l ↔ ∃ es, Section x es ∧ (∀ e ∈ es, ∃ s, e.1.Names s) ∧
      ∀ s v, Last s es v → s.Takes v (l.part s)) ∧
    ((∃ l, ofValue x = .ok l) ↔ ∃ es, Section x es ∧ (∀ e ∈ es, ∃ s, e.1.Names s) ∧
      ∀ s v, Last s es v → ∃ p, s.Takes v p) ∧
    ∀ e, ofValue x = .error e →
      (e.fault = .invalidRoot ↔ ∀ es, ¬Section x es) ∧
      (e.fault = .longNumber ↔ ∃ es, Section x es ∧ Unshowable es) ∧
      (e.fault = .invalidRoot ∨ e.fault = .longNumber ∨ e.fault = .invalidSetting) := by
  refine ⟨fun l => ?_, ?_, fun e h => ?_⟩
  · simp only [ofValue, bind_eq_ok, sectionOf_eq_ok_iff, ofEntries_grammar]
  · simp only [ofValue, bind_eq_ok, sectionOf_eq_ok_iff, ← ofEntries_binds_iff]
    constructor
    · rintro ⟨l, es, hes, h⟩
      exact ⟨es, hes, l, h⟩
    · rintro ⟨es, hes, l, h⟩
      exact ⟨l, es, hes, h⟩
  · simp only [← sectionOf_eq_ok_iff]
    rcases bind_eq_error.1 h with hroot | ⟨es, hes, hentries⟩
    · have hfault := sectionOf_fault hroot
      simp [hroot, hfault]
    · simp only [hes, Except.ok.injEq, exists_eq_left']
      rcases ofEntries_fault hentries with ⟨hun, hfault⟩ | ⟨hun, hfault⟩
      · simp [hun, hfault]
      · simp [hun, hfault]

end Settings
end MigrationSetup
