/-! Results of steps that may fail.

A chain of steps gives a result exactly if each step does, the later ones from what the
earlier ones gave. Of several that are tried in turn the first to fail tells how (`First`). -/
namespace MigrationSetup

variable {α β γ ε ε' : Type}

theorem bind_eq_ok {x : Except ε α} {f : α → Except ε β} {b : β} :
    (x >>= f) = .ok b ↔ ∃ a, x = .ok a ∧ f a = .ok b := by
  cases x <;> simp [bind, Except.bind]

theorem map_eq_ok {x : Except ε α} {f : α → β} {b : β} :
    x.map f = .ok b ↔ ∃ a, x = .ok a ∧ f a = b := by
  cases x <;> simp [Except.map]

/-- What a step gives may be changed before the next one or within it. -/
theorem map_bind (f : α → β) (g : β → Except ε γ) (x : Except ε α) :
    (x.map f >>= g) = (x >>= fun a => g (f a)) := by
  cases x <;> rfl

theorem mapError_eq_ok {x : Except ε α} {f : ε → ε'} {a : α} :
    x.mapError f = .ok a ↔ x = .ok a := by
  cases x with
  | error e => exact ⟨(nomatch ·), (nomatch ·)⟩
  | ok b =>
    constructor <;> intro h <;> cases h <;> rfl

/-- A chain fails with its first step, or else with what follows it. -/
theorem bind_eq_error {x : Except ε α} {f : α → Except ε β} {e : ε} :
    (x >>= f) = .error e ↔ x = .error e ∨ ∃ a, x = .ok a ∧ f a = .error e := by
  cases x <;> simp [bind, Except.bind]

theorem map_eq_error {x : Except ε α} {f : α → β} {e : ε} :
    x.map f = .error e ↔ x = .error e := by
  cases x <;> simp [Except.map]

theorem mapError_eq_error {x : Except ε α} {f : ε → ε'} {e : ε'} :
    x.mapError f = .error e ↔ ∃ e', x = .error e' ∧ f e' = e := by
  cases x with
  | error e' =>
    show Except.error (f e') = .error e ↔ _
    simp
  | ok a =>
    show Except.ok a = .error e ↔ _
    simp

/-- A run over a list fails with one of its steps. -/
theorem foldlM_eq_error {f : β → α → Except ε β} {xs : List α} {b : β} {e : ε}
    (h : xs.foldlM f b = .error e) : ∃ b', ∃ x ∈ xs, f b' x = .error e := by
  induction xs generalizing b with
  | nil => cases h
  | cons x xs ih =>
    rw [List.foldlM_cons, bind_eq_error] at h
    rcases h with h | ⟨b', -, h⟩
    · exact ⟨b, x, List.mem_cons_self, h⟩
    · obtain ⟨c, y, hy, h⟩ := ih h
      exact ⟨c, y, List.mem_cons_of_mem _ hy, h⟩

/-- A filter whose test does not fail does not fail. -/
theorem filterM_eq_ok {test : α → Except ε Bool} {passes : α → Bool} {xs : List α}
    (h : ∀ x ∈ xs, test x = .ok (passes x)) : xs.filterM test = .ok (xs.filter passes) := by
  have haux (found : List α) :
      List.filterAuxM test xs found = .ok ((xs.filter passes).reverse ++ found) := by
    induction xs generalizing found with
    | nil => rfl
    | cons x xs ih =>
      have hrest := ih fun y hy => h y (List.mem_cons_of_mem _ hy)
      rw [List.filterAuxM, h x List.mem_cons_self]
      show List.filterAuxM test xs (cond (passes x) (x :: found) found) = _
      rw [hrest]
      cases hx : passes x <;> simp [hx]
  rw [List.filterM, haux, List.append_nil]
  show Except.ok (xs.filter passes).reverse.reverse = _
  rw [List.reverse_reverse]

/-- Steps that give the same but for what an error says do so one after the other. -/
theorem bind_mapError {g : ε → ε'} {x y : Except ε α} {f f' : α → Except ε β}
    (h : x.mapError g = y.mapError g) (hf : ∀ a, (f a).mapError g = (f' a).mapError g) :
    (x >>= f).mapError g = (y >>= f').mapError g := by
  cases x with
  | error e =>
    cases y with
    | error e' =>
      have hg : g e = g e' := Except.error.inj h
      exact congrArg Except.error hg
    | ok b => cases h
  | ok a =>
    cases y with
    | error e => cases h
    | ok b =>
      cases h
      exact hf a

/-! ### The first to fail -/

/-- `e` is how the first of `xs` to fail fails, `P` telling how each does. -/
def First (P : α → ε → Prop) (xs : List α) (e : ε) : Prop :=
  ∃ before x after, xs = before ++ x :: after ∧ P x e ∧ ∀ y ∈ before, ∀ e', ¬P y e'

section First
variable {P Q : α → ε → Prop} {x : α} {xs ys : List α} {e : ε}

theorem not_first_nil : ¬First P [] e := by
  rintro ⟨before, x, after, h, -⟩
  cases before <;> cases h

theorem First.exists_mem (h : First P xs e) : ∃ x ∈ xs, P x e := by
  obtain ⟨before, x, after, rfl, hx, -⟩ := h
  exact ⟨x, List.mem_append_right _ List.mem_cons_self, hx⟩

theorem first_cons : First P (x :: xs) e ↔ P x e ∨ (∀ e', ¬P x e') ∧ First P xs e := by
  constructor
  · rintro ⟨before, y, after, h, hy, hbefore⟩
    cases before with
    | nil =>
      cases h
      exact .inl hy
    | cons z before =>
      cases h
      exact .inr ⟨hbefore _ List.mem_cons_self, before, y, after, rfl, hy,
        fun w hw => hbefore w (List.mem_cons_of_mem _ hw)⟩
  · rintro (h | ⟨hx, before, y, after, rfl, hy, hbefore⟩)
    · exact ⟨[], x, xs, rfl, h, fun _ h => nomatch h⟩
    · exact ⟨x :: before, y, after, rfl, hy, List.forall_mem_cons.2 ⟨hx, hbefore⟩⟩

/-- Where each fails in one way only, the first to fail does. -/
theorem First.eq {e' : ε} (hP : ∀ x e e', P x e → P x e' → e = e') (h : First P xs e)
    (h' : First P xs e') : e = e' := by
  induction xs with
  | nil => exact absurd h not_first_nil
  | cons x xs ih =>
    rcases first_cons.1 h with hx | ⟨hx, hxs⟩
    · rcases first_cons.1 h' with hx' | ⟨hx', -⟩
      · exact hP x e e' hx hx'
      · exact absurd hx (hx' e)
    · rcases first_cons.1 h' with hx' | ⟨-, hxs'⟩
      · exact absurd hx' (hx e')
      · exact ih hxs hxs'

theorem First.congr (h : ∀ x ∈ xs, ∀ e, P x e ↔ Q x e) : First P xs e ↔ First Q xs e := by
  induction xs with
  | nil => exact iff_of_false not_first_nil not_first_nil
  | cons x xs ih =>
    have hx := h x List.mem_cons_self
    rw [first_cons, first_cons, hx, forall_congr' fun e => not_congr (hx e),
      ih fun y hy => h y (List.mem_cons_of_mem _ hy)]

/-- Some of them fails exactly if one is the first to do so. -/
theorem exists_first_iff : (∃ e, First P xs e) ↔ ∃ x ∈ xs, ∃ e, P x e := by
  induction xs with
  | nil => simp [not_first_nil]
  | cons x xs ih =>
    simp only [first_cons, exists_or, List.mem_cons, or_and_right, exists_eq_left, ← ih]
    by_cases hx : ∃ e, P x e
    · simp only [hx, true_or]
    · simp only [hx, false_or]
      exact ⟨fun ⟨e, _, h⟩ => ⟨e, h⟩, fun ⟨e, h⟩ => ⟨e, not_exists.1 hx, h⟩⟩

theorem first_append :
    First P (xs ++ ys) e ↔ First P xs e ∨ (∀ e', ¬First P xs e') ∧ First P ys e := by
  induction xs with
  | nil => simp [not_first_nil]
  | cons x xs ih =>
    have hnone : (∀ e', ¬First P (x :: xs) e') ↔ (∀ e', ¬P x e') ∧ ∀ e', ¬First P xs e' := by
      simp only [← not_exists, exists_first_iff, List.mem_cons, or_and_right, exists_or,
        exists_eq_left, not_or]
    rw [List.cons_append, first_cons, ih, first_cons, hnone, and_or_left, or_assoc, and_assoc]

/-- The first of what several bring is brought by the first of them. -/
theorem first_flatMap {γ : Type} {f : γ → List α} {zs : List γ} :
    First P (zs.flatMap f) e ↔ First (fun z => First P (f z)) zs e := by
  induction zs with
  | nil => exact iff_of_false not_first_nil not_first_nil
  | cons z zs ih => rw [List.flatMap_cons, first_append, first_cons, ih]

theorem first_map {γ : Type} {f : γ → α} {zs : List γ} :
    First P (zs.map f) e ↔ First (fun z => P (f z)) zs e := by
  induction zs with
  | nil => exact iff_of_false not_first_nil not_first_nil
  | cons z zs ih => rw [List.map_cons, first_cons, first_cons, ih]

/-- Failures may be told in other words. -/
theorem first_image {ε' : Type} {f : ε → ε'} {e' : ε'} :
    First (fun x e' => ∃ e, P x e ∧ f e = e') xs e' ↔ ∃ e, First P xs e ∧ f e = e' := by
  constructor
  · rintro ⟨before, x, after, hxs, ⟨e, hx, he⟩, hbefore⟩
    exact ⟨e, ⟨before, x, after, hxs, hx, fun y hy e h => hbefore y hy _ ⟨e, h, rfl⟩⟩, he⟩
  · rintro ⟨e, ⟨before, x, after, hxs, hx, hbefore⟩, he⟩
    exact ⟨before, x, after, hxs, ⟨e, hx, he⟩, fun y hy _ ⟨e, h, _⟩ => hbefore y hy e h⟩

/-- How the first to fail fails is how the first that can fail does. -/
theorem first_iff_culprit : First P xs e ↔
    ∃ x, First (fun x y => (∃ e', P x e') ∧ x = y) xs x ∧ P x e := by
  constructor
  · rintro ⟨before, x, after, hxs, hx, hbefore⟩
    exact ⟨x, ⟨before, x, after, hxs, ⟨⟨e, hx⟩, rfl⟩, fun y hy _ ⟨⟨e', h⟩, _⟩ => hbefore y hy e' h⟩,
      hx⟩
  · rintro ⟨x, ⟨before, y, after, hxs, ⟨-, rfl⟩, hbefore⟩, hx⟩
    exact ⟨before, y, after, hxs, hx, fun z hz e' h => hbefore z hz z ⟨⟨e', h⟩, rfl⟩⟩

/-- A step and what follows it fail as the first of them to do so. -/
theorem bind_eq_error_iff_first {y : Except ε β} {f : β → Except ε γ}
    (hy : ∀ e, P x e ↔ y = .error e) (hf : ∀ b, f b = .error e ↔ First P xs e) :
    (y >>= f) = .error e ↔ First P (x :: xs) e := by
  rw [bind_eq_error, first_cons]
  simp only [hy, hf]
  cases y <;> simp

end First

/-! ### Results that go together -/

/-- The same result, or errors that go together. -/
inductive Agree (E : ε → ε' → Prop) : Except ε α → Except ε' α → Prop
  | same (a : α) : Agree E (.ok a) (.ok a)
  | failed {e : ε} {f : ε'} (h : E e f) : Agree E (.error e) (.error f)

theorem agree_eq_iff {x y : Except ε α} : Agree Eq x y ↔ x = y := by
  constructor
  · intro h
    cases h with
    | same => rfl
    | failed h => rw [h]
  · rintro rfl
    cases x with
    | error e => exact .failed rfl
    | ok a => exact .same a

namespace Agree
variable {E : ε → ε' → Prop} {x : Except ε α} {y : Except ε' α}

theorem bind {f : α → Except ε β} {g : α → Except ε' β} (h : Agree E x y)
    (hf : ∀ a, Agree E (f a) (g a)) : Agree E (x >>= f) (y >>= g) := by
  cases h with
  | same a => exact hf a
  | failed h => exact .failed h

theorem of_map {f : α → β} (hf : Function.Injective f) (h : Agree E (x.map f) (y.map f)) :
    Agree E x y := by
  cases x with
  | error e =>
    cases y with
    | error e' =>
      cases h with
      | failed h => exact .failed h
    | ok b => cases h
  | ok a =>
    cases y with
    | error e => cases h
    | ok b =>
      have hsame {u w : β} (h : Agree E (.ok u) (.ok w)) : u = w := by
        cases h
        rfl
      rw [hf (hsame h)]
      exact .same b

end Agree

end MigrationSetup
