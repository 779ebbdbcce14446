import Mathlib.Data.List.Forall2

/-!
# Lists that are gone through

A function that may fail is carried out on the elements of a list in order, up to the first on which it fails.

* `mapM_cases` — it is carried out on all, or fails as on the first on which it fails.
* `mapM_eq_ok_iff` — what it gives, it gives element by element.
* `map_eq_of_mapM_eq_ok` — what is known of each value is known of all.
-/

namespace Orchestration

section Failing

variable {ε α β γ : Type} {f : α → Except ε β} {as : List α} {bs : List β}

/-- **A function that may fail** is carried out on every element, or fails as on the first on which it does. -/
theorem mapM_cases (f : α → Except ε β) (as : List α) :
    (∃ bs, as.mapM f = .ok bs ∧ List.Forall₂ (fun a b => f a = .ok b) as bs) ∨
      ∃ before a rest e, as = before ++ a :: rest ∧ (∀ b ∈ before, ∃ c, f b = .ok c) ∧ f a = .error e ∧
        as.mapM f = .error e := by
  induction as with
  | nil => exact .inl ⟨[], rfl, .nil⟩
  | cons a as ih =>
    rw [List.mapM_cons]
    cases hfirst : f a with
    | error e => exact .inr ⟨[], a, as, e, rfl, List.forall_mem_nil _, hfirst, rfl⟩
    | ok b =>
      obtain ⟨bs, hbs, hall⟩ | ⟨before, other, rest, e, rfl, hbefore, hother, herror⟩ := ih
      · exact .inl ⟨b :: bs, by rw [hbs]; rfl, .cons hfirst hall⟩
      · exact .inr ⟨a :: before, other, rest, e, rfl, List.forall_mem_cons.mpr ⟨⟨b, hfirst⟩, hbefore⟩, hother,
          by rw [herror]; rfl⟩

theorem mapM_eq_ok_iff : as.mapM f = .ok bs ↔ List.Forall₂ (fun a b => f a = .ok b) as bs := by
  constructor
  · intro h
    rcases mapM_cases f as with ⟨cs, hcs, hall⟩ | ⟨_, _, _, e, -, -, -, herror⟩
    · obtain rfl := Except.ok.inj (hcs.symm.trans h)
      exact hall
    · cases herror.symm.trans h
  · intro h
    induction h with
    | nil => rfl
    | cons hfirst _ ih =>
      rw [List.mapM_cons, hfirst, ih]
      rfl

theorem exists_mapM_eq_ok (h : ∀ a ∈ as, ∃ b, f a = .ok b) : ∃ bs, as.mapM f = .ok bs := by
  rcases mapM_cases f as with ⟨bs, hbs, -⟩ | ⟨before, a, rest, e, rfl, -, ha, -⟩
  · exact ⟨bs, hbs⟩
  · obtain ⟨b, hb⟩ := h a (List.mem_append_right before List.mem_cons_self)
    cases ha.symm.trans hb

/-- What can be said of the value of each element can be said of all values. -/
theorem map_eq_of_mapM_eq_ok (h : as.mapM f = .ok bs) (after : β → γ) (before : α → γ)
    (hf : ∀ a b, f a = .ok b → after b = before a) : bs.map after = as.map before := by
  have hsame : List.Forall₂ (· = ·) (bs.map after) (as.map before) := by
    rw [List.forall₂_map_left_iff, List.forall₂_map_right_iff]
    exact ((mapM_eq_ok_iff.mp h).imp hf).flip
  rwa [List.forall₂_eq_eq_eq] at hsame

theorem mapM_map_eq_ok {g : γ → α} {value : γ → β} {l : List γ} (h : ∀ c ∈ l, f (g c) = .ok (value c)) :
    (l.map g).mapM f = .ok (l.map value) := by
  rw [mapM_eq_ok_iff, List.forall₂_map_left_iff, List.forall₂_map_right_iff]
  exact List.forall₂_same.mpr h

end Failing

/-- A function that need not have a value has one for a list if it has one for every element. -/
theorem mapM_eq_some_of_forall₂ {α β : Type} {f : α → Option β} {as : List α} {bs : List β}
    (h : List.Forall₂ (fun a b => f a = some b) as bs) : as.mapM f = some bs := by
  induction h with
  | nil => rfl
  | cons hfirst _ ih =>
    rw [List.mapM_cons, hfirst, ih]
    rfl

end Orchestration
