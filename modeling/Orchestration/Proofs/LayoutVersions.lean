import Orchestration.Database.Tables
import Orchestration.Proofs.StoreContents
import Orchestration.Proofs.WrittenDigits

/-!
# Versions of the layout

A database notes the version of its layout as a text. It is brought to the present version by steps, each from one version
to the next; a step is noted together with what it changes.

* `Number.readNatural?_eq_some_iff` — which texts are read as natural numbers.
* `Database.Step` — one step; `Database.Steps` — steps in a row, from a version to another.
* `Database.steps_migrateFrom` — the steps are carried out until the version is present or no step leads on.
* `Database.BroughtUp` — what comes of the text that is noted.
* `Database.setVersionText_migrate` — every database that was set up comes to this, whatever text is noted in it.
* `Database.migrate_leavesOutdated` — no step leads on from zero, and nothing is said of it.
-/

namespace Orchestration

/-! ### Natural numbers in writing -/

namespace Number

variable {limit n : Nat} {text : String} {ds : List Char}

/-- Digits, one or more of them, that stand for a number. -/
def StandsFor (ds : List Char) (n : Nat) : Prop := AreDigits ds ∧ ds ≠ [] ∧ digitsValue ds = n

/-- A text is a natural number in writing: digits, with zeros in front or without, after a plus sign or without. -/
def Writes (text : String) (n : Nat) : Prop :=
  ∃ ds, StandsFor ds n ∧ (text.toList = ds ∨ text.toList = '+' :: ds)

/-- The number that digits stand for, if they are digits and it is not too large. -/
def boundedValue? (limit : Nat) (ds : List Char) : Option Nat :=
  if ds.isEmpty || !ds.all Char.isDigit then none
  else if digitsValue ds ≤ limit then some (digitsValue ds) else none

theorem boundedValue?_eq_some_iff : boundedValue? limit ds = some n ↔ StandsFor ds n ∧ n ≤ limit := by
  have hwell : (ds.isEmpty || !ds.all Char.isDigit) = false ↔ AreDigits ds ∧ ds ≠ [] := by
    simp [AreDigits, and_comm]
  rw [boundedValue?]
  split
  · next hill =>
    refine iff_of_false nofun ?_
    rintro ⟨⟨hdigits, hne, -⟩, -⟩
    rw [hwell.mpr ⟨hdigits, hne⟩] at hill
    cases hill
  · next hnot =>
    obtain ⟨hdigits, hne⟩ := hwell.mp (Bool.eq_false_iff.mpr hnot)
    simp only [Option.ite_none_right_eq_some, Option.some.injEq]
    constructor
    · rintro ⟨hle, rfl⟩
      exact ⟨⟨hdigits, hne, rfl⟩, hle⟩
    · rintro ⟨⟨-, -, rfl⟩, hle⟩
      exact ⟨hle, rfl⟩

/-- Behind a plus sign stand the digits; the sign itself is none. -/
theorem writes_iff_of_plus (h : text.toList = '+' :: ds) : Writes text n ↔ StandsFor ds n := by
  constructor
  · rintro ⟨other, hother, hplain | hplus⟩
    · obtain ⟨hdigits, -⟩ := hother
      rw [← hplain, h] at hdigits
      exact absurd (hdigits '+' List.mem_cons_self) (by decide)
    · obtain rfl := (List.cons.inj (h.symm.trans hplus)).2
      exact hother
  · intro hds
    exact ⟨ds, hds, .inr h⟩

theorem writes_iff_of_ne_plus (h : ∀ ds, text.toList ≠ '+' :: ds) : Writes text n ↔ StandsFor text.toList n := by
  constructor
  · rintro ⟨ds, hds, hplain | hplus⟩
    · rwa [hplain]
    · exact absurd hplus (h ds)
  · intro htext
    exact ⟨_, htext, .inl rfl⟩

theorem readNatural?_of_plus (h : text.toList = '+' :: ds) : readNatural? limit text = boundedValue? limit ds := by
  rw [readNatural?, h]
  rfl

theorem readNatural?_of_ne_plus (h : ∀ ds, text.toList ≠ '+' :: ds) :
    readNatural? limit text = boundedValue? limit text.toList := by
  rw [readNatural?]
  split
  · next ds hplus => exact absurd hplus (h ds)
  · rfl

/-- **The texts that are read as natural numbers** are those that write a number, and one that is not too large. -/
theorem readNatural?_eq_some_iff : readNatural? limit text = some n ↔ Writes text n ∧ n ≤ limit := by
  by_cases hplus : ∃ ds, text.toList = '+' :: ds
  · obtain ⟨ds, hds⟩ := hplus
    rw [readNatural?_of_plus hds, boundedValue?_eq_some_iff, writes_iff_of_plus hds]
  · have hnone (ds) : text.toList ≠ '+' :: ds := fun hds => hplus ⟨ds, hds⟩
    rw [readNatural?_of_ne_plus hnone, boundedValue?_eq_some_iff, writes_iff_of_ne_plus hnone]

/-- The digits of a number write it. -/
theorem writes_digitChars (n : Nat) : Writes (.ofList (digitChars n)) n :=
  ⟨digitChars n, ⟨areDigits_digitChars n, Nat.toDigits_ne_nil, digitsValue_digitChars n⟩, .inl String.toList_ofList⟩

end Number

namespace Database

open Number

/-! ### The noted version -/

section Version

variable {t : Tables} {text : String} {n : Nat}

theorem parseVersion_of_writes (h : Writes text n) (hle : n ≤ largest32) : parseVersion text = n := by
  rw [parseVersion, readNatural?_eq_some_iff.mpr ⟨h, hle⟩]
  rfl

/-- A text stands for a version above zero just if it writes a number of 32 bits above zero. -/
theorem parseVersion_pos_iff : 0 < parseVersion text ↔ ∃ n, Writes text n ∧ 0 < n ∧ n ≤ largest32 := by
  constructor
  · intro hpos
    rw [parseVersion] at hpos
    cases hread : readNatural? largest32 text with
    | none =>
      rw [hread] at hpos
      cases hpos
    | some n =>
      rw [hread] at hpos
      obtain ⟨hwrites, hle⟩ := readNatural?_eq_some_iff.mp hread
      exact ⟨n, hwrites, hpos, hle⟩
  · rintro ⟨n, hwrites, hpos, hle⟩
    rwa [parseVersion_of_writes hwrites hle]

theorem version_of_get? (h : t.settings.get? versionKey = some text) : version ⟨some t⟩ = .ok (parseVersion text) := by
  simp only [version, require, bind, Except.bind, h]
  rfl

theorem contains_versionKey_noteFirstVersion (t : Tables) :
    (Tables.noteFirstVersion t).settings.contains versionKey = true := by
  rw [Tables.noteFirstVersion]
  split
  · assumption
  · exact Dictionary.contains_of_get? (Dictionary.get?_insert_self ..)

/-- A text is noted in place of the version, in any database that was set up. -/
theorem setVersionText_setUp (d : Database) (text : String) :
    ∃ t, d.setUp.setVersionText text = .ok (1, ⟨some t⟩) ∧ t.settings.get? versionKey = some text := by
  let noted := Tables.noteFirstVersion (d.tables.getD {})
  have hnoted : noted.settings.contains versionKey = true := contains_versionKey_noteFirstVersion _
  refine ⟨{ noted with settings := noted.settings.insert versionKey text }, ?_, Dictionary.get?_insert_self ..⟩
  exact if_pos hnoted

end Version

/-! ### Steps -/

/-- **A step** to a version: what it changes, and the note of the version with it. -/
inductive Step : Nat → Tables → Tables → Prop where
  /-- in the second version the records are found by the length of their vectors -/
  | indexed (t : Tables) : Step 2 t { t with
      indexedByDimensions := true
      settings := t.settings.insert versionKey "2" }

/-- **Steps in a row**, from a version to another: to each of those above the first, one after the other. -/
inductive Steps : Nat → Tables → Nat → Tables → Prop where
  /-- no step -/
  | none (start : Nat) (t : Tables) : Steps start t start t
  /-- the step to the next version, and the others -/
  | more {start last : Nat} {t t₁ t₂ : Tables} (first : Step (start + 1) t t₁)
      (others : Steps (start + 1) t₁ last t₂) : Steps start t last t₂

/-- What the steps and the note of a version do not change, or take back. -/
structure Keeps (t t' : Tables) : Prop where
  collections : t'.collections = t.collections
  records : t'.records = t.records
  settings : ∀ name, name ≠ versionKey → t'.settings.get? name = t.settings.get? name
  indexed : t.indexedByDimensions = true → t'.indexedByDimensions = true

variable {t t' t₁ t₂ : Tables} {start next last : Nat}

theorem Keeps.refl (t : Tables) : Keeps t t := ⟨rfl, rfl, fun _ _ => rfl, id⟩

theorem Keeps.trans (h₁ : Keeps t t₁) (h₂ : Keeps t₁ t₂) : Keeps t t₂ where
  collections := h₂.collections.trans h₁.collections
  records := h₂.records.trans h₁.records
  settings name hname := (h₂.settings name hname).trans (h₁.settings name hname)
  indexed := h₂.indexed ∘ h₁.indexed

theorem keeps_noteFirstVersion (t : Tables) : Keeps t (Tables.noteFirstVersion t) := by
  rw [Tables.noteFirstVersion]
  split
  · exact .refl t
  · exact ⟨rfl, rfl, fun _ hname => Dictionary.get?_insert_ne _ _ hname, id⟩

theorem step?_eq_some_iff : Tables.step? t next = some t' ↔ Step next t t' := by
  rw [Tables.step?]
  constructor
  · intro h
    split at h
    · next htwo =>
      obtain rfl := htwo
      obtain rfl := Option.some.inj h
      exact .indexed t
    · cases h
  · rintro ⟨⟩
    rfl

/-- Whether a step leads to a version depends on the version alone. -/
theorem not_step_of_step?_eq_none (h : Tables.step? t next = none) (t₁ t₂ : Tables) : ¬Step next t₁ t₂ := by
  rintro ⟨⟩
  cases h.symm.trans (step?_eq_some_iff.mpr (.indexed t))

theorem Step.version (h : Step next t t') : version ⟨some t'⟩ = .ok next := by
  cases h with
  | indexed =>
    rw [version_of_get? (Dictionary.get?_insert_self ..)]
    exact congrArg _ (parseVersion_of_writes (writes_digitChars 2) (by decide))

theorem Step.keeps (h : Step next t t') : Keeps t t' := by
  cases h with
  | indexed => exact ⟨rfl, rfl, fun _ hname => Dictionary.get?_insert_ne _ _ hname, fun _ => rfl⟩

theorem Step.le_currentVersion (h : Step next t t') : next ≤ currentVersion := by
  cases h with
  | indexed => exact Nat.le_refl _

theorem Steps.le (h : Steps start t last t') : start ≤ last := by
  induction h with
  | none => exact Nat.le_refl _
  | more first others ih => exact (Nat.le_succ _).trans ih

/-- After any steps the version they lead to is noted. -/
theorem Steps.version (h : Steps start t last t') (hnoted : Database.version ⟨some t⟩ = .ok start) :
    Database.version ⟨some t'⟩ = .ok last := by
  induction h with
  | none => exact hnoted
  | more first others ih => exact ih first.version

theorem Steps.keeps (h : Steps start t last t') : Keeps t t' := by
  induction h with
  | none => exact .refl _
  | more first others ih => exact first.keeps.trans ih

/-- No step leads to the first version. -/
theorem Steps.eq_of_zero (h : Steps 0 t last t') : last = 0 ∧ t' = t := by
  cases h with
  | none => exact ⟨rfl, rfl⟩
  | more first others => nomatch first

/-! ### Carrying out the steps -/

/-- There is nothing to do at a version: it is the present one or a later one, or no step leads on. -/
def IsLast (n : Nat) : Prop := currentVersion ≤ n ∨ ∀ t t', ¬Step (n + 1) t t'

/-- **The steps are carried out** until there is nothing to do. -/
theorem steps_migrateFrom (start : Nat) (t : Tables) :
    ∃ last, Steps start t last (Tables.migrateFrom start t) ∧ IsLast last := by
  fun_induction Tables.migrateFrom start t with
  | case1 start t hold next hstep ih =>
    obtain ⟨last, hsteps, hlast⟩ := ih
    exact ⟨last, .more (step?_eq_some_iff.mp hstep) hsteps, hlast⟩
  | case2 start t hold hstep => exact ⟨start, .none start t, .inr (not_step_of_step?_eq_none hstep)⟩
  | case3 start t hnew => exact ⟨start, .none start t, .inl (Nat.not_lt.mp hnew)⟩

theorem keeps_migrateFrom (start : Nat) (t : Tables) : Keeps t (Tables.migrateFrom start t) := by
  obtain ⟨last, hsteps, -⟩ := steps_migrateFrom start t
  exact hsteps.keeps

/-- Steps that were carried out are gone on from. -/
theorem Steps.migrateFrom_eq (h : Steps start t last t') :
    Tables.migrateFrom start t = Tables.migrateFrom last t' := by
  induction h with
  | none => rfl
  | more first others ih =>
    rw [Tables.migrateFrom, if_pos (Nat.lt_of_succ_le first.le_currentVersion), step?_eq_some_iff.mpr first]
    exact ih

/-- The steps come to the present version just if they start above zero. -/
theorem Steps.isCurrent_iff (h : Steps start t last t') (hlast : IsLast last) :
    currentVersion ≤ last ↔ 0 < start := by
  constructor
  · intro hcurrent
    refine Nat.pos_of_ne_zero ?_
    rintro rfl
    rw [h.eq_of_zero.1] at hcurrent
    cases hcurrent
  · intro hpos
    by_contra hold
    have hone : last = 1 := by
      have hle := h.le
      rw [currentVersion] at hold
      omega
    obtain rfl := hone
    exact hlast.resolve_left hold t _ (.indexed t)

/-! ### What comes of a noted text -/

/-- **What comes of a text** that is noted as the version when the database is brought to the present version. -/
structure BroughtUp (text : String) (before : Tables) (last : Nat) (after : Tables) : Prop where
  /-- every version above that of the text is stepped to, up to the last -/
  steps : Steps (parseVersion text) before last after
  /-- nothing else changes -/
  keeps : Keeps before after
  /-- the version is not lowered -/
  le : parseVersion text ≤ last
  /-- wherever the steps are broken off, the version they came to is noted, and the next time they are gone on from;
  after the last of them nothing changes -/
  resumed : ∀ middle t, Steps (parseVersion text) before middle t →
    version ⟨some t⟩ = .ok middle ∧ migrate ⟨some t⟩ = (.ok (), ⟨some after⟩)
  /-- the present version is reached from a text that writes a number of 32 bits above zero, and from no other -/
  isCurrent_iff : currentVersion ≤ last ↔ ∃ n, Writes text n ∧ 0 < n ∧ n ≤ largest32
  /-- and what is not brought to the present version is not changed at all -/
  unchanged : last < currentVersion → after = before

theorem broughtUp_migrateFrom (text : String) (hnoted : version ⟨some t⟩ = .ok (parseVersion text)) :
    ∃ last, BroughtUp text t last (Tables.migrateFrom (parseVersion text) t) := by
  obtain ⟨last, hsteps, hlast⟩ := steps_migrateFrom (parseVersion text) t
  have hcurrent := hsteps.isCurrent_iff hlast
  refine ⟨last, hsteps, hsteps.keeps, hsteps.le, ?_, hcurrent.trans parseVersion_pos_iff, ?_⟩
  · intro middle t' hmiddle
    have hversion := hmiddle.version hnoted
    refine ⟨hversion, ?_⟩
    rw [migrate, hversion, hmiddle.migrateFrom_eq]
  · intro hold
    have hzero : parseVersion text = 0 := Nat.eq_zero_of_not_pos fun hpos => Nat.not_le.mpr hold (hcurrent.mpr hpos)
    rw [hzero] at hsteps ⊢
    exact hsteps.eq_of_zero.2

/-- **Whatever text is noted** as the version of a database that was set up, the database is brought to the present version
by the steps above the noted version, if that text writes a version above zero. Otherwise nothing is changed, and what is
said is the same. -/
theorem setVersionText_migrate (d : Database) (text : String) :
    ∃ before last after, d.setUp.setVersionText text = .ok (1, ⟨some before⟩) ∧
      version ⟨some before⟩ = .ok (parseVersion text) ∧ migrate ⟨some before⟩ = (.ok (), ⟨some after⟩) ∧
      version ⟨some after⟩ = .ok last ∧ migrate ⟨some after⟩ = (.ok (), ⟨some after⟩) ∧
      BroughtUp text before last after := by
  obtain ⟨before, hset, htext⟩ := setVersionText_setUp d text
  have hnoted := version_of_get? htext
  obtain ⟨last, hup⟩ := broughtUp_migrateFrom text hnoted
  obtain ⟨hversion, hagain⟩ := hup.resumed last _ hup.steps
  obtain ⟨-, hmigrate⟩ := hup.resumed _ before (.none _ before)
  exact ⟨before, last, _, hset, hnoted, hmigrate, hversion, hagain, hup⟩

/-- **A version that is not brought up to date is not reported**: no step leads on from zero, and nothing is
said of it. -/
theorem migrate_leavesOutdated :
    ¬∀ (d before after : Database) (text : String), d.setUp.setVersionText text = .ok (1, before) →
      before.migrate = (.ok (), after) → ∃ n, after.version = .ok n ∧ currentVersion ≤ n := by
  intro law
  obtain ⟨before, hset, htext⟩ := setVersionText_setUp {} "0"
  obtain ⟨last, hup⟩ := broughtUp_migrateFrom "0" (version_of_get? htext)
  obtain ⟨-, hmigrate⟩ := hup.resumed _ before (.none _ before)
  obtain ⟨hversion, -⟩ := hup.resumed last _ hup.steps
  obtain ⟨n, hn, hle⟩ := law {} _ _ "0" hset hmigrate
  obtain rfl := Except.ok.inj (hversion.symm.trans hn)
  exact absurd (hup.steps.eq_of_zero.1 ▸ hle) (by decide)

end Database

end Orchestration
