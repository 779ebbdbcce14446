import Mathlib.Data.List.Nodup
import Orchestration.Proofs.SmallLetters
import Orchestration.Variables

/-!
# Names of variables

Variables are found in any spelling of their names because every way to set one files it under the small form of
its name. A document is read as it stands, and so it is the one way by which a capital gets into a listing, where
no look-up finds it.

* `Variables.AnySpelling` — what is listed is found in any spelling, and under one value only.
* `Variables.anySpelling_iff_small` — that is so exactly when the listed names are small forms.
* `Variables.Reached` — the variables that can come to be when documents of certain texts are read.
* `Variables.reached_anySpelling_iff` — all of them are found in any spelling exactly when the documents give small
  forms.
-/

namespace Orchestration

open Text

namespace Variables

variable {v : Variables} {documents : String → Prop}

/-! ### Listings -/

theorem mem_toList_iff {name value : String} : (name, value) ∈ v.toList ↔ v.held.get? name = some value :=
  Dictionary.mem_entries_iff

theorem mem_toList_set {name value : String} {e : String × String} (h : e ∈ (v.set name value).toList) :
    e.1 = lower name ∨ e ∈ v.toList := by
  rcases mem_insertEntry h with rfl | h
  · exact .inl rfl
  · exact .inr h

theorem mem_toList_remove {name : String} {e : String × String} (h : e ∈ (v.remove name).toList) :
    e ∈ v.toList :=
  (List.mem_filter.mp h).1

theorem mem_toList_extend {other : Variables} {e : String × String} (h : e ∈ (v.extend other).toList) :
    e ∈ v.toList ∨ e ∈ other.toList := by
  suffices ∀ (entries : List (String × String)) (d : Dictionary String),
      e ∈ (entries.foldl (fun d e => d.insert e.1 e.2) d).entries → e ∈ d.entries ∨ e ∈ entries from
    this other.held.entries v.held h
  intro entries
  induction entries with
  | nil => exact fun d h => .inl h
  | cons first entries ih =>
    intro d h
    rcases ih _ h with h | h
    · rcases mem_insertEntry h with rfl | h
      · exact .inr List.mem_cons_self
      · exact .inl h
    · exact .inr (List.mem_cons_of_mem _ h)

/-! ### Small names -/

/-- Every name that is listed is its own small form. -/
def Small (v : Variables) : Prop := ∀ e ∈ v.toList, lower e.1 = e.1

theorem small_empty : Small ∅ := nofun

theorem Small.set (h : v.Small) (name value : String) : (v.set name value).Small := by
  intro e he
  rcases mem_toList_set he with hname | he
  · rw [hname, lower_lower]
  · exact h e he

theorem Small.remove (h : v.Small) (name : String) : (v.remove name).Small :=
  fun e he => h e (mem_toList_remove he)

theorem Small.extend {other : Variables} (h : v.Small) (hother : other.Small) : (v.extend other).Small :=
  fun e he => (mem_toList_extend he).elim (h e) (hother e)

theorem small_ofList (pairs : List (String × String)) : Small (ofList pairs) := by
  suffices ∀ v : Variables, v.Small → (pairs.foldl (fun v p => v.set p.1 p.2) v).Small from
    this ∅ small_empty
  induction pairs with
  | nil => exact fun _ h => h
  | cons p pairs ih => exact fun v h => ih (v.set p.1 p.2) (h.set p.1 p.2)

/-! ### Look-ups in any spelling -/

/-- Whatever is listed is found under each spelling of its name, and no other name is a spelling of it. -/
structure AnySpelling (v : Variables) : Prop where
  /-- a name is found in every spelling with its value -/
  found : ∀ name value, (name, value) ∈ v.toList → ∀ spelling, lower spelling = lower name →
    v.get? spelling = some value ∧ v.contains spelling = true
  /-- no two names that are listed are spellings of one name -/
  apart : (v.toList.map fun e => lower e.1).Nodup

/-- **Names are found in any spelling** exactly when they are listed by their small forms. -/
theorem anySpelling_iff_small : v.AnySpelling ↔ v.Small := by
  constructor
  · intro h e he
    -- the name is found, and what is found is listed under the small form
    obtain ⟨hget, -⟩ := h.found e.1 e.2 he e.1 rfl
    have hsmall : (lower e.1, e.2) ∈ v.toList := mem_toList_iff.mpr hget
    have hsame := List.inj_on_of_nodup_map h.apart hsmall he (lower_lower e.1)
    exact congrArg Prod.fst hsame
  · intro h
    constructor
    · intro name value hmem spelling hspelling
      have hget : v.get? spelling = some value := by
        rw [get?, hspelling, h _ hmem]
        exact mem_toList_iff.mp hmem
      refine ⟨hget, ?_⟩
      rw [contains, Dictionary.contains, ← get?, hget]
      rfl
    · have hnames : v.toList.map (fun e => lower e.1) = v.toList.map Prod.fst :=
        List.map_congr_left h
      rw [hnames]
      exact v.held.nodup_names

/-! ### What variables come to -/

/-- The variables that can come to be when no other documents than these are read. -/
inductive Reached (documents : String → Prop) : Variables → Prop where
  /-- nothing is set -/
  | empty : Reached documents ∅
  /-- the main input is set -/
  | ofInput (value : String) : Reached documents (ofInput value)
  /-- one is set after another -/
  | ofList (pairs : List (String × String)) : Reached documents (ofList pairs)
  /-- one is set, or set anew -/
  | set {v : Variables} (before : Reached documents v) (name value : String) :
      Reached documents (v.set name value)
  /-- the main input is set anew -/
  | setInput {v : Variables} (before : Reached documents v) (value : String) :
      Reached documents (v.setInput value)
  /-- one is taken away -/
  | remove {v : Variables} (before : Reached documents v) (name : String) :
      Reached documents (v.remove name)
  /-- those of others are put in -/
  | extend {v other : Variables} (before : Reached documents v) (others : Reached documents other) :
      Reached documents (v.extend other)
  /-- a document is read -/
  | read {text : String} {v : Variables} (allowed : documents text) (hread : decoder.read? text = some v) :
      Reached documents v

/-- Every name in the documents is its own small form. -/
def SmallNames (documents : String → Prop) : Prop :=
  ∀ text v, documents text → decoder.read? text = some v → v.Small

/-- **Every way to set a variable files it under a small form**; only documents can bring other names. -/
theorem Reached.small (h : Reached documents v) (hdocuments : SmallNames documents) : v.Small := by
  induction h with
  | empty => exact small_empty
  | ofInput value => exact small_empty.set inputName value
  | ofList pairs => exact small_ofList pairs
  | set _ name value ih => exact ih.set name value
  | setInput _ value ih => exact ih.set inputName value
  | remove _ name ih => exact ih.remove name
  | extend _ _ ih others => exact ih.extend others
  | read allowed hread => exact hdocuments _ _ allowed hread

/-- **All variables that can come to be are found in any spelling** exactly when the documents that are read name
them by small forms. -/
theorem reached_anySpelling_iff (documents : String → Prop) :
    (∀ v, Reached documents v → v.AnySpelling) ↔ SmallNames documents := by
  constructor
  · intro h text v allowed hread
    exact anySpelling_iff_small.mp (h v (.read allowed hread))
  · intro hdocuments v h
    exact anySpelling_iff_small.mpr (h.small hdocuments)

/-- A document that names a city with a capital: the city is listed, and no look-up finds it. -/
theorem capital_not_found :
    let v : Variables := ⟨.ofList [("City", "Paris")]⟩
    decoder.read? "\x7b\"City\":\"Paris\"\x7d" = some v ∧ Reached (fun _ => True) v ∧
      v.toList = [("City", "Paris")] ∧ v.get? "City" = none ∧ v.contains "City" = false ∧
        ¬v.AnySpelling := by
  intro v
  have hread : decoder.read? "\x7b\"City\":\"Paris\"\x7d" = some v := by decide +kernel
  refine ⟨hread, .read trivial hread, rfl, by decide +kernel, by decide +kernel, fun h => ?_⟩
  have hsmall := anySpelling_iff_small.mp h ("City", "Paris") List.mem_cons_self
  exact absurd hsmall (by decide +kernel)

end Variables

end Orchestration
