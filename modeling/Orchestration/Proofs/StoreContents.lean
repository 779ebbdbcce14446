import Orchestration.Memory.Volatile

/-!
# What a volatile store holds

Records by collection and key, with two properties that every call keeps: a record is held under its own
key, and the vectors of a collection that are not empty have one length.

* `Volatile.held` — the record under a collection and a key, and what the changes of a store do to it.
* `Volatile.Kept` — the two properties.
* `Volatile.dimensions?_eq_some_iff` — so the length that is asked of a new vector is the length of any other.
* `Volatile.Kept.file` — filing a record keeps the properties.
-/

namespace Orchestration

/-! ### Dictionaries -/

theorem lookupEntry_map {α β : Type} (f : String → α → β) (name : String) (entries : List (String × α)) :
    lookupEntry name (entries.map fun e => (e.1, f e.1 e.2)) = (lookupEntry name entries).map (f name) := by
  induction entries with
  | nil => rfl
  | cons e entries ih =>
    obtain ⟨first, held⟩ := e
    rw [List.map_cons, lookupEntry, lookupEntry]
    by_cases h : first = name
    · subst h
      rw [if_pos rfl, if_pos rfl, Option.map_some]
    · rw [if_neg h, if_neg h, ih]

namespace Dictionary

variable {α β : Type}

theorem get?_map (f : String → α → β) (d : Dictionary α) (name : String) :
    (d.map f).get? name = (d.get? name).map (f name) :=
  lookupEntry_map f name d.entries

theorem contains_insert (d : Dictionary α) (name other : String) (value : α) :
    (d.insert name value).contains other = (decide (other = name) || d.contains other) := by
  rw [contains, get?_insert, contains]
  by_cases h : other = name <;> simp [h]

/-- A name that is there already is not new. -/
theorem contains_insert_of_contains {d : Dictionary α} {name : String} (h : d.contains name = true)
    (other : String) (value : α) : (d.insert name value).contains other = d.contains other := by
  rw [contains_insert]
  by_cases hsame : other = name
  · rw [hsame, h, Bool.or_true]
  · rw [decide_eq_false hsame, Bool.false_or]

theorem contains_of_get? {d : Dictionary α} {name : String} {value : α} (h : d.get? name = some value) :
    d.contains name = true := by
  rw [contains, h, Option.isSome_some]

theorem contains_of_get?_eq_none {d : Dictionary α} {name : String} (h : d.get? name = none) :
    d.contains name = false := by
  rw [contains, h, Option.isSome_none]

theorem contains_erase (d : Dictionary α) (name other : String) :
    (d.erase name).contains other = (!decide (other = name) && d.contains other) := by
  rw [contains, contains]
  by_cases h : other = name
  · subst h
    simp
  · simp [get?_erase_ne d h, h]

/-- Dictionaries with the same names list them alike. -/
theorem names_eq_of_contains {d : Dictionary α} {e : Dictionary β}
    (h : ∀ name, d.contains name = e.contains name) : d.names = e.names := by
  have hshape : d.map (fun _ _ => ()) = e.map (fun _ _ => ()) := by
    refine ext_get? fun name => ?_
    have hname := h name
    rw [contains, contains] at hname
    rw [get?_map, get?_map]
    cases hd : d.get? name <;> cases he : e.get? name <;> simp_all
  have hnames := congrArg names hshape
  simpa [names, map, Function.comp_def] using hnames

end Dictionary

/-! ### Searching where all that is found is alike -/

/-- Where whatever is found has the same value, a search finds a value exactly if something has it. -/
theorem map_find?_eq_some_iff {α β : Type} {l : List α} {p : α → Bool} {g : α → β} {value : β}
    (halike : ∀ a ∈ l, ∀ b ∈ l, p a → p b → g a = g b) :
    (l.find? p).map g = some value ↔ ∃ a ∈ l, p a ∧ g a = value := by
  constructor
  · intro h
    obtain ⟨a, hfind, rfl⟩ := Option.map_eq_some_iff.mp h
    exact ⟨a, List.mem_of_find?_eq_some hfind, List.find?_some hfind, rfl⟩
  · rintro ⟨a, ha, hp, rfl⟩
    cases hfind : l.find? p with
    | none => exact absurd hp (List.find?_eq_none.mp hfind a ha)
    | some b =>
      rw [Option.map_some, halike b (List.mem_of_find?_eq_some hfind) a ha (List.find?_some hfind) hp]

namespace Memory

/-! ### Collections -/

/-- Every record of a collection is held under its own key, and all vectors that are not empty have one
length. -/
structure Kept (records : Dictionary Record) : Prop where
  /-- a record is held under its own key -/
  keyed : ∀ key record, records.get? key = some record → record.key = key ∧ record.effectiveKey = key
  /-- vectors that are not empty have one length -/
  uniform : ∀ key other record another, records.get? key = some record → records.get? other = some another →
    record.embedding ≠ [] → another.embedding ≠ [] → record.embedding.length = another.embedding.length

theorem kept_empty : Kept ∅ where
  keyed _ _ h := by cases h
  uniform _ _ _ _ h := by cases h

/-- The record as it is held: under its effective key. -/
def Record.filed (record : Record) : Record := { record with key := record.effectiveKey }

theorem Record.effectiveKey_filed (record : Record) : record.filed.effectiveKey = record.effectiveKey := by
  have hfiled : record.filed.effectiveKey =
      if record.effectiveKey.isEmpty then record.metadata.id else record.effectiveKey := rfl
  rw [hfiled]
  by_cases hkey : record.key.isEmpty
  · -- a record without a key of its own goes by its id, whether that is empty or not
    have hid : record.effectiveKey = record.metadata.id := if_pos hkey
    rw [hid, ite_self]
  · have hown : record.effectiveKey = record.key := if_neg hkey
    rw [hown, if_neg hkey]

namespace Kept

variable {records : Dictionary Record}

theorem erase (h : Kept records) (key : String) : Kept (records.erase key) := by
  have hheld : ∀ other record, (records.erase key).get? other = some record →
      records.get? other = some record := by
    intro other record hget
    by_cases hsame : other = key
    · subst hsame
      rw [Dictionary.get?_erase_self] at hget
      cases hget
    · rwa [Dictionary.get?_erase_ne records hsame] at hget
  exact ⟨fun other record hget => h.keyed other record (hheld _ _ hget),
    fun _ _ _ _ hget hother => h.uniform _ _ _ _ (hheld _ _ hget) (hheld _ _ hother)⟩

end Kept

namespace Volatile

variable {records : Dictionary Record} {key : String} {record : Record}

/-- **The length that is asked of a vector** is that of any vector under another key that is not empty. -/
theorem dimensions?_eq_some_iff (h : Kept records) {length : Nat} :
    dimensions? records key = some length ↔
      ∃ other record, other ≠ key ∧ records.get? other = some record ∧ record.embedding ≠ [] ∧
        record.embedding.length = length := by
  rw [dimensions?, map_find?_eq_some_iff]
  · constructor
    · rintro ⟨⟨other, record⟩, hmem, hp, hlength⟩
      obtain ⟨hother, hvector⟩ := Bool.and_eq_true_iff.mp hp
      exact ⟨other, record, by simpa using hother, Dictionary.mem_entries_iff.mp hmem, by simpa using hvector,
        hlength⟩
    · rintro ⟨other, record, hother, hget, hvector, hlength⟩
      exact ⟨(other, record), Dictionary.mem_entries_iff.mpr hget, by simp [hother, hvector], hlength⟩
  · rintro ⟨one, record⟩ hone ⟨two, another⟩ htwo hp hq
    obtain ⟨-, hvector⟩ := Bool.and_eq_true_iff.mp hp
    obtain ⟨-, hanother⟩ := Bool.and_eq_true_iff.mp hq
    exact h.uniform one two record another (Dictionary.mem_entries_iff.mp hone)
      (Dictionary.mem_entries_iff.mp htwo) (by simpa using hvector) (by simpa using hanother)

/-- The vector is empty, or has the length that is asked of it. -/
def Fits (expected : Option Nat) (record : Record) : Prop :=
  ∀ length, expected = some length → record.embedding.length = 0 ∨ record.embedding.length = length

/-- **Filing a record** puts it under its key if its vector fits; otherwise the lengths are at odds. -/
theorem file_cases (records : Dictionary Record) (record : Record) :
    (Fits (dimensions? records record.effectiveKey) record ∧
      file records record = .ok (records.insert record.effectiveKey record.filed)) ∨
    ∃ expected, dimensions? records record.effectiveKey = some expected ∧
      ¬(record.embedding.length = 0 ∨ record.embedding.length = expected) ∧
      file records record = .error (.dimensionMismatch expected record.embedding.length) := by
  rw [file]
  cases hdimensions : dimensions? records record.effectiveKey with
  | none => exact .inl ⟨nofun, rfl⟩
  | some expected =>
    by_cases hfits : record.embedding.length = 0 ∨ record.embedding.length = expected
    · refine .inl ⟨?_, if_pos hfits⟩
      rintro length hlength
      obtain rfl := Option.some.inj hlength
      exact hfits
    · exact .inr ⟨expected, rfl, hfits, if_neg hfits⟩

/-- A record whose vector fits may be filed. -/
theorem kept_insert (h : Kept records) (hfits : Fits (dimensions? records record.effectiveKey) record) :
    Kept (records.insert record.effectiveKey record.filed) := by
  -- what is held under another key has a vector as long as the new one, if both have one
  have hnew : ∀ other another, other ≠ record.effectiveKey → records.get? other = some another →
      another.embedding ≠ [] → record.embedding ≠ [] →
        record.embedding.length = another.embedding.length := by
    intro other another hother hget hanother hrecord
    have hdimensions := (dimensions?_eq_some_iff h).mpr ⟨other, another, hother, hget, hanother, rfl⟩
    rcases hfits _ hdimensions with hempty | hsame
    · exact absurd (List.length_eq_zero_iff.mp hempty) hrecord
    · exact hsame
  constructor
  · intro other another hget
    rw [Dictionary.get?_insert] at hget
    split at hget
    · next hsame =>
      obtain rfl := Option.some.inj hget
      exact ⟨hsame.symm, record.effectiveKey_filed.trans hsame.symm⟩
    · exact h.keyed other another hget
  · intro one two first second hone htwo hfirst hsecond
    rw [Dictionary.get?_insert] at hone htwo
    split at hone
    · obtain rfl := Option.some.inj hone
      split at htwo
      · obtain rfl := Option.some.inj htwo
        rfl
      · next hother => exact hnew two second hother htwo hsecond hfirst
    · next hother =>
      split at htwo
      · obtain rfl := Option.some.inj htwo
        exact (hnew one first hother hone hfirst hsecond).symm
      · exact h.uniform one two first second hone htwo hfirst hsecond

/-! ### Stores -/

variable {v : Volatile} {collection : String}

/-- The record under a collection and a key. -/
def held (v : Volatile) (collection key : String) : Option Record :=
  (v.collections.get? collection).bind (·.get? key)

/-- Every collection has the two properties. -/
def AllKept (v : Volatile) : Prop := ∀ collection records, v.collections.get? collection = some records →
  Kept records

theorem held_of_collection (h : v.collections.get? collection = some records) :
    v.held collection key = records.get? key := by
  rw [held, h, Option.bind_some]

theorem held_insert (v : Volatile) (collection other key : String) (records : Dictionary Record) :
    held ⟨v.collections.insert collection records⟩ other key =
      if other = collection then records.get? key else v.held other key := by
  rw [held, Dictionary.get?_insert]
  split <;> rfl

theorem held_erase (v : Volatile) (collection other key : String) :
    held ⟨v.collections.erase collection⟩ other key =
      if other = collection then none else v.held other key := by
  rw [held]
  split
  · next hsame => rw [hsame, Dictionary.get?_erase_self, Option.bind_none]
  · next hother => rw [Dictionary.get?_erase_ne _ hother, held]

theorem held_remove (v : Volatile) (collection key other name : String) :
    (v.remove collection key).held other name =
      if other = collection ∧ name = key then none else v.held other name := by
  rw [remove]
  cases hcollection : v.collections.get? collection with
  | none =>
    by_cases hsame : other = collection
    · have hnone : v.held other name = none := by rw [held, hsame, hcollection, Option.bind_none]
      simp [hnone]
    · rw [if_neg fun hat => hsame hat.1]
  | some records =>
    simp only [held_insert]
    by_cases hsame : other = collection
    · subst hsame
      by_cases hkey : name = key
      · rw [if_pos rfl, if_pos ⟨rfl, hkey⟩, hkey, Dictionary.get?_erase_self]
      · rw [if_pos rfl, if_neg fun hat => hkey hat.2, Dictionary.get?_erase_ne _ hkey,
          held_of_collection hcollection]
    · rw [if_neg hsame, if_neg fun hat => hsame hat.1]

theorem contains_remove (v : Volatile) (collection key other : String) :
    (v.remove collection key).collections.contains other = v.collections.contains other := by
  rw [remove]
  cases hcollection : v.collections.get? collection with
  | none => rfl
  | some records =>
    exact Dictionary.contains_insert_of_contains (Dictionary.contains_of_get? hcollection) other _

/-- A record that is filed is held at its place, and the others stay where they are. -/
theorem held_file (hcollection : v.collections.get? collection = some records) (record : Record)
    (other key : String) :
    held ⟨v.collections.insert collection (records.insert record.effectiveKey record.filed)⟩ other key =
      if other = collection ∧ key = record.effectiveKey then some record.filed else v.held other key := by
  rw [held_insert, Dictionary.get?_insert]
  by_cases hsame : other = collection
  · subst hsame
    rw [held_of_collection hcollection]
    by_cases hkey : key = record.effectiveKey
    · rw [if_pos rfl, if_pos hkey, if_pos ⟨rfl, hkey⟩]
    · rw [if_pos rfl, if_neg hkey, if_neg fun hat => hkey hat.2]
  · rw [if_neg hsame, if_neg fun hat => hsame hat.1]

theorem AllKept.insert (h : v.AllKept) (hrecords : Kept records) (collection : String) :
    AllKept ⟨v.collections.insert collection records⟩ := by
  intro other another hget
  rw [Dictionary.get?_insert] at hget
  split at hget
  · obtain rfl := Option.some.inj hget
    exact hrecords
  · exact h other another hget

theorem AllKept.erase (h : v.AllKept) (collection : String) :
    AllKept ⟨v.collections.erase collection⟩ := by
  intro other records hget
  by_cases hsame : other = collection
  · subst hsame
    rw [Dictionary.get?_erase_self] at hget
    cases hget
  · rw [Dictionary.get?_erase_ne _ hsame] at hget
    exact h other records hget

theorem AllKept.remove (h : v.AllKept) (collection key : String) : AllKept (v.remove collection key) := by
  rw [Volatile.remove]
  cases hcollection : v.collections.get? collection with
  | none => exact h
  | some records => exact h.insert ((h _ _ hcollection).erase key) collection

theorem AllKept.keyed (h : v.AllKept) (hheld : v.held collection key = some record) :
    record.key = key ∧ record.effectiveKey = key := by
  obtain ⟨records, hcollection, hget⟩ := Option.bind_eq_some_iff.mp hheld
  exact (h collection records hcollection).keyed key record hget

end Volatile

end Memory

end Orchestration
