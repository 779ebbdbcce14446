/-!
# Dictionaries in key order

A finite map from names to values whose entries are always listed in strictly increasing order of
their names (by code point). Two dictionaries with the same look-ups are therefore equal, and what
a reader sees when it lists one does not depend on how it was filled.

* `insertEntry` — one pass over a sorted list, which replaces an entry of the same name.
* `Dictionary.get?_insert_self`, `Dictionary.get?_insert_ne`, `Dictionary.get?_erase_self`,
  `Dictionary.get?_erase_ne` — what each operation does to look-ups.
* `Dictionary.mem_entries_iff` — listing and look-up agree.
* `Dictionary.ext_get?` — a dictionary is determined by its look-ups.
* `Dictionary.ofList_of_perm` — and by its entries, in any order.
-/

namespace Orchestration

universe u v

/-- Puts a value under a name into an ordered list of entries; an entry of that name is
replaced. -/
def insertEntry {α : Type u} (name : String) (value : α) :
    List (String × α) → List (String × α)
  | [] => [(name, value)]
  | (first, held) :: rest =>
    if name < first then (name, value) :: (first, held) :: rest
    else if name = first then (name, value) :: rest
    else (first, held) :: insertEntry name value rest

/-- The value under a name in a list of entries. -/
def lookupEntry {α : Type u} (name : String) : List (String × α) → Option α
  | [] => none
  | (first, held) :: rest => if first = name then some held else lookupEntry name rest

section Entries

variable {α : Type u} {name other : String} {value : α} {entries : List (String × α)}

theorem mem_insertEntry {entry : String × α} (h : entry ∈ insertEntry name value entries) :
    entry = (name, value) ∨ entry ∈ entries := by
  induction entries with
  | nil => simpa [insertEntry] using h
  | cons e rest ih =>
    obtain ⟨first, held⟩ := e
    rw [insertEntry] at h
    split at h
    · simpa using h
    · split at h
      · rcases List.mem_cons.1 h with h | h
        · exact .inl h
        · exact .inr (List.mem_cons_of_mem _ h)
      · rcases List.mem_cons.1 h with h | h
        · exact .inr (h ▸ List.mem_cons_self)
        · exact (ih h).imp id (List.mem_cons_of_mem _)

@[simp] theorem lookupEntry_insertEntry_self :
    lookupEntry name (insertEntry name value entries) = some value := by
  induction entries with
  | nil => simp [insertEntry, lookupEntry]
  | cons e rest ih =>
    obtain ⟨first, held⟩ := e
    rw [insertEntry]
    split
    · simp [lookupEntry]
    · split
      · simp [lookupEntry]
      · next hne => simp [lookupEntry, Ne.symm hne, ih]

theorem lookupEntry_insertEntry_ne (h : other ≠ name) :
    lookupEntry other (insertEntry name value entries) = lookupEntry other entries := by
  induction entries with
  | nil => simp [insertEntry, lookupEntry, h.symm]
  | cons e rest ih =>
    obtain ⟨first, held⟩ := e
    rw [insertEntry]
    split
    · simp [lookupEntry, h.symm]
    · split
      · next heq => subst heq; simp [lookupEntry, h.symm]
      · by_cases hf : first = other <;> simp [lookupEntry, hf, ih]

theorem pairwise_insertEntry (h : entries.Pairwise (fun a b => a.1 < b.1)) :
    (insertEntry name value entries).Pairwise (fun a b => a.1 < b.1) := by
  induction entries with
  | nil => simp [insertEntry]
  | cons e rest ih =>
    obtain ⟨first, held⟩ := e
    have hrest := (List.pairwise_cons.1 h).1
    rw [insertEntry]
    split
    · next hlt =>
      refine List.pairwise_cons.2 ⟨fun b hb => ?_, h⟩
      rcases List.mem_cons.1 hb with rfl | hb
      · exact hlt
      · exact String.lt_trans hlt (hrest _ hb)
    · next hnot =>
      split
      · next heq => subst heq; exact List.pairwise_cons.2 ⟨hrest, h.of_cons⟩
      · next hne =>
        refine List.pairwise_cons.2 ⟨fun b hb => ?_, ih h.of_cons⟩
        rcases mem_insertEntry hb with rfl | hb
        · exact Decidable.not_not.1 fun hn =>
            hne (String.le_antisymm (String.not_lt.1 hn) (String.not_lt.1 hnot))
        · exact hrest _ hb

theorem lookupEntry_eq_some_of_mem (h : entries.Pairwise (fun a b => a.1 < b.1))
    (hm : (name, value) ∈ entries) : lookupEntry name entries = some value := by
  induction entries with
  | nil => cases hm
  | cons e rest ih =>
    obtain ⟨first, held⟩ := e
    rcases List.mem_cons.1 hm with heq | hm
    · obtain ⟨rfl, rfl⟩ := Prod.mk.inj heq
      simp [lookupEntry]
    · have hlt : first < name := List.rel_of_pairwise_cons h hm
      have hne : first ≠ name := fun he => String.lt_irrefl _ (he ▸ hlt)
      simp [lookupEntry, hne, ih h.of_cons hm]

theorem mem_of_lookupEntry_eq_some (h : lookupEntry name entries = some value) :
    (name, value) ∈ entries := by
  induction entries with
  | nil => simp [lookupEntry] at h
  | cons e rest ih =>
    obtain ⟨first, held⟩ := e
    rw [lookupEntry] at h
    split at h
    · next heq => cases heq; cases h; exact List.mem_cons_self
    · exact List.mem_cons_of_mem _ (ih h)

/-- In any order, as long as each name comes once. -/
theorem lookupEntry_eq_some_iff (h : (entries.map Prod.fst).Nodup) :
    lookupEntry name entries = some value ↔ (name, value) ∈ entries := by
  refine ⟨mem_of_lookupEntry_eq_some, fun hm => ?_⟩
  induction entries with
  | nil => cases hm
  | cons e rest ih =>
    obtain ⟨hnot, hrest⟩ := List.nodup_cons.1 h
    rw [lookupEntry]
    rcases List.mem_cons.1 hm with rfl | hm
    · exact if_pos rfl
    · have hne : e.1 ≠ name := fun he => hnot (he ▸ List.mem_map.2 ⟨_, hm, rfl⟩)
      rw [if_neg hne, ih hrest hm]

/-- A name that comes before all others is not there. -/
theorem lookupEntry_eq_none_of_lt (h : ∀ e ∈ entries, name < e.1) : lookupEntry name entries = none := by
  cases hlook : lookupEntry name entries with
  | none => rfl
  | some value => exact absurd (h _ (mem_of_lookupEntry_eq_some hlook)) (String.lt_irrefl _)

/-- The least name is the same in both of two ordered lists with the same look-ups, and so is what it holds. -/
theorem head_eq_of_lookupEntry_eq {a b : String × α} {left right : List (String × α)}
    (hl : (a :: left).Pairwise (fun a b => a.1 < b.1)) (hr : (b :: right).Pairwise (fun a b => a.1 < b.1))
    (h : ∀ name, lookupEntry name (a :: left) = lookupEntry name (b :: right)) : a = b := by
  have ha : (a.1, a.2) ∈ b :: right := mem_of_lookupEntry_eq_some (by rw [← h]; simp [lookupEntry])
  have hb : (b.1, b.2) ∈ a :: left := mem_of_lookupEntry_eq_some (by rw [h]; simp [lookupEntry])
  rcases List.mem_cons.1 ha with heq | ha
  · exact heq
  · rcases List.mem_cons.1 hb with heq | hb
    · exact heq.symm
    · exact absurd (String.lt_trans (List.rel_of_pairwise_cons hr ha) (List.rel_of_pairwise_cons hl hb))
        (String.lt_irrefl _)

/-- Two ordered lists with the same look-ups are the same list. -/
theorem eq_of_lookupEntry_eq {left right : List (String × α)}
    (hl : left.Pairwise (fun a b => a.1 < b.1)) (hr : right.Pairwise (fun a b => a.1 < b.1))
    (h : ∀ name, lookupEntry name left = lookupEntry name right) : left = right := by
  induction left generalizing right with
  | nil =>
    cases right with
    | nil => rfl
    | cons e _ =>
      have hfirst := h e.1
      simp [lookupEntry] at hfirst
  | cons a left ih =>
    cases right with
    | nil =>
      have hfirst := h a.1
      simp [lookupEntry] at hfirst
    | cons b right =>
      obtain rfl := head_eq_of_lookupEntry_eq hl hr h
      congr 1
      refine ih hl.of_cons hr.of_cons fun name => ?_
      by_cases hn : a.1 = name
      · -- neither tail holds the first name again
        subst hn
        rw [lookupEntry_eq_none_of_lt (List.pairwise_cons.1 hl).1,
          lookupEntry_eq_none_of_lt (List.pairwise_cons.1 hr).1]
      · have hrest := h name
        simpa [lookupEntry, hn] using hrest

end Entries

/-- A finite map from names to values, listed in order of the names. -/
structure Dictionary (α : Type u) where
  /-- the names and values, in strictly increasing order of the names -/
  entries : List (String × α) := []
  /-- each name comes before the next -/
  ordered : entries.Pairwise (fun a b => a.1 < b.1) := by exact List.Pairwise.nil

namespace Dictionary

variable {α : Type u} {β : Type v}

instance : EmptyCollection (Dictionary α) := ⟨{}⟩

instance : Inhabited (Dictionary α) := ⟨∅⟩

/-- The value held under a name. -/
def get? (d : Dictionary α) (name : String) : Option α := lookupEntry name d.entries

/-- Whether a value is held under a name. -/
def contains (d : Dictionary α) (name : String) : Bool := (d.get? name).isSome

/-- The dictionary that holds `value` under `name` and agrees with `d` elsewhere. -/
def insert (d : Dictionary α) (name : String) (value : α) : Dictionary α where
  entries := insertEntry name value d.entries
  ordered := pairwise_insertEntry d.ordered

/-- The dictionary that holds nothing under `name` and agrees with `d` elsewhere. -/
def erase (d : Dictionary α) (name : String) : Dictionary α where
  entries := d.entries.filter (fun e => e.1 ≠ name)
  ordered := d.ordered.filter _

/-- The entries put in one after another: of two with one name the later counts. -/
def ofList (entries : List (String × α)) : Dictionary α :=
  entries.foldl (fun d e => d.insert e.1 e.2) ∅

/-- Every entry of `other` put into `d`. -/
def extend (d other : Dictionary α) : Dictionary α :=
  other.entries.foldl (fun d e => d.insert e.1 e.2) d

/-- The names, in order. -/
def names (d : Dictionary α) : List String := d.entries.map Prod.fst

/-- The values, in order of their names. -/
def values (d : Dictionary α) : List α := d.entries.map Prod.snd

/-- How many names are held. -/
def size (d : Dictionary α) : Nat := d.entries.length

/-- Whether nothing is held. -/
def isEmpty (d : Dictionary α) : Bool := d.entries.isEmpty

/-- The same names with changed values. -/
def map (f : String → α → β) (d : Dictionary α) : Dictionary β where
  entries := d.entries.map (fun e => (e.1, f e.1 e.2))
  ordered := d.ordered.map _ (fun _ _ h => h)

instance [BEq α] : BEq (Dictionary α) := ⟨fun a b => a.entries == b.entries⟩

theorem ext_entries {d e : Dictionary α} (h : d.entries = e.entries) : d = e := by
  cases d; cases e; cases h; rfl

instance [DecidableEq α] : DecidableEq (Dictionary α) := fun d e =>
  if h : d.entries = e.entries then isTrue (ext_entries h)
  else isFalse (fun he => h (he ▸ rfl))

@[simp] theorem get?_empty (name : String) : (∅ : Dictionary α).get? name = none := rfl

@[simp] theorem get?_insert_self (d : Dictionary α) (name : String) (value : α) :
    (d.insert name value).get? name = some value :=
  lookupEntry_insertEntry_self

theorem get?_insert_ne (d : Dictionary α) {name other : String} (value : α) (h : other ≠ name) :
    (d.insert name value).get? other = d.get? other :=
  lookupEntry_insertEntry_ne h

theorem get?_insert (d : Dictionary α) (name other : String) (value : α) :
    (d.insert name value).get? other = if other = name then some value else d.get? other := by
  split
  · next h => rw [h, get?_insert_self]
  · next h => exact get?_insert_ne d value h

/-- Listing and look-up agree. -/
theorem mem_entries_iff {d : Dictionary α} {name : String} {value : α} :
    (name, value) ∈ d.entries ↔ d.get? name = some value :=
  ⟨lookupEntry_eq_some_of_mem d.ordered, mem_of_lookupEntry_eq_some⟩

theorem mem_values_iff {d : Dictionary α} {value : α} :
    value ∈ d.values ↔ ∃ name, d.get? name = some value := by
  rw [values, List.mem_map]
  constructor
  · rintro ⟨⟨name, _⟩, hmem, rfl⟩
    exact ⟨name, mem_entries_iff.mp hmem⟩
  · rintro ⟨name, hget⟩
    exact ⟨(name, value), mem_entries_iff.mpr hget, rfl⟩

@[simp] theorem get?_erase_self (d : Dictionary α) (name : String) :
    (d.erase name).get? name = none := by
  cases h : (d.erase name).get? name with
  | none => rfl
  | some v => simpa [erase] using mem_entries_iff.2 h

theorem get?_erase_ne (d : Dictionary α) {name other : String} (h : other ≠ name) :
    (d.erase name).get? other = d.get? other := by
  ext v
  simp only [← mem_entries_iff, erase, List.mem_filter]
  simp [h]

/-- A dictionary is determined by its look-ups. -/
theorem ext_get? {d e : Dictionary α} (h : ∀ name, d.get? name = e.get? name) : d = e :=
  ext_entries (eq_of_lookupEntry_eq d.ordered e.ordered h)

theorem nodup_names (d : Dictionary α) : (d.entries.map Prod.fst).Nodup := by
  refine List.pairwise_map.2 (d.ordered.imp ?_)
  intro a b h he
  exact String.lt_irrefl _ (he ▸ h)

/-- Entries of different names are all found once they are put in. -/
theorem get?_foldl_insert {entries : List (String × α)} (h : (entries.map Prod.fst).Nodup)
    (d : Dictionary α) (name : String) :
    (entries.foldl (fun d e => d.insert e.1 e.2) d).get? name =
      (lookupEntry name entries).or (d.get? name) := by
  induction entries generalizing d with
  | nil => rfl
  | cons e entries ih =>
    obtain ⟨hnot, hrest⟩ := List.nodup_cons.1 h
    rw [List.foldl_cons, ih hrest, lookupEntry]
    split
    · next he =>
      -- the name does not come again, so that it is this entry that stays
      subst he
      have hnone : lookupEntry e.1 entries = none := by
        cases hl : lookupEntry e.1 entries with
        | none => rfl
        | some v => exact absurd (List.mem_map.2 ⟨_, mem_of_lookupEntry_eq_some hl, rfl⟩) hnot
      rw [hnone, get?_insert_self]
      rfl
    · next he => rw [get?_insert_ne d e.2 (Ne.symm he)]

/-- **A dictionary is what its entries make**, in whatever order they are put in. -/
theorem ofList_of_perm {entries : List (String × α)} {d : Dictionary α} (h : entries.Perm d.entries) :
    ofList entries = d := by
  have hnodup : (entries.map Prod.fst).Nodup := (h.map Prod.fst).nodup_iff.2 d.nodup_names
  refine ext_get? fun name => Option.ext fun value => ?_
  rw [ofList, get?_foldl_insert hnodup, get?_empty, Option.or_none, lookupEntry_eq_some_iff hnodup,
    h.mem_iff, mem_entries_iff]

/-- No entry comes from elsewhere. -/
theorem mem_of_mem_ofList {entries : List (String × α)} {e : String × α} (h : e ∈ (ofList entries).entries) :
    e ∈ entries := by
  suffices hfold : ∀ d : Dictionary α, e ∈ (entries.foldl (fun d e => d.insert e.1 e.2) d).entries →
      e ∈ d.entries ∨ e ∈ entries from (hfold ∅ h).resolve_left List.not_mem_nil
  clear h
  induction entries with
  | nil => exact fun d h => .inl h
  | cons first entries ih =>
    intro d h
    rcases ih _ h with hd | hmem
    · rcases mem_insertEntry hd with rfl | hd
      · exact .inr List.mem_cons_self
      · exact .inl hd
    · exact .inr (List.mem_cons_of_mem first hmem)

theorem ofList_entries (d : Dictionary α) : ofList d.entries = d := ofList_of_perm (List.Perm.refl _)

end Dictionary

end Orchestration
