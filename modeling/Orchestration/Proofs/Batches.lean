import Orchestration.Proofs.StoreStates

/-!
# Batches of records

Tables file a batch as a whole or not at all. A volatile store files it record by record: it stops at the first
record that it refuses, and the records before that one stay.

* `Memory.upsertEach` — records filed one after another.
* `Memory.FiledWhole`, `Memory.FiledUntilRefused` — the two ways to file a batch.
* `StoreLocation.batch_filed` — tables go the one way, volatile stores the other.
* `StoreLocation.volatile_not_filedWhole` — and not the first: where a collection is missing a batch without
  records is filed, and a batch may be filed in part.
-/

namespace Orchestration

namespace Memory

/-! ### Ways to file a batch -/

section Responder

variable {σ : Type} (respond : Responder σ) (s : σ) (collection : String) (records : List Record)

/-- What a store holds after records were filed one after another. -/
def upsertEach : σ := records.foldl (fun s record => (respond s (.upsert collection record)).2) s

/-- Whether a collection is missing: the store denies that it is there. -/
def Lacks : Prop := (respond s (.holds collection)).1 = .ok false

/-- **A batch is filed** as a whole or not at all. -/
structure FiledWhole : Prop where
  /-- it is refused for a missing collection exactly where the collection is missing -/
  missing : ∀ name, (respond s (.upsertBatch collection records)).1 = .error (.collectionNotFound name) ↔
    name = collection ∧ Lacks respond s collection
  /-- where it is refused the store stays as it was -/
  refused : ∀ e, (respond s (.upsertBatch collection records)).1 = .error e →
    (respond s (.upsertBatch collection records)).2 = s
  /-- where it is filed, it is as if its records were filed one after another, each under its key -/
  filed : ∀ keys, (respond s (.upsertBatch collection records)).1 = .ok keys →
    keys = records.map (·.effectiveKey) ∧
      (respond s (.upsertBatch collection records)).2 = upsertEach respond s collection records

/-- **A batch is filed** up to the first record that is refused. -/
structure FiledUntilRefused : Prop where
  /-- it is refused for a missing collection where the collection is missing and there is something to file -/
  missing : ∀ name, (respond s (.upsertBatch collection records)).1 = .error (.collectionNotFound name) ↔
    name = collection ∧ Lacks respond s collection ∧ records ≠ []
  /-- where a record is refused, those before it were filed and stay -/
  refused : ∀ e, (respond s (.upsertBatch collection records)).1 = .error e →
    ∃ before refused after, records = before ++ refused :: after ∧
      respond s (.upsertBatch collection before) =
        (.ok (before.map (·.effectiveKey)), upsertEach respond s collection before) ∧
      (respond (upsertEach respond s collection before) (.upsert collection refused)).1 = .error e ∧
      (respond s (.upsertBatch collection records)).2 = upsertEach respond s collection before
  /-- where all are filed, it is as if they were filed one after another, each under its key -/
  filed : ∀ keys, (respond s (.upsertBatch collection records)).1 = .ok keys →
    keys = records.map (·.effectiveKey) ∧
      (respond s (.upsertBatch collection records)).2 = upsertEach respond s collection records

end Responder

/-! ### Volatile stores -/

namespace Volatile

variable {v : Volatile} {collection : String}

theorem contains_upsertEach (v : Volatile) (collection : String) (records : List Record) (other : String) :
    (upsertEach answer v collection records : Volatile).collections.contains other =
      v.collections.contains other := by
  induction records generalizing v with
  | nil => rfl
  | cons record records ih => exact (ih _).trans (contains_upsert v collection record other)

/-- **A batch is filed** record by record: all of them, or those before the first that is refused. -/
theorem upsertAll_cases (v : Volatile) (collection : String) (records : List Record) :
    v.upsertAll collection records =
        (.ok (records.map (·.effectiveKey)), upsertEach answer v collection records) ∨
    ∃ before refused after e, records = before ++ refused :: after ∧
      v.upsertAll collection before =
        (.ok (before.map (·.effectiveKey)), upsertEach answer v collection before) ∧
      ((upsertEach answer v collection before).upsert collection refused).1 = .error e ∧
      v.upsertAll collection records = (.error e, upsertEach answer v collection before) := by
  induction records generalizing v with
  | nil => exact .inl rfl
  | cons record records ih =>
    cases hanswer : (v.upsert collection record).1 with
    | error e =>
      have hstays := upsert_of_error hanswer
      refine .inr ⟨[], record, records, e, rfl, rfl, hanswer, ?_⟩
      rw [upsertAll_cons_of_error hanswer, hstays]
      rfl
    | ok key =>
      obtain rfl := upsert_key hanswer
      rw [upsertAll_cons_of_ok hanswer]
      rcases ih (v.upsert collection record).2 with hall | ⟨before, refused, after, e, rfl, hbefore, hrefused, hall⟩
      · rw [hall]
        exact .inl rfl
      · rw [hall]
        refine .inr ⟨record :: before, refused, after, e, rfl, ?_, hrefused, rfl⟩
        rw [upsertAll_cons_of_ok hanswer, hbefore]
        rfl

end Volatile

/-! ### Tables -/

/-- A batch is refused for the length of a vector. -/
theorem insertRecords_eq_error {t : Tables} {collection : String} {records : List Record} {e : MemoryError}
    (h : insertRecords t collection records = .error e) :
    ∃ expected actual, e = .dimensionMismatch expected actual := by
  induction records generalizing t with
  | nil => cases h
  | cons record records ih =>
    rcases insertRecord_cases t collection record with ⟨expected, hinsert⟩ | hinsert
    · rw [insertRecords_cons_of_error hinsert] at h
      exact ⟨expected, _, (Except.error.inj h).symm⟩
    · rw [insertRecords_cons_of_ok hinsert] at h
      cases hrest : insertRecords (replaceRow t (rowOf collection record)) collection records with
      | error later =>
        rw [hrest] at h
        obtain rfl := Except.error.inj h
        exact ih hrest
      | ok filed =>
        rw [hrest] at h
        cases h

/-- **A batch that is filed** leaves the tables that its records leave one after another. -/
theorem insertRecords_eq_ok {t after : Tables} {collection : String} {records : List Record}
    {keys : List String} (hpresent : t.collections.contains collection = true)
    (h : insertRecords t collection records = .ok (keys, after)) :
    keys = records.map (·.effectiveKey) ∧
      records.foldl (fun d record => (answerFromDatabase d (.upsert collection record)).2) ⟨some t⟩ =
        ⟨some after⟩ := by
  induction records generalizing t keys with
  | nil =>
    obtain ⟨rfl, rfl⟩ := Prod.mk.inj (Except.ok.inj h)
    exact ⟨rfl, rfl⟩
  | cons record records ih =>
    rcases insertRecord_cases t collection record with ⟨expected, hinsert⟩ | hinsert
    · rw [insertRecords_cons_of_error hinsert] at h
      cases h
    · have hstep : (answerFromDatabase ⟨some t⟩ (.upsert collection record)).2 =
          ⟨some (replaceRow t (rowOf collection record))⟩ := by
        have hplace := (inCollection_present hpresent (insertRecord t collection record)).trans hinsert
        exact congrArg (fun filed => Database.mk (some (changed t filed).2)) hplace
      rw [insertRecords_cons_of_ok hinsert] at h
      cases hrest : insertRecords (replaceRow t (rowOf collection record)) collection records with
      | error later =>
        rw [hrest] at h
        cases h
      | ok filed =>
        rw [hrest] at h
        obtain ⟨rfl, rfl⟩ := Prod.mk.inj (Except.ok.inj h)
        have hstill : (replaceRow t (rowOf collection record)).collections.contains collection = true :=
          hpresent
        obtain ⟨hkeys, hafter⟩ := ih hstill hrest
        rw [List.foldl_cons, hstep, hkeys]
        exact ⟨rfl, hafter⟩

/-- **A volatile store** files a batch up to the first record that it refuses. -/
theorem Volatile.filedUntilRefused (v : Volatile) (collection : String) (records : List Record) :
    FiledUntilRefused Volatile.answer v collection records := by
  have hlacks : Lacks Volatile.answer v collection ↔ v.collections.contains collection = false :=
    ⟨Except.ok.inj, congrArg Except.ok⟩
  have hanswer : v.answer (.upsertBatch collection records) =
      v.upsertAll collection records := rfl
  rcases upsertAll_cases v collection records with
    hall | ⟨before, refused, after, e, rfl, hbefore, hrefused, hall⟩
  · rw [hall] at hanswer
    refine ⟨fun name => ?_, fun e h => ?_, fun keys h => ?_⟩
    · rw [hanswer, hlacks]
      refine ⟨nofun, ?_⟩
      rintro ⟨rfl, habsent, hsome⟩
      -- the first record would have been refused
      obtain ⟨record, records, rfl⟩ := List.exists_cons_of_ne_nil hsome
      rw [upsertAll_cons_of_error ((upsert_collectionNotFound_iff v name record name).mpr ⟨rfl, habsent⟩)] at hall
      cases hall
    · rw [hanswer] at h
      cases h
    · rw [hanswer] at h ⊢
      exact ⟨(Except.ok.inj h).symm, rfl⟩
  · rw [hall] at hanswer
    have herror := congrArg Prod.fst hanswer
    refine ⟨fun name => ?_, fun e' h => ?_, fun keys h => ?_⟩
    · -- whether the collection is missing is the same before and after the records that were filed
      have hmissing := upsert_collectionNotFound_iff (upsertEach answer v collection before) collection refused name
      rw [contains_upsertEach, hrefused, Except.error.injEq] at hmissing
      have hreported : (v.answer (.upsertBatch collection (before ++ refused :: after))).1 =
          .error (.collectionNotFound name) ↔ e = .collectionNotFound name :=
        ⟨fun h => Except.error.inj (herror.symm.trans h), fun h => herror.trans (congrArg Except.error h)⟩
      rw [hreported, hlacks, hmissing]
      simp
    · obtain rfl := Except.error.inj (herror.symm.trans h)
      exact ⟨before, refused, after, rfl, hbefore, hrefused, congrArg Prod.snd hanswer⟩
    · cases herror.symm.trans h

/-- **Tables** file a batch as a whole or not at all. -/
theorem filedWhole_of_tables (t : Tables) (collection : String) (records : List Record) :
    FiledWhole answerFromDatabase ⟨some t⟩ collection records := by
  have hlacks : Lacks answerFromDatabase ⟨some t⟩ collection ↔
      t.collections.contains collection = false := ⟨Except.ok.inj, congrArg Except.ok⟩
  have hanswer : ∀ placed, inCollection t collection (insertRecords t collection records) = placed →
      answerFromDatabase ⟨some t⟩ (.upsertBatch collection records) =
        ((changed t placed).1, ⟨some (changed t placed).2⟩) := by
    rintro _ rfl
    rfl
  cases hpresent : t.collections.contains collection with
  | false =>
    have habsent := hanswer _ (inCollection_absent hpresent _)
    refine ⟨fun name => ?_, fun e h => ?_, fun keys h => ?_⟩
    · rw [congrArg Prod.fst habsent, hlacks]
      constructor
      · intro h
        exact ⟨(MemoryError.collectionNotFound.inj (Except.error.inj h)).symm, hpresent⟩
      · rintro ⟨rfl, -⟩
        rfl
    · exact congrArg Prod.snd habsent
    · cases (congrArg Prod.fst habsent).symm.trans h
  | true =>
    cases hinsert : insertRecords t collection records with
    | error refusal =>
      have hrefused := hanswer _ ((inCollection_present hpresent _).trans hinsert)
      obtain ⟨expected, actual, rfl⟩ := insertRecords_eq_error hinsert
      refine ⟨fun name => ?_, fun e h => ?_, fun keys h => ?_⟩
      · rw [congrArg Prod.fst hrefused, hlacks, hpresent]
        exact ⟨nofun, nofun⟩
      · exact congrArg Prod.snd hrefused
      · cases (congrArg Prod.fst hrefused).symm.trans h
    | ok filed =>
      obtain ⟨keys, after⟩ := filed
      have hfiled := hanswer _ ((inCollection_present hpresent _).trans hinsert)
      obtain ⟨hkeys, heach⟩ := insertRecords_eq_ok hpresent hinsert
      refine ⟨fun name => ?_, fun e h => ?_, fun others h => ?_⟩
      · rw [congrArg Prod.fst hfiled, hlacks, hpresent]
        exact ⟨nofun, nofun⟩
      · cases (congrArg Prod.fst hfiled).symm.trans h
      · obtain rfl := Except.ok.inj ((congrArg Prod.fst hfiled).symm.trans h)
        exact ⟨hkeys, (congrArg Prod.snd hfiled).trans heach.symm⟩

end Memory

namespace StoreLocation

open Memory

/-- **Batches** are filed as a whole or not at all by tables, and up to the first record that is refused by
volatile stores; either way a batch that is filed is as its records one after another. -/
theorem batch_filed {location : StoreLocation} {s : location.State} (h : location.Reached s)
    (collection : String) (records : List Record) :
    (location ≠ .volatile → FiledWhole location.respond s collection records) ∧
      (location = .volatile → FiledUntilRefused location.respond s collection records) := by
  obtain ⟨v, hmirrors⟩ := h.mirrors
  cases location with
  | volatile => exact ⟨fun hne => absurd rfl hne, fun _ => Volatile.filedUntilRefused s collection records⟩
  | privateTables =>
    obtain ⟨t, rfl, -⟩ := hmirrors
    exact ⟨fun _ => filedWhole_of_tables t collection records, nofun⟩
  | file path =>
    obtain ⟨t, rfl, -⟩ := hmirrors
    exact ⟨fun _ => filedWhole_of_tables t collection records, nofun⟩

/-- A batch whose second record has a longer vector than the first. -/
def unevenBatch : List Record := [
  { metadata := { id := "a", text := "one" }, embedding := [⟨1⟩] },
  { metadata := { id := "b", text := "two" }, embedding := [⟨1⟩, ⟨2⟩] }]

/-- Tables refuse the whole batch; a volatile store files the first record. -/
theorem batch_filed_uneven :
    (StoreLocation.privateTables.Reached (privateTables.after [.create "notes"]) ∧
      FiledWhole privateTables.respond (privateTables.after [.create "notes"]) "notes" unevenBatch) ∧
    StoreLocation.volatile.Reached (volatile.after [.create "notes"]) ∧
      FiledUntilRefused volatile.respond (volatile.after [.create "notes"]) "notes" unevenBatch := by
  have htables : StoreLocation.privateTables.Reached (privateTables.after [.create "notes"]) :=
    reached_after (by decide)
  have hvolatile : StoreLocation.volatile.Reached (volatile.after [.create "notes"]) :=
    reached_after (by decide)
  exact ⟨⟨htables, (batch_filed htables "notes" unevenBatch).1 nofun⟩, hvolatile,
    (batch_filed hvolatile "notes" unevenBatch).2 rfl⟩

/-- **A volatile store** does not file batches as a whole or not at all: one without records is filed where the
collection is missing, and of one that is refused a part may stay. -/
theorem volatile_not_filedWhole :
    (StoreLocation.volatile.Reached volatile.fresh ∧
      ¬FiledWhole volatile.respond volatile.fresh "notes" []) ∧
    StoreLocation.volatile.Reached (volatile.after [.create "notes"]) ∧
      ¬FiledWhole volatile.respond (volatile.after [.create "notes"]) "notes" unevenBatch := by
  refine ⟨⟨.fresh, fun h => ?_⟩, reached_after (by decide), fun h => ?_⟩
  · cases (h.missing "notes").mpr ⟨rfl, rfl⟩
  · have hunchanged := h.refused (.dimensionMismatch 1 2) (by rfl)
    have hheld := congrArg (fun v : Volatile => (v.held "notes" "a").isSome) hunchanged
    cases hheld

end StoreLocation

end Orchestration
