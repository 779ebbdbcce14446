import Orchestration.Proofs.StoreStates
import Orchestration.Proofs.WrittenTimes

/-!
# Reading what was written

A record that tables took is found again with all its fields: the metadata character for character, the vector bit for
bit, and the time as far as its year has four digits. What is found elsewhere does not change.

* `Memory.Record.retimed_timestamp` — the time of a record as tables give it back.
* `StoreLocation.upsert_readBack` — what is found after a record was filed, and where.
* `StoreLocation.upsert_losesTime` — a time that is taken and not given back.
-/

namespace Orchestration

open Memory Number Time

/-! ### Times of records -/

namespace Time.Timestamp

/-- Whether the year has four digits. -/
def hasShortYear (t : Timestamp) : Bool := 0 ≤ t.date.year ∧ t.date.year ≤ 9999

end Time.Timestamp

namespace Memory.Record

/-- The time of a record, if it has one, can be read from a document. -/
def HasReadableTime (record : Record) : Prop :=
  ∀ t, record.timestamp = some t → ∃ depth source, timestampDecoder depth source = some t

theorem sound_of_timestampDecoder {depth : Nat} {source : Source} {t : Timestamp}
    (h : timestampDecoder depth source = some t) : t.Sound := by
  rw [timestampDecoder.eq_def] at h
  split at h
  · obtain ⟨z, hz, rfl⟩ := Option.map_eq_some_iff.mp h
    exact Zoned.sound_of_readLoose? hz
  · cases h

/-- **The time that tables give back** is the time of the record if its year has four digits, and none otherwise. -/
theorem retimed_timestamp {record : Record} (h : record.HasReadableTime) :
    record.retimed.timestamp = record.timestamp.filter (·.hasShortYear) := by
  have hretimed : record.retimed.timestamp =
      ((record.timestamp.map (·.stored)).bind Zoned.readStrict?).map (·.instant) := rfl
  rw [hretimed]
  cases htime : record.timestamp with
  | none => rfl
  | some t =>
    obtain ⟨depth, source, hread⟩ := h t htime
    have hsound := sound_of_timestampDecoder hread
    rw [Option.map_some, Option.bind_some]
    cases hyear : t.hasShortYear with
    | true =>
      obtain ⟨hfirst, hlast⟩ := of_decide_eq_true hyear
      rw [Zoned.readStrict?_stored hsound hfirst hlast, Option.filter_some, if_pos hyear]
      rfl
    | false =>
      have hnone := Zoned.readStrict?_stored_eq_none (of_decide_eq_false hyear)
      rw [hnone, Option.filter_some, if_neg (by simp [hyear])]
      rfl

end Memory.Record

/-! ### Stores -/

namespace StoreLocation

variable {location : StoreLocation} {s : location.State}

/-- What is answered when the record under a collection and a key is asked for. -/
def found (location : StoreLocation) (s : location.State) (collection key : String) (withEmbedding : Bool) :
    Except MemoryError (Option Record) :=
  (location.respond s (.get collection key withEmbedding)).1

/-- What is answered when a record is filed, and what the store holds then. -/
def filing (location : StoreLocation) (s : location.State) (collection : String) (record : Record) :
    Except MemoryError String × location.State :=
  location.respond s (.upsert collection record)

theorem Mirrors.found_eq {v : Volatile} (h : location.Mirrors v s) (collection key : String) (withEmbedding : Bool) :
    location.found s collection key withEmbedding =
      .ok ((v.held collection key).map fun record => (location.kept record).shown withEmbedding) :=
  congrArg Prod.fst (h.respond_get collection key withEmbedding)

/-- **What was written is read.** In tables, a record that is filed is filed under its effective key. It is found
there with its metadata, its vector or none as asked, and its time if the year has four digits; so all of it is found
just if no time is lost. Every other place answers as before. -/
theorem filing_readBack (h : location.Reached s) (htables : location ≠ .volatile) {collection key : String}
    {record : Record} (htime : record.HasReadableTime) (hfiled : (location.filing s collection record).1 = .ok key) :
    key = record.effectiveKey ∧
      (∀ withEmbedding, location.found (location.filing s collection record).2 collection key withEmbedding =
        .ok (some {
          metadata := record.metadata
          embedding := if withEmbedding then record.embedding else []
          key
          timestamp := record.timestamp.filter (·.hasShortYear) })) ∧
      (location.found (location.filing s collection record).2 collection key true = .ok (some { record with key }) ↔
        ∀ t, record.timestamp = some t → t.hasShortYear) ∧
      ∀ other name withEmbedding, ¬(other = collection ∧ name = key) →
        location.found (location.filing s collection record).2 other name withEmbedding =
          location.found s other name withEmbedding := by
  obtain ⟨v, hmirrors⟩ := h.mirrors
  have hplain : (Call.upsert collection record).isPlain := rfl
  obtain ⟨hanswer, hafter⟩ : (location.filing s collection record).1 = (v.upsert collection record).1 ∧
      location.Mirrors (v.upsert collection record).2 (location.filing s collection record).2 :=
    hmirrors.respond hplain
  have hvolatile : (v.upsert collection record).1 = .ok key := hanswer.symm.trans hfiled
  have hheld := Volatile.held_upsert hvolatile
  have hkept : location.kept record.filed = record.filed.retimed := by
    cases location with
    | volatile => exact absurd rfl htables
    | privateTables => rfl
    | file path => rfl
  obtain rfl := Volatile.upsert_key hvolatile
  have hfields : record.filed.retimed = {
      metadata := record.metadata
      embedding := record.embedding
      key := record.effectiveKey
      timestamp := record.timestamp.filter (·.hasShortYear) } := by
    rw [← Record.retimed_timestamp htime]
    rfl
  have hfound : ∀ withEmbedding,
      location.found (location.filing s collection record).2 collection record.effectiveKey withEmbedding =
        .ok (some {
          metadata := record.metadata
          embedding := if withEmbedding then record.embedding else []
          key := record.effectiveKey
          timestamp := record.timestamp.filter (·.hasShortYear) }) := by
    intro withEmbedding
    rw [hafter.found_eq, hheld, if_pos ⟨rfl, rfl⟩, Option.map_some, hkept, hfields]
    cases withEmbedding <;> rfl
  refine ⟨rfl, hfound, ?_, fun other name withEmbedding helsewhere => ?_⟩
  · rw [hfound true, Except.ok.injEq, Option.some.injEq]
    simp only [if_true, Record.mk.injEq, true_and]
    cases record.timestamp <;> simp
  · rw [hafter.found_eq, hheld, if_neg helsewhere, hmirrors.found_eq]

/-- A record with a vector and a time. -/
def noteAt (t : Timestamp) : Record where
  metadata := { id := "a", text := "note" }
  embedding := [⟨1⟩, ⟨2⟩]
  timestamp := some t

/-- An hour and a bit past the first of January in 2024, as a document says it. -/
theorem readLoose?_hour : Zoned.readLoose? "2024-01-01T01:00:30.5Z" = some ⟨⟨1704070830, 500000000⟩, 0⟩ := by
  decide +kernel

theorem filing_readBack_hour :
    privateTables.Reached (privateTables.after [.create "notes"]) ∧
      privateTables.found (privateTables.filing (privateTables.after [.create "notes"]) "notes"
        (noteAt ⟨1704070830, 500000000⟩)).2 "notes" "a" true =
        .ok (some { noteAt ⟨1704070830, 500000000⟩ with key := "a" }) := by
  have hreached : privateTables.Reached (privateTables.after [.create "notes"]) := reached_after (by decide)
  have htime : (noteAt ⟨1704070830, 500000000⟩).HasReadableTime := by
    rintro t ht
    obtain rfl := Option.some.inj ht
    exact ⟨0, .string (some "2024-01-01T01:00:30.5Z"), by rw [Record.timestampDecoder, readLoose?_hour]; rfl⟩
  have hfiled : (privateTables.filing (privateTables.after [.create "notes"]) "notes"
      (noteAt ⟨1704070830, 500000000⟩)).1 = .ok "a" := by decide +kernel
  obtain ⟨-, -, hwhole, -⟩ := filing_readBack hreached nofun htime hfiled
  refine ⟨hreached, hwhole.mpr fun t ht => ?_⟩
  obtain rfl := Option.some.inj ht
  decide +kernel

/-- A time in a year of five digits is read from a document and taken by tables, but not given back. -/
theorem filing_losesTime :
    Zoned.readLoose? "+12345-01-01T00:00:00Z" = some ⟨⟨327403382400, 0⟩, 0⟩ ∧
      privateTables.Reached (privateTables.after [.create "notes"]) ∧
      (privateTables.filing (privateTables.after [.create "notes"]) "notes" (noteAt ⟨327403382400, 0⟩)).1 = .ok "a" ∧
      privateTables.found (privateTables.filing (privateTables.after [.create "notes"]) "notes"
        (noteAt ⟨327403382400, 0⟩)).2 "notes" "a" true =
        .ok (some { noteAt ⟨327403382400, 0⟩ with key := "a", timestamp := none }) :=
  ⟨by decide +kernel, reached_after (by decide), by decide +kernel, by decide +kernel⟩

end StoreLocation

end Orchestration
