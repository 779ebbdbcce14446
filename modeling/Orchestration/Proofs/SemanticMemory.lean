import Orchestration.Memory.Semantic
import Orchestration.Proofs.StoreRuns

/-!
# Saving and finding

A semantic memory makes a vector, then the collection if it is missing, then files the record, and each of these
may fail. A save that fails leaves nothing behind all the same: a collection is made only when a record is about
to be filed in it, and a collection without records refuses no vector.

* `Deposit` — what is saved, a text or where one is kept.
* `Semantic.Filing` — the steps of the store while a record is filed.
* `Semantic.Filing.of_error`, `Semantic.Filing.of_ok` — what the store holds after them.
* `Semantic.saved_of_ends`, `Semantic.ends_get`, `Semantic.removed_of_ends`, `Semantic.searched_of_ends` — what a run of
  each program leaves and finds.
* `Semantic.Faithful` — what a semantic memory may be relied on for, and `Semantic.faithful`, that it may.
-/

namespace Orchestration.Memory

open Number

/-! ### Deposits -/

/-- What can be saved: a text, or where a text is kept. -/
inductive Deposit where
  /-- a text, under an id -/
  | ofText (text id : String) (description additionalMetadata : Option String)
  /-- where a text is kept, under an id -/
  | ofReference (text id sourceName : String) (description additionalMetadata : Option String)

namespace Deposit

/-- The text that a vector is made of. -/
def spelled : Deposit → String
  | .ofText text .. => text
  | .ofReference text .. => text

/-- The id that it is saved under. -/
def id : Deposit → String
  | .ofText _ id .. => id
  | .ofReference _ id .. => id

/-- What is to be found again: the text itself is not kept of one that is kept elsewhere. -/
def metadata : Deposit → Metadata
  | .ofText text id description additionalMetadata => {
      id, text
      description := description.getD ""
      additionalMetadata := additionalMetadata.getD "" }
  | .ofReference _ id sourceName description additionalMetadata => {
      isReference := true
      externalSourceName := sourceName
      id
      description := description.getD ""
      additionalMetadata := additionalMetadata.getD "" }

/-- The record of it. -/
def record (d : Deposit) (embedding : Vector) (time : Time.Timestamp) : Record where
  metadata := d.metadata
  embedding
  key := d.id
  timestamp := some time

theorem effectiveKey_record (d : Deposit) (embedding : Vector) (time : Time.Timestamp) :
    (d.record embedding time).effectiveKey = d.id := by
  have hkey : (d.record embedding time).effectiveKey = if d.id.isEmpty then d.metadata.id else d.id := rfl
  rw [hkey]
  cases d <;> exact ite_self _

end Deposit

/-- Whether the call is one of those that files and removes records one by one: it asks for a collection or makes
it, or it files or takes away a single record. -/
def Call.isSaving : Call → Bool
  | .holds _ => true
  | .create _ => true
  | .upsert .. => true
  | .remove .. => true
  | _ => false

theorem Call.isPlain_of_isSaving {call : Call} (h : call.isSaving) : call.isPlain := by
  cases call <;> first | rfl | cases h

namespace Semantic

/-- A semantic memory over the store at a place. -/
def inPlace (location : StoreLocation) (embedder : Embedder) : Semantic where
  store := .inPlace location
  embedder

/-- Saves a text, or where one is kept. -/
def deposit (m : Semantic) (collection : String) : Deposit → Effect MemoryError String
  | .ofText text id description additionalMetadata => m.save collection text id description additionalMetadata
  | .ofReference text id sourceName description additionalMetadata =>
    m.saveReference collection text id sourceName description additionalMetadata

/-- Either way the vector comes first, and the record is filed last. -/
theorem deposit_eq (m : Semantic) (collection : String) (d : Deposit) :
    m.deposit collection d = (do
      let embedding ← m.vectorOf d.spelled
      let now ← Effect.ask .now
      m.file collection (d.record embedding now)) := by
  cases d <;> rfl

/-! ### The steps of the store -/

/-- The steps of the store while a record is filed in a collection, and how that ends. -/
inductive Filing (collection : String) (record : Record) : List StoreStep → Except MemoryError String → Prop where
  /-- the store does not say whether the collection is there -/
  | unsaid (e : MemoryError) : Filing collection record [⟨.holds collection, .error e⟩] (.error e)
  /-- the collection is there -/
  | there (outcome : Except MemoryError String) : Filing collection record
      [⟨.holds collection, .ok true⟩, ⟨.upsert collection record, outcome⟩] outcome
  /-- the collection cannot be made -/
  | unmade (e : MemoryError) : Filing collection record
      [⟨.holds collection, .ok false⟩, ⟨.create collection, .error e⟩] (.error e)
  /-- the collection is made first -/
  | made (outcome : Except MemoryError String) : Filing collection record
      [⟨.holds collection, .ok false⟩, ⟨.create collection, .ok ()⟩, ⟨.upsert collection record, outcome⟩]
      outcome

variable {location : StoreLocation} {embedder : Embedder} {collection : String}
  {log : List (Exchange Outside)}

/-- **A collection** is there, is made, or the program fails. -/
theorem steps_ensure {outcome : Except MemoryError Unit}
    (h : Ends ((inPlace location embedder).ensure collection) log outcome) :
    (∃ e, outcome = .error e ∧ (location.steps log = [⟨.holds collection, .error e⟩] ∨
      location.steps log = [⟨.holds collection, .ok false⟩, ⟨.create collection, .error e⟩])) ∨
    outcome = .ok () ∧ (location.steps log = [⟨.holds collection, .ok true⟩] ∨
      location.steps log = [⟨.holds collection, .ok false⟩, ⟨.create collection, .ok ()⟩]) := by
  rcases Store.ends_inPlace_bind.mp h with ⟨e, rfl, rfl⟩ | ⟨there, rest, hrest, rfl⟩
  · exact .inl ⟨e, rfl, .inl (StoreLocation.steps_exchange ..)⟩
  · rw [StoreLocation.steps_exchange]
    cases there with
    | true =>
      obtain ⟨rfl, rfl⟩ := ends_pure.mp hrest
      exact .inr ⟨rfl, .inl rfl⟩
    | false =>
      rcases Store.ends_inPlace_bind.mp hrest with ⟨e, rfl, rfl⟩ | ⟨⟨⟩, last, hlast, rfl⟩
      · exact .inl ⟨e, rfl, .inr (congrArg (_ :: ·) (StoreLocation.steps_exchange ..))⟩
      · obtain ⟨rfl, rfl⟩ := ends_pure.mp hlast
        exact .inr ⟨rfl, .inr (congrArg (_ :: ·) (StoreLocation.steps_exchange ..))⟩

theorem filing_of_ends {record : Record} {outcome : Except MemoryError String}
    (h : Ends ((inPlace location embedder).file collection record) log outcome) :
    Filing collection record (location.steps log) outcome := by
  rcases ends_bind.mp h with ⟨e, hensure, rfl⟩ | ⟨first, ⟨⟩, later, hensure, hupsert, rfl⟩
  · rcases steps_ensure hensure with ⟨_, herror, hsteps⟩ | ⟨hok, -⟩
    · obtain rfl := Except.error.inj herror
      rcases hsteps with hsteps | hsteps
      · rw [hsteps]
        exact .unsaid e
      · rw [hsteps]
        exact .unmade e
    · cases hok
  · rw [StoreLocation.steps_append, StoreLocation.steps_of_ends hupsert]
    rcases steps_ensure hensure with ⟨e, herror, -⟩ | ⟨-, hsteps | hsteps⟩
    · cases herror
    · rw [hsteps]
      exact .there outcome
    · rw [hsteps]
      exact .made outcome

/-- The vector is made without the store, by what makes vectors. -/
theorem steps_vectorOf (hspares : embedder.Spares location) {text : String} {outcome : Except MemoryError Vector}
    (h : Ends ((inPlace location embedder).vectorOf text) log outcome) :
    location.steps log = [] ∧ (∀ e, outcome = .error e → ∃ message, e = .embedding message) ∧
      ∀ vector, outcome = .ok vector → embedder.Makes text vector := by
  have hone : (embedder.embedOne text).Spares location := by
    refine Effect.spares_bind (hspares [text]) fun vectors => ?_
    split
    · exact Effect.spares_pure _
    · exact Effect.spares_throw _
  obtain ⟨inner, hinner, rfl⟩ := Effect.ends_mapError.mp h
  refine ⟨StoreLocation.steps_elsewhere (hone _ _ hinner).1, fun e he => ?_, fun vector hvector => ?_⟩
  · cases inner with
    | error e =>
      obtain rfl := Except.error.inj he
      exact ⟨_, rfl⟩
    | ok vector => cases he
  · cases inner with
    | error e => cases hvector
    | ok vector =>
      obtain rfl := Except.ok.inj hvector
      exact ⟨log, hinner⟩

/-- **A save** fails before it uses the store, or files its record, with a vector of its text. -/
theorem steps_deposit (hspares : embedder.Spares location) {d : Deposit} {outcome : Except MemoryError String}
    (h : Ends ((inPlace location embedder).deposit collection d) log outcome) :
    (location.steps log = [] ∧ ∃ message, outcome = .error (.embedding message)) ∨
      ∃ vector time, embedder.Makes d.spelled vector ∧
        Filing collection (d.record vector time) (location.steps log) outcome := by
  rw [deposit_eq] at h
  rcases ends_bind.mp h with ⟨e, hvector, rfl⟩ | ⟨first, vector, rest, hvector, hrest, rfl⟩
  · obtain ⟨hsteps, hembedding, -⟩ := steps_vectorOf hspares hvector
    obtain ⟨message, rfl⟩ := hembedding e rfl
    exact .inl ⟨hsteps, message, rfl⟩
  · obtain ⟨hsteps, -, hmakes⟩ := steps_vectorOf hspares hvector
    obtain ⟨time, later, hfile, rfl⟩ := Effect.ends_ask_bind.mp hrest
    have hnow : location.steps (⟨OutsideRequest.now, time⟩ :: later) = location.steps later := rfl
    rw [StoreLocation.steps_append, hsteps, List.nil_append, hnow]
    exact .inr ⟨vector, time, hmakes vector rfl, filing_of_ends hfile⟩

namespace Filing

variable {record : Record} {steps : List StoreStep} {outcome : Except MemoryError String}

theorem isSaving (h : Filing collection record steps outcome) : ∀ step ∈ steps, step.call.isSaving := by
  cases h <;> simp [Call.isSaving]

theorem mem_of_ok {key : String} (h : Filing collection record steps (.ok key)) :
    ⟨.upsert collection record, .ok key⟩ ∈ steps := by
  cases h with
  | there => exact List.mem_cons_of_mem _ List.mem_cons_self
  | made => exact List.mem_cons_of_mem _ (List.mem_cons_of_mem _ List.mem_cons_self)

/-- A collection that was just made refuses no vector. -/
theorem ok_of_made {v made : Volatile} {e : MemoryError}
    (hmissing : v.collections.contains collection = false)
    (hcreate : v.answer (.create collection) = (.ok (), made)) :
    (made.upsert collection record).1 ≠ .error e := by
  rcases Volatile.create_cases v collection with hanswer | ⟨hthere, -⟩ | ⟨-, hanswer⟩
  · cases hcreate.symm.trans hanswer
  · cases hthere.symm.trans hmissing
  · obtain ⟨-, rfl⟩ := Prod.mk.inj (hcreate.symm.trans hanswer)
    have hempty : (v.collections.insert collection ∅).get? collection = some ∅ :=
      Dictionary.get?_insert_self ..
    have hfiled := Volatile.upsert_of_empty (v := ⟨v.collections.insert collection ∅⟩) hempty record
    rw [hfiled]
    exact nofun

/-- **Where filing fails** the store is left as it was. -/
theorem of_error {e : MemoryError} {v : Volatile} {s after : location.State}
    (h : Filing collection record steps (.error e)) (hmirrors : location.Mirrors v s)
    (hserves : Serves location.respond s steps after) : after = s := by
  cases h with
  | unsaid e => exact (hmirrors.serves_holds.mp hserves).2
  | there =>
    obtain ⟨-, hupsert, rfl⟩ := hmirrors.serves_holds.mp hserves
    exact hmirrors.respond_of_error rfl hupsert.symm
  | unmade e =>
    obtain ⟨-, hcreate, rfl⟩ := hmirrors.serves_holds.mp hserves
    exact hmirrors.respond_of_error rfl hcreate.symm
  | made =>
    -- the volatile store that is mirrored does not fail so
    obtain ⟨_, ⟨hholds, hcreate, hupsert, -⟩, -⟩ := hmirrors.serves hserves fun step hstep =>
      Call.isPlain_of_isSaving (isSaving (.made _) step hstep)
    exact absurd hupsert.symm (ok_of_made (Except.ok.inj hholds).symm (Prod.ext hcreate.symm rfl))

/-- **Where filing succeeds** the record is held under its key, and the others stay where they are. -/
theorem of_ok {key : String} {v after : Volatile} (h : Filing collection record steps (.ok key))
    (hserves : Serves Volatile.answer v steps after) :
    key = record.effectiveKey ∧ after.collections.contains collection = true ∧
      ∀ other name, after.held other name =
        if other = collection ∧ name = key then some record.filed else v.held other name := by
  have hfiled : ∀ {before : Volatile}, (before.upsert collection record).1 = .ok key →
      key = record.effectiveKey ∧ (before.upsert collection record).2.collections.contains collection = true ∧
        ∀ other name, (before.upsert collection record).2.held other name =
          if other = collection ∧ name = key then some record.filed else before.held other name := by
    intro before hupsert
    refine ⟨Volatile.upsert_key hupsert, ?_, Volatile.held_upsert hupsert⟩
    rw [Volatile.contains_upsert]
    exact Volatile.contains_of_upsert hupsert
  cases h with
  | there =>
    obtain ⟨-, hupsert, rfl⟩ := hserves
    exact hfiled hupsert.symm
  | made =>
    obtain ⟨-, -, hupsert, rfl⟩ := hserves
    obtain ⟨hkey, hthere, hheld⟩ := hfiled hupsert.symm
    refine ⟨hkey, hthere, fun other name => (hheld other name).trans ?_⟩
    rw [Volatile.held_create]
    rfl

end Filing

/-! ### What a run leaves -/

/-- A save asks for collections, makes them, and files. -/
theorem isSaving_of_ends (hspares : embedder.Spares location) {d : Deposit} {outcome : Except MemoryError String}
    (h : Ends ((inPlace location embedder).deposit collection d) log outcome) :
    ∀ step ∈ location.steps log, step.call.isSaving := by
  rcases steps_deposit hspares h with ⟨hnone, -⟩ | ⟨vector, time, -, hfiling⟩
  · rw [hnone]
    exact fun step hstep => absurd hstep List.not_mem_nil
  · exact hfiling.isSaving

section Mirrored

variable {v : Volatile} {s after : location.State}

/-- **A save that succeeds** leaves the record under its id, with a vector of its text, and all others where they
were. -/
theorem saved_of_ends (hspares : embedder.Spares location) (hmirrors : location.Mirrors v s) {d : Deposit}
    {key : String} (h : Ends ((inPlace location embedder).deposit collection d) log (.ok key))
    (hserves : Serves location.respond s (location.steps log) after) :
    ∃ vector time next, embedder.Makes d.spelled vector ∧ key = d.id ∧
      next.collections.contains collection = true ∧ location.Mirrors next after ∧
      ∀ other name, next.held other name =
        if other = collection ∧ name = key then some (d.record vector time).filed else v.held other name := by
  rcases steps_deposit hspares h with ⟨-, message, herror⟩ | ⟨vector, time, hmakes, hfiling⟩
  · cases herror
  · obtain ⟨next, hvolatile, hnext⟩ := hmirrors.serves hserves fun step hstep =>
      Call.isPlain_of_isSaving (hfiling.isSaving step hstep)
    obtain ⟨rfl, hthere, hheld⟩ := hfiling.of_ok hvolatile
    exact ⟨vector, time, next, hmakes, d.effectiveKey_record vector time, hthere, hnext, hheld⟩

end Mirrored

/-! ### Looking where a collection may be missing -/

section Mirrored

variable {α : Type} {outcome : Except MemoryError α} {v : Volatile} {s after : location.State}

/-- A program that asks for a collection first goes on with whether it is there. -/
theorem ends_holds (hmirrors : location.Mirrors v s) {f : Bool → Effect MemoryError α}
    (h : Ends ((inPlace location embedder).holds collection >>= f) log outcome)
    (hserves : Serves location.respond s (location.steps log) after) :
    ∃ rest, Ends (f (v.collections.contains collection)) rest outcome ∧
      Serves location.respond s (location.steps rest) after ∧
      log.map (·.request) = .store location (.holds collection) :: rest.map (·.request) := by
  rcases Store.ends_inPlace_bind.mp h with ⟨e, rfl, rfl⟩ | ⟨there, rest, hrest, rfl⟩
  · rw [StoreLocation.steps_exchange] at hserves
    cases (hmirrors.serves_holds.mp hserves).1
  · rw [StoreLocation.steps_exchange] at hserves
    obtain ⟨hthere, hlater⟩ := hmirrors.serves_holds.mp hserves
    obtain rfl := Except.ok.inj hthere
    exact ⟨rest, hrest, hlater, rfl⟩

/-- Where the collection is missing, a program that has nothing to do then asks for nothing else. -/
theorem ends_holds_missing (hmirrors : location.Mirrors v s) {f : Bool → Effect MemoryError α} {nothing : α}
    (hmissing : v.collections.contains collection = false) (hnothing : f false = pure nothing)
    (h : Ends ((inPlace location embedder).holds collection >>= f) log outcome)
    (hserves : Serves location.respond s (location.steps log) after) :
    outcome = .ok nothing ∧ log.map (·.request) = [.store location (.holds collection)] ∧ after = s := by
  obtain ⟨rest, hrest, hlater, hasked⟩ := ends_holds hmirrors h hserves
  rw [hmissing, hnothing] at hrest
  obtain ⟨rfl, rfl⟩ := ends_pure.mp hrest
  exact ⟨rfl, hasked, hlater⟩

/-- **What is looked up** is what the store holds. -/
theorem ends_get (hmirrors : location.Mirrors v s) {key : String} {withEmbedding : Bool}
    {outcome : Except MemoryError (Option Found)}
    (h : Ends ((inPlace location embedder).get collection key withEmbedding) log outcome)
    (hserves : Serves location.respond s (location.steps log) after)
    (hthere : v.collections.contains collection = true) :
    outcome = .ok ((v.held collection key).map fun record =>
      Found.ofRecord ((location.kept record).shown withEmbedding) 1) := by
  obtain ⟨rest, hrest, hlater, -⟩ := ends_holds hmirrors h hserves
  rw [hthere] at hrest
  rcases Store.ends_inPlace_bind.mp hrest with ⟨e, rfl, rfl⟩ | ⟨found, last, hlast, rfl⟩
  · rw [StoreLocation.steps_exchange] at hlater
    obtain ⟨hget, -⟩ := hlater
    rw [hmirrors.respond_get] at hget
    cases hget
  · rw [StoreLocation.steps_exchange] at hlater
    obtain ⟨hget, -⟩ := hlater
    rw [hmirrors.respond_get] at hget
    obtain rfl := Except.ok.inj hget
    obtain ⟨-, rfl⟩ := ends_pure.mp hlast
    rw [Option.map_map]
    rfl

/-- **A removal succeeds**, and takes away what is held at its place and nothing else. -/
theorem removed_of_ends (hmirrors : location.Mirrors v s) {key : String} {outcome : Except MemoryError Unit}
    (h : Ends ((inPlace location embedder).remove collection key) log outcome)
    (hserves : Serves location.respond s (location.steps log) after) :
    outcome = .ok () ∧ ∃ next, location.Mirrors next after ∧
      ∀ other name, next.held other name = if other = collection ∧ name = key then none else v.held other name := by
  obtain ⟨rest, hrest, hlater, -⟩ := ends_holds hmirrors h hserves
  cases hthere : v.collections.contains collection with
  | true =>
    rw [hthere] at hrest
    rw [StoreLocation.steps_of_ends hrest] at hlater
    obtain ⟨hanswer, rfl⟩ := hlater
    have hplain : (Call.remove collection key).isPlain := rfl
    obtain ⟨hsame, hnext⟩ := hmirrors.respond hplain
    exact ⟨hanswer.trans hsame, _, hnext, Volatile.held_remove v collection key⟩
  | false =>
    -- where the collection is missing there is nothing to take away
    rw [hthere] at hrest
    obtain ⟨rfl, rfl⟩ := ends_pure.mp hrest
    obtain rfl := hlater
    refine ⟨rfl, v, hmirrors, fun other name => ?_⟩
    split
    · next hat =>
      cases hheld : v.held other name with
      | none => rfl
      | some record =>
        obtain ⟨records, hget, -⟩ := Option.bind_eq_some_iff.mp hheld
        rw [hat.1] at hget
        cases hthere.symm.trans (Dictionary.contains_of_get? hget)
    · rfl

/-- **What is found** in a collection that is there is what the store finds for a vector of the query, if one is
made. -/
theorem searched_of_ends (hspares : embedder.Spares location) (hmirrors : location.Mirrors v s) {query : String}
    {limit : Nat} {least : Float} {withEmbeddings : Bool} {outcome : Except MemoryError (List Found)}
    (h : Ends ((inPlace location embedder).search collection query limit least withEmbeddings) log outcome)
    (hserves : Serves location.respond s (location.steps log) after)
    (hlimit : limit ≠ 0) (hthere : v.collections.contains collection = true) :
    (embedder.Fails query ∧ ∃ e, outcome = .error e) ∨
      ∃ vector, embedder.Makes query vector ∧
        outcome = (location.respond s (.nearest collection vector limit least withEmbeddings)).1.map
          (List.map fun hit => Found.ofRecord hit.record hit.relevance) := by
  rw [search, if_neg hlimit] at h
  obtain ⟨rest, hrest, hlater, -⟩ := ends_holds hmirrors h hserves
  rw [hthere] at hrest
  rcases ends_bind.mp hrest with ⟨e, hvector, rfl⟩ | ⟨first, vector, later, hvector, hnearest, rfl⟩
  · obtain ⟨inner, hinner, hfailure⟩ := Effect.ends_mapError.mp hvector
    cases inner with
    | error failure => exact .inl ⟨⟨rest, failure, hinner⟩, e, rfl⟩
    | ok vector => cases hfailure
  · obtain ⟨hsteps, -, hmakes⟩ := steps_vectorOf hspares hvector
    rw [StoreLocation.steps_append, hsteps, List.nil_append] at hlater
    refine .inr ⟨vector, hmakes vector rfl, ?_⟩
    rcases Store.ends_inPlace_bind.mp hnearest with ⟨e, rfl, rfl⟩ | ⟨hits, last, hlast, rfl⟩
    · rw [StoreLocation.steps_exchange] at hlater
      rw [← hlater.1]
      rfl
    · rw [StoreLocation.steps_exchange] at hlater
      rw [← hlater.1]
      exact (ends_pure.mp hlast).2

end Mirrored

/-! ### What may be relied on -/

section Reliance

variable {τ : Type} {location : StoreLocation} {world : Program.Surroundings Outside τ}

/-- The program succeeds with nothing; it asks the store for no more than whether the collection is there, and
what the store holds stays as it was. -/
structure ComesToNothing {α : Type} (k : Keeper location world) (w : τ) (collection : String) (nothing : α)
    (t : Effect MemoryError α) : Prop where
  /-- it succeeds -/
  outcome : (t.aftermath world w).outcome = .ok nothing
  /-- nothing else is asked for -/
  asked : ∀ r ∈ (t.aftermath world w).asked, r = .store location (.holds collection)
  /-- nothing is made -/
  unchanged : k.content (t.aftermath world w).later = k.content w

/-- What comes of a save, over the store at the place. -/
def saving (location : StoreLocation) (embedder : Embedder) (world : Program.Surroundings Outside τ) (w : τ)
    (collection : String) (d : Deposit) : Aftermath MemoryError String τ :=
  ((inPlace location embedder).deposit collection d).aftermath world w

/-- What a semantic memory over the store of some surroundings may be relied on for. -/
structure Faithful (k : Keeper location world) (embedder : Embedder) (w : τ) : Prop where
  /-- a save that fails leaves the store as it was -/
  refused : ∀ collection d e, (saving location embedder world w collection d).outcome = .error e →
    k.content (saving location embedder world w collection d).later = k.content w
  /-- what is saved is found under the key that comes back, which is its id -/
  found : ∀ collection d key, (saving location embedder world w collection d).outcome = .ok key →
    key = d.id ∧ ∀ withEmbedding, ∃ found : Found,
      (((inPlace location embedder).get collection key withEmbedding).aftermath world
        (saving location embedder world w collection d).later).outcome = .ok (some found) ∧
      found.metadata = d.metadata ∧ found.relevance = 1
  /-- and nothing changes under any other collection and key -/
  others : ∀ collection d key, (saving location embedder world w collection d).outcome = .ok key →
    ∀ other name, ¬(other = collection ∧ name = key) →
      location.look (k.content (saving location embedder world w collection d).later) other name =
        location.look (k.content w) other name
  /-- where the collection is missing, nothing is found, nothing is taken away and nothing is made -/
  missing : ∀ collection, (location.respond (k.content w) (.holds collection)).1 = .ok false →
    (∀ key withEmbedding,
      ComesToNothing k w collection none ((inPlace location embedder).get collection key withEmbedding)) ∧
    (∀ key, ComesToNothing k w collection () ((inPlace location embedder).remove collection key)) ∧
    ∀ query limit least withEmbeddings, ComesToNothing k w collection []
      ((inPlace location embedder).search collection query limit least withEmbeddings)

variable {k : Keeper location world} {embedder : Embedder} {w : τ} {v : Volatile} {collection : String}
  {d : Deposit}

/-- A program that asks for the collection first comes to nothing where it is missing. -/
theorem comesToNothing_of_holds {α : Type} (hmirrors : location.Mirrors v (k.content w))
    (hmissing : v.collections.contains collection = false) {f : Bool → Effect MemoryError α} {nothing : α}
    (hnothing : f false = pure nothing) :
    ComesToNothing k w collection nothing ((inPlace location embedder).holds collection >>= f) := by
  obtain ⟨log, hends, hasked, hserves⟩ :=
    k.exists_ends ((inPlace location embedder).holds collection >>= f) w
  obtain ⟨houtcome, honly, hunchanged⟩ := ends_holds_missing hmirrors hmissing hnothing hends hserves
  refine ⟨houtcome, fun r hr => ?_, hunchanged⟩
  rw [← hasked, honly] at hr
  exact List.mem_singleton.mp hr

/-- A save fails before it uses the store, or the store serves the steps in which the record is filed. -/
theorem exists_filing (k : Keeper location world) (hspares : embedder.Spares location) (w : τ)
    (collection : String) (d : Deposit) :
    (k.content (saving location embedder world w collection d).later = k.content w ∧
      ∃ message, (saving location embedder world w collection d).outcome = .error (.embedding message)) ∨
    ∃ vector time steps,
      Filing collection (d.record vector time) steps (saving location embedder world w collection d).outcome ∧
        Serves location.respond (k.content w) steps
          (k.content (saving location embedder world w collection d).later) := by
  obtain ⟨log, hends, -, hserves⟩ := k.exists_ends ((inPlace location embedder).deposit collection d) w
  rcases steps_deposit hspares hends with ⟨hnone, hembedding⟩ | ⟨vector, time, -, hfiling⟩
  · rw [hnone] at hserves
    exact .inl ⟨hserves, hembedding⟩
  · exact .inr ⟨vector, time, _, hfiling, hserves⟩

/-- What a save that succeeds leaves: the record under its id, and all others where they were. -/
theorem exists_saved (hspares : embedder.Spares location) (hmirrors : location.Mirrors v (k.content w))
    {key : String} (hok : (saving location embedder world w collection d).outcome = .ok key) :
    ∃ vector time next, key = d.id ∧ next.collections.contains collection = true ∧
      location.Mirrors next (k.content (saving location embedder world w collection d).later) ∧
      ∀ other name, next.held other name =
        if other = collection ∧ name = key then some (d.record vector time).filed
        else v.held other name := by
  obtain ⟨log, hends, -, hserves⟩ := k.exists_ends ((inPlace location embedder).deposit collection d) w
  have hsaved : Ends ((inPlace location embedder).deposit collection d) log (.ok key) := hok ▸ hends
  obtain ⟨vector, time, next, -, hnext⟩ := saved_of_ends hspares hmirrors hsaved hserves
  exact ⟨vector, time, next, hnext⟩

/-- **A semantic memory is faithful**, whatever the vectors that it is given, as long as what makes them leaves
its store alone. -/
theorem faithful (k : Keeper location world) (hspares : embedder.Spares location)
    (hreached : location.Reached (k.content w)) : Faithful k embedder w := by
  obtain ⟨v, hmirrors⟩ := hreached.mirrors
  constructor
  case refused =>
    intro collection d e he
    rcases exists_filing k hspares w collection d with ⟨hunchanged, -⟩ | ⟨vector, time, steps, hfiling, hserves⟩
    · exact hunchanged
    · rw [he] at hfiling
      exact hfiling.of_error hmirrors hserves
  case found =>
    intro collection d key hok
    obtain ⟨vector, time, next, hkey, hthere, hnext, hheld⟩ := exists_saved hspares hmirrors hok
    refine ⟨hkey, fun withEmbedding => ?_⟩
    obtain ⟨log, hends, -, hserves⟩ := k.exists_ends
      ((inPlace location embedder).get collection key withEmbedding)
      (saving location embedder world w collection d).later
    have hget := ends_get hnext hends hserves hthere
    rw [hheld, if_pos ⟨rfl, rfl⟩] at hget
    refine ⟨_, hget, ?_, rfl⟩
    -- neither the tables nor a look without vectors change the metadata
    cases location <;> cases withEmbedding <;> rfl
  case others =>
    intro collection d key hok other name hother
    obtain ⟨vector, time, next, -, -, hnext, hheld⟩ := exists_saved hspares hmirrors hok
    rw [hnext.look_eq, hmirrors.look_eq, hheld, if_neg hother]
  case missing =>
    intro collection hmissing
    rw [hmirrors.respond_holds] at hmissing
    have habsent : v.collections.contains collection = false := Except.ok.inj hmissing
    refine ⟨fun key withEmbedding => comesToNothing_of_holds hmirrors habsent rfl,
      fun key => comesToNothing_of_holds hmirrors habsent rfl, fun query limit least withEmbeddings => ?_⟩
    by_cases hlimit : limit = 0
    · -- a search for no records does not even ask for the collection
      have hsearch : (inPlace location embedder).search collection query limit least withEmbeddings = pure [] :=
        if_pos hlimit
      rw [hsearch]
      exact ⟨rfl, fun r hr => absurd hr List.not_mem_nil, rfl⟩
    · rw [search, if_neg hlimit]
      exact comesToNothing_of_holds hmirrors habsent rfl

/-- Makes vectors as long as the texts: some do not go together, and that of no text is empty. -/
def lengthEmbedder : Embedder where
  embed texts := pure (texts.map fun text => List.replicate text.length ⟨1⟩)

/-- A world whose private database holds a note with a vector of one number. -/
def worldWithNote : World where
  tables := StoreLocation.privateTables.after [.create "notes",
    .upsert "notes" { metadata := { id := "a", text := "x" }, embedding := [⟨1⟩] }]

/-- A service behind the network that nobody answers for. -/
def silentService : RemoteModel := .atAddress "http://localhost" "key" "model"

/-- So is one over tables with a note in them whose vectors do not go together, and one over new collections
whose vectors are made behind the network. -/
theorem faithful_local_and_remote :
    (lengthEmbedder.Spares .privateTables ∧
      StoreLocation.privateTables.Reached (World.tablesKeeper.content worldWithNote) ∧
        Faithful World.tablesKeeper lengthEmbedder worldWithNote) ∧
    silentService.embedder.Spares .volatile ∧
      StoreLocation.volatile.Reached (World.volatileKeeper.content {}) ∧
        Faithful World.volatileKeeper silentService.embedder {} := by
  have hspares : lengthEmbedder.Spares .privateTables := fun _ => Effect.spares_pure _
  have hreached : StoreLocation.privateTables.Reached (World.tablesKeeper.content worldWithNote) :=
    StoreLocation.reached_after (by decide)
  have hremote : silentService.embedder.Spares .volatile := RemoteModel.embedder_spares _ _
  exact ⟨⟨hspares, hreached, faithful World.tablesKeeper hspares hreached⟩, hremote, .fresh,
    faithful World.volatileKeeper hremote .fresh⟩

end Reliance

end Semantic

end Orchestration.Memory
