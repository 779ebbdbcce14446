import Orchestration.Proofs.ConsideredRecords
import Orchestration.Proofs.FrontEnds
import Orchestration.Proofs.SemanticMemory

/-!
# One memory for both front ends

What is saved through the tools or through the functions of the kernel is in the store for either of them, under the
collection that the front end means and the key that comes back. A call of the other finds it and takes it away if that
means the same collection, and is about another record if not.

* `StoreLocation.LeftAt` — two states of a store that differ at one place.
* `FrontEnd.Saved` — what a save leaves, and `FrontEnd.saved_of_saves`.
* `FrontEnd.Reaches` — what the calls of a front end do about a record, and `FrontEnd.reaches`.
* `FrontEnd.AskAlike` — what they ask of any store, and `FrontEnd.askAlike`.
* `FrontEnd.shareMemory` — all of it together, for any configuration and any names.
-/

namespace Orchestration

open Memory Text

/-! ### Stores before and after -/

namespace StoreLocation

variable {location : StoreLocation} {s after : location.State} {steps : List StoreStep}

/-- What is left under a collection and a key is the one difference between what is found before and after. -/
def LeftAt (location : StoreLocation) (collection key : String) (left : Option Record) (before after : location.State) :
    Prop :=
  ∀ other name, location.look after other name =
    if other = collection ∧ name = key then .ok left else location.look before other name

/-- Steps that save and remove lead to states that are reached. -/
theorem Reached.serves (h : location.Reached s) (hserves : Serves location.respond s steps after)
    (hsaving : ∀ step ∈ steps, step.call.isSaving) : location.Reached after := by
  have hatomic (call : Call) (hcall : call.isSaving) : location.isAtomic call := by
    cases location <;> cases call <;> first | rfl | cases hcall
  exact hserves.keeps location.Reached (·.isSaving)
    (fun _ call hcall hreached => hreached.step call (hatomic call hcall)) hsaving h

end StoreLocation

namespace FrontEnd

variable {location : StoreLocation} {log : List (Exchange Outside)}

/-! ### Runs of calls -/

/-- What a program asks is asked in each of its runs, and a value is shown as such. -/
theorem Asks.ends {α : Type} {p : Effect String String} {question : Effect MemoryError α} {shown : α → String}
    (h : Asks p question shown) {outcome : Except String String} (hends : Ends p log outcome) :
    ∃ inner word, Ends question log inner ∧ outcome = (inner.mapError word).map shown := by
  obtain ⟨word, rfl⟩ := h
  rcases ends_bind.mp hends with ⟨e, hfirst, rfl⟩ | ⟨first, value, later, hfirst, hlater, rfl⟩
  · obtain ⟨inner, hinner, hvalue⟩ := Effect.ends_mapError.mp hfirst
    exact ⟨inner, word, hinner, by rw [← hvalue]; rfl⟩
  · obtain ⟨inner, hinner, hvalue⟩ := Effect.ends_mapError.mp hfirst
    obtain ⟨rfl, rfl⟩ := ends_pure.mp hlater
    exact ⟨inner, word, by rwa [List.append_nil], by rw [← hvalue]; rfl⟩

/-- A value comes from a value. -/
theorem Asks.ends_ok {α : Type} {p : Effect String String} {question : Effect MemoryError α} {shown : α → String}
    (h : Asks p question shown) {answer : String} (hends : Ends p log (.ok answer)) :
    ∃ value, Ends question log (.ok value) ∧ answer = shown value := by
  obtain ⟨inner, word, hinner, houtcome⟩ := h.ends hends
  cases inner with
  | error e => cases houtcome
  | ok value => exact ⟨value, hinner, Except.ok.inj houtcome⟩

/-- The key that is given is chosen. -/
theorem chosen_of_given {front : FrontEnd} {key : Option String} {given : String} (h : given? key = some given) :
    front.chosen key = pure given := by
  cases front with
  | tools => rw [chosen, keyOr_eq, h]
  | functions => rw [chosen, h]

/-- A key is chosen without the store, and is the one that is given if one is. -/
theorem ends_chosen {front : FrontEnd} {key : Option String} {name : String}
    (h : Ends (front.chosen key) log (.ok name)) :
    location.steps log = [] ∧ ∀ given, given? key = some given → name = given := by
  cases hgiven : given? key with
  | some given =>
    rw [chosen_of_given hgiven] at h
    obtain ⟨rfl, hname⟩ := ends_pure.mp h
    refine ⟨rfl, fun other hother => ?_⟩
    rw [Except.ok.inj hname, Option.some.inj hother]
  | none =>
    refine ⟨?_, fun given h => by cases h⟩
    cases front with
    | tools =>
      rw [chosen, keyOr_eq, hgiven] at h
      obtain ⟨answer, rfl, -⟩ := Effect.ends_ask.mp h
      rfl
    | functions =>
      rw [chosen, hgiven] at h
      cases (ends_throw.mp h).2

/-! ### Saving -/

/-- **What a save leaves**: a record of the text, under the key that is given if one is, in the collection that the
front end means; key and collection are what a tool comes back with. -/
structure Saved (location : StoreLocation) (embedder : Embedder) (c : Config) (front : FrontEnd) (text : String)
    (key requested : Option String) (answer : String) (before after : location.State) (filed : String)
    (record : Record) : Prop where
  /-- it is under the key that is given -/
  named : ∀ name, given? key = some name → filed = name
  /-- it has the text -/
  spells : record.metadata.text = text
  /-- and a vector of it -/
  vector : embedder.Makes text record.embedding
  /-- it is in the collection that the front end means, and nothing else changed -/
  left : location.LeftAt (front.collection c requested) filed (some record) before after
  /-- a tool comes back with both -/
  comesBack : answer = front.savedAnswer (front.collection c requested) filed

section Memory

variable {τ : Type} {world : Program.Surroundings Outside τ} {k : Keeper location world} {embedder : Embedder}
  {c : Config} {completion : Option Completion} {w : τ} {front : FrontEnd} {p : Effect String String}
  {text answer : String} {key requested : Option String}

/-- **A save that succeeds** leaves its record, in a state that is reached. -/
theorem saved_of_saves (hspares : embedder.Spares location) (hreached : location.Reached (k.content w))
    (h : Saves (.assemble c (.inPlace location) (some embedder) completion) text key requested front p)
    (hanswer : (p.aftermath world w).outcome = .ok answer) :
    ∃ filed record, location.Reached (k.content (p.aftermath world w).later) ∧
      Saved location embedder c front text key requested answer (k.content w)
        (k.content (p.aftermath world w).later) filed record := by
  obtain ⟨log, hends, -, hserves⟩ := k.exists_ends p w
  rw [hanswer] at hends
  obtain ⟨v, hmirrors⟩ := hreached.mirrors
  rcases h.asks with ⟨-, message, rfl⟩ | ⟨-, description, metadata, filing, rfl, hasks⟩
  · cases (ends_throw.mp hends).2
  rcases ends_bind.mp hends with ⟨e, -, herror⟩ | ⟨first, chosen, later, hchosen, hfiling, rfl⟩
  · cases herror
  obtain ⟨hnone, hgiven⟩ : location.steps first = [] ∧ ∀ given, given? key = some given → chosen = given :=
    ends_chosen hchosen
  obtain ⟨filed, hsave, rfl⟩ := (hasks chosen).ends_ok hfiling
  rw [StoreLocation.steps_append, hnone, List.nil_append] at hserves
  let d : Deposit := .ofText text chosen description metadata
  have hdeposit : Ends ((Semantic.inPlace location embedder).deposit (front.collection c requested) d) later
      (.ok filed) := hsave
  obtain ⟨vector, time, next, hmakes, hfiled, -, hnext, hheld⟩ :=
    Semantic.saved_of_ends hspares hmirrors hdeposit hserves
  refine ⟨filed, location.kept (d.record vector time).filed,
    hreached.serves hserves (Semantic.isSaving_of_ends hspares hdeposit), ?_⟩
  constructor
  case named => exact fun name hname => hfiled.trans (hgiven name hname)
  case spells => cases location <;> rfl
  case vector => cases location <;> exact hmakes
  case left =>
    intro other name
    rw [hnext.look_eq, hmirrors.look_eq, hheld]
    split <;> rfl
  case comesBack => rfl

/-! ### Finding and removing -/

/-- **What the calls of a front end do about a record** that is held in a collection: those that ask for one that it
takes for that collection deal with the record, and the others leave it alone. -/
structure Reaches (k : Keeper location world) (c : Config) (embedder : Embedder) (completion : Option Completion)
    (w : τ) (collection key : String) (record : Record) (front : FrontEnd) (requested : Option String) : Prop where
  /-- a removal succeeds, and takes away what is held where the front end means, and nothing else -/
  removed : ∀ p, Removes (.assemble c (.inPlace location) (some embedder) completion) key requested front p →
    (p.aftermath world w).outcome = .ok (front.removedAnswer (front.collection c requested) key) ∧
      location.LeftAt (front.collection c requested) key none (k.content w) (k.content (p.aftermath world w).later)
  /-- so the record is gone after it if that is its collection, and is still there if not -/
  gone : ∀ p, Removes (.assemble c (.inPlace location) (some embedder) completion) key requested front p →
    location.look (k.content (p.aftermath world w).later) collection key =
      .ok (if front.collection c requested = collection then none else some record)
  /-- a search there fails only if no vector is made of the query, or one of another length, and otherwise it considers
  the record by how close it is to that vector -/
  found : ∀ query limit least p,
    Recalls (.assemble c (.inPlace location) (some embedder) completion) query requested limit least front p →
      front.collection c requested = collection → 0 < limit → record.embedding ≠ [] →
        (embedder.Fails query ∧ ∃ message, (p.aftermath world w).outcome = .error message) ∨
          ∃ vector, embedder.Makes query vector ∧ (vector.length = record.embedding.length →
            ∃ hits, (p.aftermath world w).outcome = .ok (front.foundAnswer limit
                (hits.map fun hit => Found.ofRecord hit.record hit.relevance)) ∧
              Considered hits limit least (location.closeness record.embedding vector) record.metadata)

/-- **Calls find and remove** a record that is held in the collection that they mean. -/
theorem reaches (k : Keeper location world) (hspares : embedder.Spares location) (c : Config)
    (completion : Option Completion) (hreached : location.Reached (k.content w)) {collection key : String}
    {record : Record} (hlook : location.look (k.content w) collection key = .ok (some record)) (front : FrontEnd)
    (requested : Option String) : Reaches k c embedder completion w collection key record front requested := by
  obtain ⟨v, hmirrors⟩ := hreached.mirrors
  have hremoved (p : Effect String String)
      (hp : Removes (.assemble c (.inPlace location) (some embedder) completion) key requested front p) :
      (p.aftermath world w).outcome = .ok (front.removedAnswer (front.collection c requested) key) ∧
        location.LeftAt (front.collection c requested) key none (k.content w)
          (k.content (p.aftermath world w).later) := by
    obtain ⟨log, hends, -, hserves⟩ := k.exists_ends p w
    obtain ⟨inner, word, hinner, houtcome⟩ := hp.asks.ends hends
    obtain ⟨rfl, next, hnext, hheld⟩ := Semantic.removed_of_ends hmirrors hinner hserves
    refine ⟨houtcome, fun other name => ?_⟩
    rw [hnext.look_eq, hmirrors.look_eq, hheld]
    split <;> rfl
  constructor
  case removed => exact hremoved
  case gone =>
    intro p hp
    rw [(hremoved p hp).2, hlook]
    by_cases hsame : collection = front.collection c requested
    · rw [if_pos ⟨hsame, rfl⟩, if_pos hsame.symm]
    · rw [if_neg fun h => hsame h.1, if_neg (Ne.symm hsame)]
  case found =>
    intro query limit least p hp hsame hlimit hvector
    obtain ⟨log, hends, -, hserves⟩ := k.exists_ends p w
    obtain ⟨inner, word, hsearch, houtcome⟩ := hp.asks.ends hends
    rw [hsame] at hsearch
    have hthere : v.collections.contains collection = true := by
      rw [hmirrors.look_eq] at hlook
      obtain ⟨held, hheld, -⟩ := Option.map_eq_some_iff.mp (Except.ok.inj hlook)
      obtain ⟨records, hcollection, -⟩ := Option.bind_eq_some_iff.mp hheld
      exact Dictionary.contains_of_get? hcollection
    rcases Semantic.searched_of_ends hspares hmirrors hsearch hserves (Nat.ne_of_gt hlimit) hthere with
      ⟨hfails, e, rfl⟩ | ⟨vector, hmakes, rfl⟩
    · exact .inl ⟨hfails, word e, houtcome⟩
    · refine .inr ⟨vector, hmakes, fun hlength => ?_⟩
      obtain ⟨hits, hhits, hconsidered⟩ :=
        hreached.exists_considered hlook hvector hlength (Nat.ne_of_gt hlimit) least false
      refine ⟨hits, houtcome.trans ?_, hconsidered⟩
      rw [StoreLocation.search] at hhits
      rw [hhits]
      rfl

/-! ### Both front ends -/

/-- **Both front ends ask a memory the same**, whatever its store, about the collections that they mean. -/
structure AskAlike (c : Config) (store : Store) (embedder : Embedder) (completion : Option Completion) : Prop where
  /-- a call that saves a text under a key asks to save it -/
  saves : ∀ front text key requested p,
    Saves (.assemble c store (some embedder) completion) text (some key) requested front p →
      isBlankText text = false → isBlankText key = false → ∃ description metadata,
        Asks p ((Semantic.mk store embedder).save (front.collection c requested) text key description metadata)
          (front.savedAnswer (front.collection c requested))
  /-- a call that removes asks to remove -/
  removes : ∀ front key requested p, Removes (.assemble c store (some embedder) completion) key requested front p →
    Asks p ((Semantic.mk store embedder).remove (front.collection c requested) key)
      fun _ => front.removedAnswer (front.collection c requested) key
  /-- a call that searches asks to search -/
  recalls : ∀ front query requested limit least p,
    Recalls (.assemble c store (some embedder) completion) query requested limit least front p →
      Asks p ((Semantic.mk store embedder).search (front.collection c requested) query limit least false)
        (front.foundAnswer limit)

theorem askAlike (c : Config) (store : Store) (embedder : Embedder) (completion : Option Completion) :
    AskAlike c store embedder completion where
  saves front text key requested p h htext hkey := by
    rcases h.asks with ⟨hblank, -⟩ | ⟨-, description, metadata, filing, rfl, hasks⟩
    · cases hblank.symm.trans htext
    · rw [chosen_of_given (given?_of_text hkey), pure_bind]
      exact ⟨description, metadata, hasks key⟩
  removes _ _ _ _ h := h.asks
  recalls _ _ _ _ _ _ h := h.asks

/-- **The front ends share one memory**, as far as they mean the same collection. Given the same name they do so unless
there are blanks around it, and a tool that is given the name that a tool came back with means the same collection again
unless that is the one of the configuration and there are blanks around that. Whatever the store, they ask it the same
about the collection that they mean. In a store of this process a record that is saved through either of them is then in
that collection, under the key that comes back, and a call of either of them about that key removes it, or considers it
in a search, if the collection that this means is the same; if not, it is still there. -/
theorem shareMemory (k : Keeper location world) (hspares : embedder.Spares location)
    (hreached : location.Reached (k.content w)) (c : Config) (completion : Option Completion) :
    (∀ requested, tools.collection c requested = functions.collection c requested ↔ ∀ name ∈ requested, ¬Padded name) ∧
    (∀ requested, tools.collection c (some (tools.collection c requested)) = tools.collection c requested ↔
      (∃ name ∈ requested, isBlankText name = false) ∨ ¬Padded c.storage.defaultCollection) ∧
    (∀ store, AskAlike c store embedder completion) ∧
    ∀ front text key requested p answer,
      Saves (.assemble c (.inPlace location) (some embedder) completion) text key requested front p →
        (p.aftermath world w).outcome = .ok answer →
          ∃ filed record, Saved location embedder c front text key requested answer (k.content w)
              (k.content (p.aftermath world w).later) filed record ∧
            ∀ other asked, Reaches k c embedder completion (p.aftermath world w).later (front.collection c requested)
              filed record other asked := by
  refine ⟨fun _ => collection_eq_iff, fun _ => collection_again_iff,
    fun store => askAlike c store embedder completion, ?_⟩
  intro front text key requested p answer hp hanswer
  obtain ⟨filed, record, hafter, hsaved⟩ := saved_of_saves hspares hreached hp hanswer
  have hlook := (hsaved.left (front.collection c requested) filed).trans (if_pos ⟨rfl, rfl⟩)
  exact ⟨filed, record, hsaved, fun other asked => reaches k hspares c completion hafter hlook other asked⟩

end Memory

/-- A configuration in which nothing is set but the collection for calls that name none. -/
def configFor (defaultCollection : String) : Config :=
  { Config.initial none with storage := { databasePath := "memory.db", defaultCollection } }

/-- Services over new collections, in which vectors are as long as the texts. -/
def servicesFor (defaultCollection : String) : Services :=
  .assemble (configFor defaultCollection) (.inPlace .volatile) (some Semantic.lengthEmbedder) none

/-- A record that the tool saves in a collection without blanks around its name is found and removed by both. -/
theorem shareMemory_animals :
    Semantic.lengthEmbedder.Spares .volatile ∧ StoreLocation.volatile.Reached (World.volatileKeeper.content {}) ∧
      let p := ToolEffect.saveMemory (servicesFor "generic") "cats" (some "a") (some "animals") none none
      ∃ answer record, (p.aftermath World.answer {}).outcome = .ok answer ∧
        answer = tools.savedAnswer "animals" "a" ∧ record.metadata.text = "cats" ∧
          ∀ other, Reaches World.volatileKeeper (configFor "generic") Semantic.lengthEmbedder none
            (p.aftermath World.answer {}).later "animals" "a" record other (some "animals") := by
  have hspares : Semantic.lengthEmbedder.Spares .volatile := fun _ => Effect.spares_pure _
  refine ⟨hspares, .fresh, ?_⟩
  intro p
  have hsaves : Saves (servicesFor "generic") "cats" (some "a") (some "animals") .tools p := .tools none none
  have hanswer : (p.aftermath World.answer {}).outcome = .ok (tools.savedAnswer "animals" "a") := rfl
  obtain ⟨filed, record, hsaved, hreaches⟩ :=
    (shareMemory World.volatileKeeper hspares .fresh (configFor "generic") none).2.2.2 _ _ _ _ _ _ hsaves hanswer
  obtain rfl := hsaved.named "a" (given?_of_text (by decide))
  have hcollection : tools.collection (configFor "generic") (some "animals") = "animals" := by decide
  rw [hcollection] at hreaches
  exact ⟨_, record, hanswer, rfl, hsaved.spells, fun other => hreaches other (some "animals")⟩

/-- **Blanks part the front ends.** The function for it does not remove what the tool saved, given the same name with
blanks around it, and the tool for it does not either, given the name with blanks that the other tool came back with. -/
theorem removal_leavesPadded :
    let saved := (ToolEffect.saveMemory (servicesFor "generic") "cats" (some "a") (some " animals ") none
      none).aftermath World.answer {}
    let removed := (ToolEffect.invokeFunction (servicesFor "generic") "memory.remove" none
      (.ofList [("collection", " animals "), ("key", "a")])).aftermath World.answer saved.later
    let savedThere := (ToolEffect.saveMemory (servicesFor " notes ") "cats" (some "a") none none none).aftermath
      World.answer {}
    let removedThere := (ToolEffect.removeMemory (servicesFor " notes ") "a" (some " notes ")).aftermath
      World.answer savedThere.later
    (saved.outcome = .ok (tools.savedAnswer "animals" "a") ∧ removed.outcome = .ok "" ∧
        (removed.later.collections.held "animals" "a").isSome) ∧
      savedThere.outcome = .ok (tools.savedAnswer " notes " "a") ∧
        removedThere.outcome = .ok (tools.removedAnswer "notes" "a") ∧
          (removedThere.later.collections.held " notes " "a").isSome := by
  decide +kernel

end FrontEnd

end Orchestration
