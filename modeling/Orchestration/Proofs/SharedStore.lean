import Mathlib.Data.List.Induction
import Orchestration.Proofs.SemanticMemory

/-!
# A store that is shared

Clients of one store save and remove at the same time: each of them is somewhere in its own program, and the
store takes their steps in any order. That a collection is missing is seen in one step and mended in another, so
two first saves may both make it; the one that comes second finds it made, and loses no record in it.

* `SharedRun` — clients at one store, with any interleaving of their questions.
* `lastLeft?` — what the last of some steps leaves under a collection and a key.
* `Volatile.held_answer`, `Volatile.held_of_serves` — what one step leaves, and what a run leaves.
* `SharedRun.Sound` — what clients may rely on, and `SharedRun.sound`, that they may.
-/

namespace Orchestration.Memory

/-! ### Clients -/

/-- A client of a store, by what it does there. One that does several things in a row is several of these, with
the order of its questions one of those that they can be put in. -/
inductive Client where
  /-- saves a text, or where one is kept -/
  | save (embedder : Embedder) (collection : String) (deposit : Deposit)
  /-- takes away what is saved under a key, as a semantic memory does -/
  | forget (embedder : Embedder) (collection key : String)
  /-- takes a record away -/
  | remove (collection key : String)

namespace Client

/-- What the client does; the key that comes back is that of a save. -/
def program (location : StoreLocation) : Client → Effect MemoryError (Option String)
  | .save embedder collection deposit => do
    let key ← (Semantic.inPlace location embedder).deposit collection deposit
    return some key
  | .forget embedder collection key => do
    (Semantic.inPlace location embedder).remove collection key
    return none
  | .remove collection key => do
    let _ ← (Store.inPlace location).call (.remove collection key)
    return none

/-- What makes the vectors of the client leaves the store alone. -/
def Spares (location : StoreLocation) : Client → Prop
  | .save embedder .. => embedder.Spares location
  | _ => True

end Client

/-- The exchanges of one client among those of all. -/
def own {n : Nat} (i : Fin n) (log : List (Fin n × Exchange Outside)) : List (Exchange Outside) :=
  log.filterMap fun x => if x.1 = i then some x.2 else none

/-- **Clients at one store.** Their questions are put in any order in which each client keeps to its program, to
the end; the store answers its calls one after the other, and everything else is answered by anything at all. -/
structure SharedRun {n : Nat} (location : StoreLocation) (clients : Fin n → Client) (s : location.State)
    (log : List (Fin n × Exchange Outside)) (outcomes : Fin n → Except MemoryError (Option String))
    (after : location.State) : Prop where
  /-- each client runs its program -/
  ends : ∀ i, Ends ((clients i).program location) (own i log) (outcomes i)
  /-- the store serves the steps of all -/
  serves : Serves location.respond s (location.steps (log.map (·.2))) after

/-! ### What steps leave -/

/-- What a step leaves under a collection and a key if it writes there: a record that is filed, or none. A step
that is refused writes nothing. -/
def StoreStep.leaves? (collection key : String) : StoreStep → Option (Option Record)
  | ⟨.upsert other record, .ok _⟩ =>
    if collection = other ∧ key = record.effectiveKey then some (some record.filed) else none
  | ⟨.remove other removed, _⟩ => if collection = other ∧ key = removed then some none else none
  | _ => none

theorem StoreStep.leaves?_upsert (collection key other filed : String) (record : Record) :
    StoreStep.leaves? collection key ⟨.upsert other record, .ok filed⟩ =
      if collection = other ∧ key = record.effectiveKey then some (some record.filed) else none :=
  rfl

/-- What the last step leaves that writes under a collection and a key, if one does. -/
def lastLeft? (steps : List StoreStep) (collection key : String) : Option (Option Record) :=
  steps.reverse.findSome? (·.leaves? collection key)

theorem lastLeft?_concat (steps : List StoreStep) (step : StoreStep) (collection key : String) :
    lastLeft? (steps ++ [step]) collection key =
      (step.leaves? collection key).or (lastLeft? steps collection key) := by
  rw [lastLeft?, List.reverse_concat, List.findSome?_cons]
  cases step.leaves? collection key <;> rfl

namespace Volatile

/-- **One step** leaves what it writes, and everything else as it was. -/
theorem held_answer (v : Volatile) {call : Call} (hsaving : call.isSaving) (collection key : String) :
    (v.answer call).2.held collection key =
      (StoreStep.leaves? collection key ⟨call, (v.answer call).1⟩).getD (v.held collection key) := by
  cases call with
  | create name => exact held_create v name collection key
  | remove name removed =>
    rw [StoreStep.leaves?]
    refine (held_remove v name removed collection key).trans ?_
    split <;> rfl
  | upsert name record =>
    cases hupsert : (v.answer (.upsert name record)).1 with
    | error e => exact congrArg (Volatile.held · collection key) (upsert_of_error hupsert)
    | ok filed =>
      refine (held_upsert hupsert collection key).trans ?_
      obtain rfl := upsert_key hupsert
      by_cases hat : collection = name ∧ key = record.effectiveKey
      · rw [if_pos hat, StoreStep.leaves?_upsert, if_pos hat, Option.getD_some]
      · rw [if_neg hat, StoreStep.leaves?_upsert, if_neg hat, Option.getD_none]
  | holds name => rfl
  | _ => cases hsaving

/-- **In the end** a store holds what the last step left that wrote there, and what it held before where none
did. -/
theorem held_of_serves {v after : Volatile} {steps : List StoreStep}
    (hserves : Serves Volatile.answer v steps after) (hsaving : ∀ step ∈ steps, step.call.isSaving)
    (collection key : String) :
    after.held collection key = (lastLeft? steps collection key).getD (v.held collection key) := by
  induction steps using List.reverseRecOn generalizing after with
  | nil =>
    obtain rfl := hserves
    rfl
  | append_singleton steps step ih =>
    obtain ⟨middle, hsteps, hanswer, rfl⟩ := serves_append.mp hserves
    have hmiddle := ih hsteps fun other hother => hsaving other (List.mem_append_left _ hother)
    rw [held_answer middle (hsaving step (List.mem_append_right _ List.mem_cons_self)), hmiddle, ← hanswer,
      lastLeft?_concat]
    cases step.leaves? collection key <;> rfl

/-- No step takes a collection away. -/
theorem contains_answer {v : Volatile} {call : Call} (hsaving : call.isSaving) {collection : String}
    (hthere : v.collections.contains collection = true) :
    (v.answer call).2.collections.contains collection = true := by
  cases call with
  | create name =>
    rcases create_cases v name with hanswer | ⟨-, hanswer⟩ | ⟨-, hanswer⟩
    · rw [hanswer, hthere]
    · rw [hanswer, hthere]
    · rw [hanswer, Dictionary.contains_insert, hthere, Bool.or_true]
  | remove name removed => exact (contains_remove v name removed collection).trans hthere
  | upsert name record => exact (contains_upsert v name record collection).trans hthere
  | holds name => exact hthere
  | _ => cases hsaving

section Shown

variable {v after : Volatile} {steps : List StoreStep} {collection : String}

theorem contains_of_serves (hserves : Serves Volatile.answer v steps after)
    (hsaving : ∀ step ∈ steps, step.call.isSaving) (hthere : v.collections.contains collection = true) :
    after.collections.contains collection = true :=
  hserves.keeps (fun v => v.collections.contains collection = true) (·.isSaving)
    (fun _ _ hasked hbefore => contains_answer hasked hbefore) hsaving hthere

/-- A collection that was seen or made stays. -/
theorem contains_of_shown (hserves : Serves Volatile.answer v steps after)
    (hsaving : ∀ step ∈ steps, step.call.isSaving)
    (hshown : ⟨.holds collection, .ok true⟩ ∈ steps ∨ ⟨.create collection, .ok ()⟩ ∈ steps) :
    after.collections.contains collection = true := by
  -- what comes after the step that shows the collection keeps it
  have hstays : ∀ {before later : List StoreStep} {step : StoreStep} {middle : Volatile},
      steps = before ++ step :: later → Serves Volatile.answer middle later after →
        middle.collections.contains collection = true → after.collections.contains collection = true := by
    rintro before later step middle rfl hlater
    exact contains_of_serves hlater fun other hother =>
      hsaving other (List.mem_append_right _ (List.mem_cons_of_mem _ hother))
  rcases hshown with hmem | hmem
  · obtain ⟨before, middle, later, hsteps, -, hanswer, hlater⟩ := hserves.exists_of_mem hmem
    exact hstays hsteps hlater (Except.ok.inj hanswer).symm
  · obtain ⟨before, middle, later, hsteps, -, hanswer, hlater⟩ := hserves.exists_of_mem hmem
    refine hstays hsteps hlater ?_
    rcases create_cases middle collection with hcreate | ⟨hthere, hcreate⟩ | ⟨-, hcreate⟩
    · cases hanswer.trans (congrArg Prod.fst hcreate)
    · rw [hcreate, hthere]
    · rw [hcreate, Dictionary.contains_insert, decide_eq_true rfl, Bool.true_or]

/-- Where a collection is there from the start, no record is refused for want of it. -/
theorem upsert_found (hserves : Serves Volatile.answer v steps after)
    (hsaving : ∀ step ∈ steps, step.call.isSaving) (hthere : v.collections.contains collection = true)
    {record : Record} {name : String} :
    ⟨.upsert collection record, .error (.collectionNotFound name)⟩ ∉ steps := by
  intro hmem
  obtain ⟨before, middle, later, rfl, hbefore, hanswer, -⟩ := hserves.exists_of_mem hmem
  have hmiddle := contains_of_serves hbefore
    (fun other hother => hsaving other (List.mem_append_left _ hother)) hthere
  cases hmiddle.symm.trans ((upsert_collectionNotFound_iff middle collection record name).mp hanswer.symm).2

end Shown

end Volatile

/-! ### Steps of one client and of all -/

section Own

variable {n : Nat} {i : Fin n} {location : StoreLocation} {log : List (Fin n × Exchange Outside)}

/-- What comes later in the steps of one client comes later among those of all. -/
theorem exists_split_of_own {first later : List StoreStep} (h : location.steps (own i log) = first ++ later) :
    ∃ before after, log = before ++ after ∧ location.steps (own i before) = first ∧
      location.steps (own i after) = later := by
  rw [StoreLocation.steps, own, List.filterMap_filterMap] at h
  obtain ⟨before, after, rfl, hbefore, hafter⟩ := List.filterMap_eq_append_iff.mp h
  refine ⟨before, after, rfl, ?_, ?_⟩
  · rw [StoreLocation.steps, own, List.filterMap_filterMap, hbefore]
  · rw [StoreLocation.steps, own, List.filterMap_filterMap, hafter]

/-- The steps of all are those of the clients. -/
theorem mem_steps_iff {step : StoreStep} :
    step ∈ location.steps (log.map (·.2)) ↔ ∃ i, step ∈ location.steps (own i log) := by
  rw [StoreLocation.steps, List.filterMap_map, List.mem_filterMap]
  constructor
  · rintro ⟨⟨i, x⟩, hmem, hstep⟩
    exact ⟨i, List.mem_filterMap.mpr ⟨x, List.mem_filterMap.mpr ⟨(i, x), hmem, if_pos rfl⟩, hstep⟩⟩
  · rintro ⟨i, hmem⟩
    obtain ⟨x, hx, hstep⟩ := List.mem_filterMap.mp hmem
    obtain ⟨⟨other, y⟩, hy, hown⟩ := List.mem_filterMap.mp hx
    obtain ⟨-, hxy⟩ := Option.ite_none_right_eq_some.mp hown
    obtain rfl := Option.some.inj hxy
    exact ⟨(other, _), hy, hstep⟩

end Own

/-! ### What a client does to the store -/

namespace Client

variable {location : StoreLocation} {log : List (Exchange Outside)}
  {outcome : Except MemoryError (Option String)}

/-- A save is a deposit, of which the key comes back. -/
theorem deposit_of_save {embedder : Embedder} {collection : String} {d : Deposit}
    (h : Ends ((save embedder collection d).program location) log outcome) :
    ∃ filed, Ends ((Semantic.inPlace location embedder).deposit collection d) log filed ∧
      outcome = filed.map some := by
  rcases ends_bind.mp h with ⟨e, hdeposit, rfl⟩ | ⟨first, key, later, hdeposit, hlater, rfl⟩
  · exact ⟨_, hdeposit, rfl⟩
  · obtain ⟨rfl, rfl⟩ := ends_pure.mp hlater
    exact ⟨_, by rwa [List.append_nil], rfl⟩

/-- A save fails before it uses the store, or files its record, under the key that comes back. -/
theorem filing_of_save {embedder : Embedder} (hspares : embedder.Spares location) {collection : String}
    {d : Deposit} (h : Ends ((save embedder collection d).program location) log outcome) :
    (location.steps log = [] ∧ ∃ message, outcome = .error (.embedding message)) ∨
      ∃ vector time filed, Semantic.Filing collection (d.record vector time) (location.steps log) filed ∧
        outcome = filed.map some := by
  obtain ⟨filed, hdeposit, rfl⟩ := deposit_of_save h
  rcases Semantic.steps_deposit hspares hdeposit with ⟨hnone, message, rfl⟩ | ⟨vector, time, -, hfiling⟩
  · exact .inl ⟨hnone, message, rfl⟩
  · exact .inr ⟨vector, time, filed, hfiling, rfl⟩

/-- The steps of the store while a record is taken away, and how that ends. -/
inductive Removing (collection key : String) : List StoreStep → Except MemoryError (Option String) → Prop where
  /-- the store does not say whether the collection is there -/
  | unsaid (e : MemoryError) : Removing collection key [⟨.holds collection, .error e⟩] (.error e)
  /-- the collection is missing -/
  | missing : Removing collection key [⟨.holds collection, .ok false⟩] (.ok none)
  /-- the collection is there -/
  | there (answer : Except MemoryError Unit) : Removing collection key
      [⟨.holds collection, .ok true⟩, ⟨.remove collection key, answer⟩] (answer.map fun _ => none)
  /-- nobody asks -/
  | unasked (answer : Except MemoryError Unit) : Removing collection key
      [⟨.remove collection key, answer⟩] (answer.map fun _ => none)

/-- A program that gives back no key ends as its part does. -/
theorem ends_keyless {t : Effect MemoryError Unit}
    (h : Ends (do t; return none : Effect MemoryError (Option String)) log outcome) :
    ∃ inner, Ends t log inner ∧ outcome = inner.map fun _ => none := by
  rcases ends_bind.mp h with ⟨e, ht, rfl⟩ | ⟨first, ⟨⟩, later, ht, hlater, rfl⟩
  · exact ⟨_, ht, rfl⟩
  · obtain ⟨rfl, rfl⟩ := ends_pure.mp hlater
    exact ⟨_, by rwa [List.append_nil], rfl⟩

theorem removing_of_forget {embedder : Embedder} {collection key : String}
    (h : Ends ((forget embedder collection key).program location) log outcome) :
    Removing collection key (location.steps log) outcome := by
  obtain ⟨inner, hinner, rfl⟩ := ends_keyless h
  rcases Store.ends_inPlace_bind.mp hinner with ⟨e, rfl, rfl⟩ | ⟨there, rest, hrest, rfl⟩
  · rw [StoreLocation.steps_exchange]
    exact .unsaid e
  · rw [StoreLocation.steps_exchange]
    cases there with
    | false =>
      obtain ⟨rfl, rfl⟩ := ends_pure.mp hrest
      exact .missing
    | true =>
      rw [StoreLocation.steps_of_ends hrest]
      exact .there inner

theorem removing_of_remove {collection key : String}
    (h : Ends ((remove collection key).program location) log outcome) :
    Removing collection key (location.steps log) outcome := by
  obtain ⟨inner, hinner, rfl⟩ := ends_keyless h
  rw [StoreLocation.steps_of_ends hinner]
  exact .unasked inner

theorem Removing.isSaving {collection key : String} {steps : List StoreStep}
    (h : Removing collection key steps outcome) : ∀ step ∈ steps, step.call.isSaving := by
  cases h <;> simp [Call.isSaving]

/-- **Clients** ask for collections and make them, and file and take away single records. -/
theorem isSaving_of_ends {client : Client} (hspares : client.Spares location)
    (h : Ends (client.program location) log outcome) : ∀ step ∈ location.steps log, step.call.isSaving := by
  cases client with
  | save embedder collection d =>
    obtain ⟨filed, hdeposit, -⟩ := deposit_of_save h
    exact Semantic.isSaving_of_ends hspares hdeposit
  | forget embedder collection key => exact (removing_of_forget h).isSaving
  | remove collection key => exact (removing_of_remove h).isSaving

end Client

/-! ### What clients may rely on -/

namespace SharedRun

variable {n : Nat} {location : StoreLocation} {clients : Fin n → Client} {s after : location.State}
  {log : List (Fin n × Exchange Outside)} {outcomes : Fin n → Except MemoryError (Option String)}

/-- What the clients of a store that is shared may rely on. -/
structure Sound (location : StoreLocation) (clients : Fin n → Client) (s : location.State)
    (log : List (Fin n × Exchange Outside)) (outcomes : Fin n → Except MemoryError (Option String))
    (after : location.State) : Prop where
  /-- nobody fails for want of a collection -/
  found : ∀ i name, outcomes i ≠ .error (.collectionNotFound name)
  /-- where a collection is made, whoever does so, every record stays -/
  created : ∀ before collection answer later,
    location.steps (log.map (·.2)) = before ++ ⟨.create collection, answer⟩ :: later →
      ∀ middle, Serves location.respond s before middle → ∀ other key,
        location.look (location.respond middle (.create collection)).2 other key =
          location.look middle other key
  /-- a save that succeeds has its record filed in one of its steps, under its id -/
  filed : ∀ i embedder collection d key, clients i = .save embedder collection d → outcomes i = .ok (some key) →
    key = d.id ∧ ∃ record : Record, record.metadata = d.metadata ∧
      ⟨.upsert collection record, .ok key⟩ ∈ location.steps (own i log)
  /-- in the end there is what the last step left that filed a record or took it away, and where there was no
  such step what was there before -/
  held : ∀ collection key, location.look after collection key =
    match lastLeft? (location.steps (log.map (·.2))) collection key with
    | some left => .ok (left.map location.kept)
    | none => location.look s collection key

section Mirrored

variable {v next : Volatile} {i : Fin n} {collection : String}
  (hserves : Serves Volatile.answer v (location.steps (log.map (·.2))) next)
  (hsaving : ∀ step ∈ location.steps (log.map (·.2)), step.call.isSaving)

include hserves

/-- Each step of a client is answered as in some state of the store. -/
theorem exists_answer {mine : List StoreStep} (hsteps : location.steps (own i log) = mine) :
    ∀ step ∈ mine, ∃ before : Volatile, step.answer = (before.answer step.call).1 := by
  rintro step hstep
  obtain ⟨-, before, -, -, -, hanswer, -⟩ := hserves.exists_of_mem (mem_steps_iff.mpr ⟨i, hsteps ▸ hstep⟩)
  exact ⟨before, hanswer⟩

/-- To take a record away never fails. -/
theorem removing_ok {key : String} {e : MemoryError} :
    ¬Client.Removing collection key (location.steps (own i log)) (.error e) := by
  intro h
  generalize hsteps : location.steps (own i log) = mine at h
  generalize houtcome : Except.error e = outcome at h
  cases h with
  | unsaid =>
    obtain ⟨before, hanswer⟩ := exists_answer hserves hsteps _ List.mem_cons_self
    cases hanswer
  | missing => cases houtcome
  | there answer =>
    obtain ⟨before, hanswer⟩ := exists_answer hserves hsteps _ (List.mem_cons_of_mem _ List.mem_cons_self)
    cases hanswer
    cases houtcome
  | unasked answer =>
    obtain ⟨before, hanswer⟩ := exists_answer hserves hsteps _ List.mem_cons_self
    cases hanswer
    cases houtcome

include hsaving

/-- A record that a client files after it saw or made the collection is not refused for want of it, whatever the
other clients do in between. -/
theorem upsert_found_of_shown {first later : List StoreStep}
    (hsteps : location.steps (own i log) = first ++ later)
    (hshown : ⟨.holds collection, .ok true⟩ ∈ first ∨ ⟨.create collection, .ok ()⟩ ∈ first)
    {record : Record} {name : String} :
    ⟨.upsert collection record, .error (.collectionNotFound name)⟩ ∉ later := by
  -- the steps of all are cut in two where those of the client are
  obtain ⟨before, behind, rfl, rfl, rfl⟩ := exists_split_of_own hsteps
  rw [List.map_append, StoreLocation.steps_append] at hserves hsaving
  obtain ⟨middle, hfirst, hlater⟩ := serves_append.mp hserves
  have hthere : middle.collections.contains collection = true :=
    Volatile.contains_of_shown hfirst (fun step hstep => hsaving step (List.mem_append_left _ hstep))
      (hshown.imp (fun hmem => mem_steps_iff.mpr ⟨i, hmem⟩) fun hmem => mem_steps_iff.mpr ⟨i, hmem⟩)
  intro hmem
  exact Volatile.upsert_found hlater (fun step hstep => hsaving step (List.mem_append_right _ hstep)) hthere
    (mem_steps_iff.mpr ⟨i, hmem⟩)

/-- A save does not fail for want of a collection. -/
theorem filing_found {record : Record} {name : String} :
    ¬Semantic.Filing collection record (location.steps (own i log)) (.error (.collectionNotFound name)) := by
  intro h
  generalize hsteps : location.steps (own i log) = mine at h
  cases h with
  | unsaid =>
    obtain ⟨before, hanswer⟩ := exists_answer hserves hsteps _ List.mem_cons_self
    cases hanswer
  | there =>
    have hsplit : location.steps (own i log) = [⟨.holds collection, .ok true⟩] ++
        [⟨.upsert collection record, .error (.collectionNotFound name)⟩] := hsteps
    exact upsert_found_of_shown hserves hsaving hsplit (.inl List.mem_cons_self) List.mem_cons_self
  | unmade =>
    obtain ⟨before, hanswer⟩ := exists_answer hserves hsteps _ (List.mem_cons_of_mem _ List.mem_cons_self)
    rcases Volatile.create_cases before collection with hcreate | ⟨-, hcreate⟩ | ⟨-, hcreate⟩ <;>
      cases hanswer.trans (congrArg Prod.fst hcreate)
  | made =>
    have hsplit : location.steps (own i log) = [⟨.holds collection, .ok false⟩, ⟨.create collection, .ok ()⟩] ++
        [⟨.upsert collection record, .error (.collectionNotFound name)⟩] := hsteps
    exact upsert_found_of_shown hserves hsaving hsplit (.inr (List.mem_cons_of_mem _ List.mem_cons_self))
      List.mem_cons_self

/-- No client fails for want of a collection. -/
theorem client_found {client : Client} (hspares : client.Spares location) {name : String} :
    ¬Ends (client.program location) (own i log) (.error (.collectionNotFound name)) := by
  intro hends
  cases client with
  | save embedder collection d =>
    rcases Client.filing_of_save hspares hends with ⟨-, message, herror⟩ | ⟨_, _, filed, hfiling, hfiled⟩
    · cases herror
    · cases filed with
      | ok key => cases hfiled
      | error e =>
        obtain rfl := Except.error.inj hfiled
        exact filing_found hserves hsaving hfiling
  | forget embedder collection key => exact removing_ok hserves (Client.removing_of_forget hends)
  | remove collection key => exact removing_ok hserves (Client.removing_of_remove hends)

omit hsaving

/-- A save that succeeds has filed its record under its id. -/
theorem save_filed {embedder : Embedder} (hspares : embedder.Spares location) {d : Deposit} {key : String}
    (hends : Ends ((Client.save embedder collection d).program location) (own i log) (.ok (some key))) :
    key = d.id ∧ ∃ record : Record, record.metadata = d.metadata ∧
      ⟨.upsert collection record, .ok key⟩ ∈ location.steps (own i log) := by
  rcases Client.filing_of_save hspares hends with ⟨-, _, herror⟩ | ⟨vector, time, filed, hfiling, hfiled⟩
  · cases herror
  · cases filed with
    | error e => cases hfiled
    | ok other =>
      obtain rfl := Option.some.inj (Except.ok.inj hfiled)
      obtain ⟨before, hanswer⟩ := exists_answer hserves rfl _ hfiling.mem_of_ok
      refine ⟨?_, d.record vector time, rfl, hfiling.mem_of_ok⟩
      exact (Volatile.upsert_key hanswer.symm).trans (d.effectiveKey_record vector time)

end Mirrored

/-- **Clients may rely on their store**: no save fails for want of a collection, no record is lost where one is
made, and in the end every key holds what was last written there. -/
theorem sound (hrun : SharedRun location clients s log outcomes after)
    (hspares : ∀ i, (clients i).Spares location) (hreached : location.Reached s) :
    Sound location clients s log outcomes after := by
  obtain ⟨v, hmirrors⟩ := hreached.mirrors
  have hsaving : ∀ step ∈ location.steps (log.map (·.2)), step.call.isSaving := by
    intro step hstep
    obtain ⟨i, hown⟩ := mem_steps_iff.mp hstep
    exact Client.isSaving_of_ends (hspares i) (hrun.ends i) step hown
  have hplain : ∀ step ∈ location.steps (log.map (·.2)), step.call.isPlain := fun step hstep =>
    Call.isPlain_of_isSaving (hsaving step hstep)
  -- a volatile store serves the same steps, and ends with the same records
  obtain ⟨next, hserves, hnext⟩ := hmirrors.serves hrun.serves hplain
  constructor
  case found =>
    intro i name hmissing
    exact client_found hserves hsaving (hspares i) (hmissing ▸ hrun.ends i)
  case created =>
    intro before collection answer later hsteps middle hmiddle other key
    rw [hsteps] at hplain
    obtain ⟨w, -, hw⟩ := hmirrors.serves hmiddle fun step hstep => hplain step (List.mem_append_left _ hstep)
    have hcreate : (Call.create collection).isPlain := rfl
    obtain ⟨-, hcreated⟩ := hw.respond hcreate
    rw [hcreated.look_eq, hw.look_eq, Volatile.held_create]
  case filed =>
    intro i embedder collection d key hclient hok
    have hends := hrun.ends i
    have hspared := hspares i
    rw [hclient] at hends hspared
    rw [hok] at hends
    exact save_filed hserves hspared hends
  case held =>
    intro collection key
    rw [hnext.look_eq, hmirrors.look_eq, Volatile.held_of_serves hserves hsaving]
    cases lastLeft? (location.steps (log.map (·.2))) collection key <;> rfl

/-- Two clients that save texts of different lengths under ids of their own. -/
def twoSavers (i : Fin 2) : Client :=
  .save Semantic.lengthEmbedder "notes" (if i = 0 then .ofText "x" "a" none none else .ofText "xy" "b" none none)

/-- The record of the first of them, and that of the second. -/
def savedRecord (i : Fin 2) : Record :=
  if i = 0 then .ofText "a" "x" none none [⟨1⟩] (some ⟨0, 0⟩)
  else .ofText "b" "xy" none none [⟨1⟩, ⟨1⟩] (some ⟨0, 0⟩)

/-- Both see that the collection is missing before either makes it; then the vector of the second does not go with
that of the first. -/
def bothFirst : List (Fin 2 × Exchange Outside) := [
  (0, ⟨.now, ⟨0, 0⟩⟩), (1, ⟨.now, ⟨0, 0⟩⟩),
  (0, StoreLocation.volatile.exchange (.holds "notes") (.ok false)),
  (1, StoreLocation.volatile.exchange (.holds "notes") (.ok false)),
  (0, StoreLocation.volatile.exchange (.create "notes") (.ok ())),
  (0, StoreLocation.volatile.exchange (.upsert "notes" (savedRecord 0)) (.ok "a")),
  (1, StoreLocation.volatile.exchange (.create "notes") (.ok ())),
  (1, StoreLocation.volatile.exchange (.upsert "notes" (savedRecord 1)) (.error (.dimensionMismatch 1 2)))]

/-- How the two end. -/
def twoOutcomes (i : Fin 2) : Except MemoryError (Option String) :=
  if i = 0 then .ok (some "a") else .error (.dimensionMismatch 1 2)

/-- What the store holds then. -/
def afterBoth : StoreLocation.volatile.State :=
  StoreLocation.volatile.after [.create "notes", .upsert "notes" (savedRecord 0)]

theorem bothFirst_sharedRun :
    SharedRun .volatile twoSavers StoreLocation.volatile.fresh bothFirst twoOutcomes afterBoth := by
  constructor
  case ends =>
    intro i
    match i with
    | 0 =>
      have hown : own 0 bothFirst = [⟨.now, ⟨0, 0⟩⟩,
        StoreLocation.volatile.exchange (.holds "notes") (.ok false),
        StoreLocation.volatile.exchange (.create "notes") (.ok ()),
        StoreLocation.volatile.exchange (.upsert "notes" (savedRecord 0)) (.ok "a")] := rfl
      rw [hown]
      exact .ask _ (.ask _ (.ask _ (.ask _ (.done _))))
    | 1 =>
      have hown : own 1 bothFirst = [⟨.now, ⟨0, 0⟩⟩,
        StoreLocation.volatile.exchange (.holds "notes") (.ok false),
        StoreLocation.volatile.exchange (.create "notes") (.ok ()),
        StoreLocation.volatile.exchange (.upsert "notes" (savedRecord 1)) (.error (.dimensionMismatch 1 2))] := rfl
      rw [hown]
      exact .ask _ (.ask _ (.ask _ (.ask _ (.done _))))
  case serves => exact ⟨rfl, rfl, rfl, rfl, rfl, rfl, rfl⟩

/-- Two first saves that both make the collection are sound. -/
theorem sound_bothFirst :
    (∀ i, (twoSavers i).Spares .volatile) ∧ StoreLocation.volatile.Reached StoreLocation.volatile.fresh ∧
      SharedRun .volatile twoSavers StoreLocation.volatile.fresh bothFirst twoOutcomes afterBoth ∧
        Sound .volatile twoSavers StoreLocation.volatile.fresh bothFirst twoOutcomes afterBoth := by
  have hspares : ∀ i, (twoSavers i).Spares .volatile := fun _ _ => Effect.spares_pure _
  exact ⟨hspares, .fresh, bothFirst_sharedRun, sound bothFirst_sharedRun hspares .fresh⟩

end SharedRun

end Orchestration.Memory
