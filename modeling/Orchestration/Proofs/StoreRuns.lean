import Orchestration.Ai.Remote
import Orchestration.Memory.Store
import Orchestration.Proofs.StoreStates
import Orchestration.Proofs.Transcript
import Orchestration.World

/-!
# Programs and their store

What a program does to a store: the steps that the store takes in a run, in order. All else that is asked in
the run, of the network or the clock, is answered by anything at all.

* `StoreLocation.steps` — the steps of the store at a place in a run.
* `Serves` — the steps are answered as a store answers them, from what it holds before to what it holds after.
* `Effect.Spares` — a program leaves the store at a place alone, as services behind the network do:
  `RemoteModel.embedder_spares`.
* `Keeper` — surroundings that keep a store; `World.volatileKeeper` and `World.tablesKeeper` are two.
* `Keeper.exists_transcript` — in a run against a keeper, its store serves the steps of the run.
* `Mirrors.serves` — steps without records are served by a volatile store and by what mirrors it alike.
-/

namespace Orchestration

open Memory

/-! ### Effects -/

namespace Effect

variable {ε ε' α : Type} {log : List (Exchange Outside)}

theorem ends_mapError {e : Effect ε α} {f : ε → ε'} {outcome : Except ε' α} :
    Ends (e.mapError f) log outcome ↔ ∃ inner, Ends e log inner ∧ outcome = inner.mapError f :=
  ends_map

/-- A question that cannot fail is answered. -/
theorem ends_ask {r : OutsideRequest} {outcome : Except ε r.Answer} :
    Ends (Effect.ask r : Effect ε r.Answer) log outcome ↔
      ∃ answer : r.Answer, log = [⟨r, answer⟩] ∧ outcome = .ok answer := by
  have hrun : Ends (Effect.ask r : Effect ε r.Answer) log outcome ↔
      ∃ answer, (Program.request (S := Outside) r).Transcript log answer ∧ outcome = .ok answer := ends_lift
  rw [hrun]
  constructor
  · rintro ⟨answer, hlog, rfl⟩
    exact ⟨answer, Program.transcript_request.mp hlog, rfl⟩
  · rintro ⟨answer, hlog, rfl⟩
    exact ⟨answer, Program.transcript_request.mpr hlog, rfl⟩

/-- A question comes first, and the program goes on with the answer. -/
theorem ends_ask_bind {r : OutsideRequest} {f : r.Answer → Effect ε α} {outcome : Except ε α} :
    Ends ((Effect.ask r : Effect ε r.Answer) >>= f) log outcome ↔
      ∃ (answer : r.Answer) (rest : List (Exchange Outside)), Ends (f answer) rest outcome ∧ log = ⟨r, answer⟩ :: rest := by
  rw [ends_bind]
  constructor
  · rintro (⟨e, hask, -⟩ | ⟨first, value, later, hask, hrest, rfl⟩)
    · obtain ⟨answer, -, he⟩ := ends_ask.mp hask
      cases he
    · obtain ⟨answer, rfl, hvalue⟩ := ends_ask.mp hask
      obtain rfl := Except.ok.inj hvalue
      exact ⟨_, later, hrest, rfl⟩
  · rintro ⟨answer, rest, hrest, rfl⟩
    exact .inr ⟨[⟨r, answer⟩], answer, rest, ends_ask.mpr ⟨answer, rfl, rfl⟩, hrest, rfl⟩

/-- What is settled is not asked for. -/
theorem ends_ofExcept {given outcome : Except ε α} :
    Ends (Effect.ofExcept given) log outcome ↔ log = [] ∧ outcome = given :=
  Program.transcript_done

end Effect

/-- What comes of a program that is run against surroundings. -/
structure Aftermath (ε α τ : Type) where
  /-- how the program ends -/
  outcome : Except ε α
  /-- what it asked for, in order -/
  asked : List OutsideRequest
  /-- the surroundings after it -/
  later : τ

/-- The program against surroundings with a state. -/
def Effect.aftermath {ε α τ : Type} (t : Effect ε α) (world : Program.Surroundings Outside τ) (w : τ) :
    Aftermath ε α τ :=
  let (outcome, asked, later) := t.run.runLogged world w
  { outcome, asked, later }

/-- A call to the store at a place, with its answer. -/
def StoreLocation.exchange (location : StoreLocation) (call : Call) (answer : Except MemoryError call.Answer) :
    Exchange Outside :=
  ⟨.store location call, answer⟩

theorem Memory.Store.ends_inPlace {location : StoreLocation} {call : Call} {log : List (Exchange Outside)}
    {outcome : Except MemoryError call.Answer} :
    Ends ((Store.inPlace location).call call) log outcome ↔ log = [location.exchange call outcome] :=
  Program.transcript_request

/-- A program that calls a store first goes on with the answer, or fails where the call does. -/
theorem Memory.Store.ends_inPlace_bind {β : Type} {location : StoreLocation} {call : Call}
    {f : call.Answer → Effect MemoryError β} {log : List (Exchange Outside)} {outcome : Except MemoryError β} :
    Ends ((Store.inPlace location).call call >>= f) log outcome ↔
      (∃ e, log = [location.exchange call (.error e)] ∧ outcome = .error e) ∨
        ∃ value rest, Ends (f value) rest outcome ∧ log = location.exchange call (.ok value) :: rest := by
  rw [ends_bind]
  constructor
  · rintro (⟨e, hcall, rfl⟩ | ⟨first, value, rest, hcall, hrest, rfl⟩)
    · exact .inl ⟨e, Store.ends_inPlace.mp hcall, rfl⟩
    · obtain rfl := Store.ends_inPlace.mp hcall
      exact .inr ⟨value, rest, hrest, rfl⟩
  · rintro (⟨e, rfl, rfl⟩ | ⟨value, rest, hrest, rfl⟩)
    · exact .inl ⟨e, Store.ends_inPlace.mpr rfl, rfl⟩
    · exact .inr ⟨_, value, rest, Store.ends_inPlace.mpr rfl, hrest, rfl⟩

/-! ### Steps -/

namespace Memory

/-- A call to a store, and the answer that it was given. -/
structure StoreStep where
  /-- the call -/
  call : Call
  /-- the answer -/
  answer : Except MemoryError call.Answer

/-- The steps are answered as the store answers them, one after the other; in the end it holds `after`. -/
def Serves {σ : Type} (respond : Responder σ) : σ → List StoreStep → σ → Prop
  | s, [], after => after = s
  | s, step :: steps, after =>
    step.answer = (respond s step.call).1 ∧ Serves respond (respond s step.call).2 steps after

section Serves

variable {σ : Type} {respond : Responder σ} {s after : σ} {first later : List StoreStep}

theorem serves_append :
    Serves respond s (first ++ later) after ↔
      ∃ middle, Serves respond s first middle ∧ Serves respond middle later after := by
  induction first generalizing s with
  | nil =>
    constructor
    · exact fun h => ⟨s, rfl, h⟩
    · rintro ⟨middle, rfl, h⟩
      exact h
  | cons step first ih =>
    constructor
    · rintro ⟨hanswer, hrest⟩
      obtain ⟨middle, hfirst, hlater⟩ := ih.mp hrest
      exact ⟨middle, ⟨hanswer, hfirst⟩, hlater⟩
    · rintro ⟨middle, ⟨hanswer, hfirst⟩, hlater⟩
      exact ⟨hanswer, ih.mpr ⟨middle, hfirst, hlater⟩⟩

/-- Each of the steps is answered in the state that the steps before it left. -/
theorem Serves.exists_of_mem {steps : List StoreStep} {step : StoreStep} (h : Serves respond s steps after)
    (hmem : step ∈ steps) :
    ∃ before middle later, steps = before ++ step :: later ∧ Serves respond s before middle ∧
      step.answer = (respond middle step.call).1 ∧ Serves respond (respond middle step.call).2 later after := by
  obtain ⟨before, later, rfl⟩ := List.append_of_mem hmem
  obtain ⟨middle, hbefore, hanswer, hlater⟩ := serves_append.mp h
  exact ⟨before, middle, later, rfl, hbefore, hanswer, hlater⟩

/-- What every step keeps is kept. -/
theorem Serves.keeps (kept : σ → Prop) (asked : Call → Prop)
    (hstep : ∀ s call, asked call → kept s → kept (respond s call).2) {steps : List StoreStep}
    (hasked : ∀ step ∈ steps, asked step.call) (h : Serves respond s steps after) (hs : kept s) :
    kept after := by
  induction steps generalizing s with
  | nil =>
    obtain rfl := h
    exact hs
  | cons step steps ih =>
    exact ih (fun other hother => hasked other (List.mem_cons_of_mem _ hother)) h.2
      (hstep s step.call (hasked step List.mem_cons_self) hs)

end Serves

end Memory

namespace StoreLocation

/-- The step that a store at a place takes when the question is put to it. -/
def step? (location : StoreLocation) (x : Exchange Outside) : Option StoreStep :=
  match x with
  | ⟨.store place call, answer⟩ => if place = location then some ⟨call, answer⟩ else none
  | _ => none

/-- The steps of the store at a place in a run. -/
def steps (location : StoreLocation) (log : List (Exchange Outside)) : List StoreStep :=
  log.filterMap location.step?

variable {location : StoreLocation} {first later log : List (Exchange Outside)}

theorem step?_exchange (location : StoreLocation) (call : Call) (answer : Except MemoryError call.Answer) :
    location.step? (location.exchange call answer) = some ⟨call, answer⟩ :=
  if_pos rfl

theorem step?_elsewhere {r : OutsideRequest} (h : ∀ call, r ≠ .store location call)
    (answer : Outside.Answer r) : location.step? ⟨r, answer⟩ = none := by
  cases r with
  | store place call => exact if_neg fun hplace => h call (by rw [hplace])
  | _ => rfl

theorem steps_append : location.steps (first ++ later) = location.steps first ++ location.steps later :=
  List.filterMap_append

theorem steps_exchange (location : StoreLocation) (call : Call) (answer : Except MemoryError call.Answer)
    (log : List (Exchange Outside)) :
    location.steps (location.exchange call answer :: log) = ⟨call, answer⟩ :: location.steps log :=
  List.filterMap_cons_some (step?_exchange location call answer)

theorem steps_of_ends {call : Call} {outcome : Except MemoryError call.Answer}
    (h : Ends ((Store.inPlace location).call call) log outcome) : location.steps log = [⟨call, outcome⟩] := by
  obtain rfl := Store.ends_inPlace.mp h
  exact steps_exchange ..

/-- Nothing else is a step of the store. -/
theorem steps_elsewhere (h : ∀ x ∈ log, ∀ call, x.request ≠ .store location call) :
    location.steps log = [] :=
  List.filterMap_eq_nil_iff.mpr fun x hx => step?_elsewhere (h x hx) x.answer

end StoreLocation

/-! ### Programs that leave a store alone -/

/-- Whatever it is answered, the program does not use the store at the place. -/
def Effect.Spares {ε α : Type} (t : Effect ε α) (location : StoreLocation) : Prop :=
  Stays t (fun r => ∀ call, r ≠ OutsideRequest.store location call) fun _ => True

/-- What makes the vectors does not use the store at the place. -/
def Embedder.Spares (e : Embedder) (location : StoreLocation) : Prop :=
  ∀ texts, (e.embed texts).Spares location

/-- The vector is one that is made of the text, in some run. -/
def Embedder.Makes (e : Embedder) (text : String) (vector : Number.Vector) : Prop :=
  ∃ log, Ends (e.embedOne text) log (.ok vector)

/-- No vector is made of the text, in some run. -/
def Embedder.Fails (e : Embedder) (text : String) : Prop := ∃ log failure, Ends (e.embedOne text) log (.error failure)

namespace Effect

variable {ε α β : Type} {location : StoreLocation}

theorem spares_pure (value : α) : (pure value : Effect ε α).Spares location := stays_pure trivial

theorem spares_throw (e : ε) : (throw e : Effect ε α).Spares location := stays_throw trivial

theorem spares_ask {r : OutsideRequest} (h : ∀ call, r ≠ .store location call) :
    (Effect.ask r : Effect ε r.Answer).Spares location := by
  intro log outcome hends
  obtain ⟨answer, rfl, -⟩ := ends_ask.mp hends
  exact ⟨fun x hx => by rwa [List.mem_singleton.mp hx], trivial⟩

theorem spares_bind {t : Effect ε α} {f : α → Effect ε β} (ht : t.Spares location)
    (hf : ∀ value, (f value).Spares location) : Spares (t >>= f) location :=
  stays_bind (fun _ _ hends => ⟨(ht _ _ hends).1, fun _ _ => trivial⟩) hf

end Effect

namespace RemoteModel

variable {location : StoreLocation}

/-- However often a request is repeated, only the network and the clock are asked. -/
theorem spares_send (request : Http.Request) (repetitions wait : Nat) :
    (send request repetitions wait).Spares location := by
  have hexchange : (Effect.ask (.exchange request) : Effect AiError _).Spares location :=
    Effect.spares_ask nofun
  induction repetitions generalizing wait with
  | zero =>
    rw [send]
    refine Effect.spares_bind hexchange fun answer => ?_
    split
    · exact Effect.spares_throw _
    · split
      · exact Effect.spares_pure _
      · exact Effect.spares_throw _
  | succ left ih =>
    rw [send]
    refine Effect.spares_bind hexchange fun answer => ?_
    split
    · exact Effect.spares_throw _
    · split
      · exact Effect.spares_pure _
      · dsimp only
        split
        · have hwait : (Effect.ask (.wait wait) : Effect AiError _).Spares location := Effect.spares_ask nofun
          exact Effect.spares_bind hwait fun _ => ih _
        · exact Effect.spares_throw _

/-- **A service behind the network** leaves every store alone. -/
theorem embedder_spares (m : RemoteModel) (location : StoreLocation) : m.embedder.Spares location := by
  intro texts
  have hembed : m.embedder.embed texts = m.embed texts := rfl
  rw [hembed, embed]
  split
  · exact Effect.spares_pure _
  · refine Effect.spares_bind (Effect.spares_bind (spares_send _ _ _) fun response => ?_) fun found => ?_
    · split
      · exact Effect.spares_pure _
      · exact Effect.spares_throw _
    · split
      · exact Effect.spares_pure _
      · exact Effect.spares_throw _

end RemoteModel

/-! ### Keepers -/

/-- **Surroundings that keep a store** at a place: they answer its calls as the store does, and what it holds
changes with them only. -/
structure Keeper {τ : Type} (location : StoreLocation) (world : Program.Surroundings Outside τ) where
  /-- what the store holds -/
  content : τ → location.State
  /-- calls to the store are answered by it -/
  answers : ∀ call w, (world (.store location call) w).1 = (location.respond (content w) call).1
  /-- and change what it holds -/
  changes : ∀ call w, content (world (.store location call) w).2 = (location.respond (content w) call).2
  /-- nothing else does -/
  spares : ∀ r w, (∀ call, r ≠ .store location call) → content (world r w).2 = content w

namespace Keeper

variable {τ α : Type} {location : StoreLocation} {world : Program.Surroundings Outside τ}

/-- **In a run** against surroundings that keep a store, the store serves the steps of the run. -/
theorem exists_transcript (k : Keeper location world) (p : Program Outside α) (w : τ) :
    ∃ log, p.Transcript log (p.runLogged world w).1 ∧
      log.map (·.request) = (p.runLogged world w).2.1 ∧
      Serves location.respond (k.content w) (location.steps log) (k.content (p.runLogged world w).2.2) := by
  induction p generalizing w with
  | done value => exact ⟨[], .done value, rfl, rfl⟩
  | ask request next ih =>
    obtain ⟨log, hlog, hasked, hserves⟩ := ih (world request w).1 (world request w).2
    refine ⟨⟨request, _⟩ :: log, .ask _ hlog, congrArg (request :: ·) hasked, ?_⟩
    by_cases hstore : ∃ call, request = .store location call
    · obtain ⟨call, rfl⟩ := hstore
      rw [k.changes] at hserves
      have hsteps := StoreLocation.steps_exchange location call (world (.store location call) w).1 log
      have hfirst : Serves location.respond (k.content w) (⟨call, _⟩ :: location.steps log) _ :=
        ⟨k.answers call w, hserves⟩
      rwa [← hsteps] at hfirst
    · have helsewhere : ∀ call, request ≠ .store location call := fun call h => hstore ⟨call, h⟩
      rw [k.spares request w helsewhere] at hserves
      have hsteps : location.steps (⟨request, (world request w).1⟩ :: log) = location.steps log :=
        List.filterMap_cons_none (StoreLocation.step?_elsewhere helsewhere _)
      rw [hsteps]
      exact hserves

theorem exists_ends {ε : Type} (k : Keeper location world) (t : Effect ε α) (w : τ) :
    ∃ log, Ends t log (t.aftermath world w).outcome ∧
      log.map (·.request) = (t.aftermath world w).asked ∧
      Serves location.respond (k.content w) (location.steps log) (k.content (t.aftermath world w).later) :=
  k.exists_transcript t.run w

end Keeper

namespace World

/-- Only calls to the stores of this process change what they hold. -/
theorem answer_spares (r : OutsideRequest) (w : World)
    (h : ∀ call, r ≠ .store .volatile call ∧ r ≠ .store .privateTables call) :
    (answer r w).2.collections = w.collections ∧ (answer r w).2.tables = w.tables := by
  cases r with
  | complete prompt settings =>
    rw [answer, complete]
    split <;> exact ⟨rfl, rfl⟩
  | store location call =>
    cases location with
    | volatile => exact absurd rfl (h call).1
    | privateTables => exact absurd rfl (h call).2
    | file path =>
      rw [answer, store]
      split <;> exact ⟨rfl, rfl⟩
  | writeFile path text =>
    rw [answer]
    cases w.files.write path text <;> exact ⟨rfl, rfl⟩
  | makeDirectories path =>
    rw [answer]
    cases w.files.makeDirectories path <;> exact ⟨rfl, rfl⟩
  | database path operation =>
    rw [answer, database]
    split
    · exact ⟨rfl, rfl⟩
    · cases operation <;> exact ⟨rfl, rfl⟩
  | _ => exact ⟨rfl, rfl⟩

/-- The collections of a world in memory are a volatile store. -/
def volatileKeeper : Keeper .volatile answer where
  content w := w.collections
  answers _ _ := rfl
  changes _ _ := rfl
  spares r w h := by
    by_cases htables : ∃ call, r = .store .privateTables call
    · obtain ⟨call, rfl⟩ := htables
      rfl
    · exact (answer_spares r w fun call => ⟨h call, fun hcall => htables ⟨call, hcall⟩⟩).1

/-- The private database of a world in memory is a store in tables. -/
def tablesKeeper : Keeper .privateTables answer where
  content w := w.tables
  answers _ _ := rfl
  changes _ _ := rfl
  spares r w h := by
    by_cases hvolatile : ∃ call, r = .store .volatile call
    · obtain ⟨call, rfl⟩ := hvolatile
      rfl
    · exact (answer_spares r w fun call => ⟨fun hcall => hvolatile ⟨call, hcall⟩, h call⟩).2

end World

namespace StoreLocation

variable {location : StoreLocation} {v : Volatile} {s after : location.State} {steps : List StoreStep}

/-- Asking for a collection is answered, and changes nothing. -/
theorem Mirrors.serves_holds (h : location.Mirrors v s) {collection : String} {answer : Except MemoryError Bool} :
    Serves location.respond s (⟨.holds collection, answer⟩ :: steps) after ↔
      answer = .ok (v.collections.contains collection) ∧ Serves location.respond s steps after := by
  have hserves : Serves location.respond s (⟨.holds collection, answer⟩ :: steps) after ↔
      answer = (location.respond s (.holds collection)).1 ∧
        Serves location.respond (location.respond s (.holds collection)).2 steps after := Iff.rfl
  rw [hserves, h.respond_holds]
  exact Iff.rfl

/-- **Steps without records** are served by a volatile store just as by what mirrors it. -/
theorem Mirrors.serves (h : location.Mirrors v s) (hserves : Serves location.respond s steps after)
    (hplain : ∀ step ∈ steps, step.call.isPlain) :
    ∃ next, Serves Volatile.answer v steps next ∧ location.Mirrors next after := by
  induction steps generalizing v s with
  | nil =>
    obtain rfl := hserves
    exact ⟨v, rfl, h⟩
  | cons step steps ih =>
    obtain ⟨hanswer, hrest⟩ := hserves
    obtain ⟨hsame, hnext⟩ := h.respond (hplain step List.mem_cons_self)
    obtain ⟨next, hserves, hafter⟩ := ih hnext hrest fun other hother =>
      hplain other (List.mem_cons_of_mem _ hother)
    exact ⟨next, ⟨hanswer.trans hsame, hserves⟩, hafter⟩

end StoreLocation

end Orchestration
