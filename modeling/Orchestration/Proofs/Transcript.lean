import Orchestration.Kernel.Errand

/-!
# Transcripts

A program is run by answering its questions. A **transcript** lists the questions of one run in order,
each with the answer that it was given; nothing is assumed of where the answers come from, so what is
shown of every transcript holds against surroundings of any kind.

* `Program.Transcript` — the runs of a program.
* `Program.exists_transcript` — a run against surroundings has a transcript, with the logged questions.
* `Program.exists_answered` — whatever the answers, there is a run with them.
* `Program.transcript_bind` — the runs of a sequence are those of its parts, one after the other.
* `Ends` — the runs of a program that may fail, with one inversion lemma for each way to build one.
* `Stays` — what a program asks for and how it ends, whatever the answers.
-/

namespace Orchestration

/-- A question and the answer that it was given. -/
structure Exchange (S : Signature) where
  /-- the question -/
  request : S.Request
  /-- the answer -/
  answer : S.Answer request

namespace Program

variable {S : Signature} {α β σ : Type}

/-- With its questions answered as in the list, and with no answer left over, the program ends with the
value. -/
inductive Transcript : Program S α → List (Exchange S) → α → Prop where
  /-- nothing is asked by a program that is done -/
  | done (value : α) : Transcript (.done value) [] value
  /-- the first question is answered, and the program goes on with the answer -/
  | ask {request : S.Request} {next : S.Answer request → Program S α} {value : α}
      (answer : S.Answer request) {log : List (Exchange S)} (rest : Transcript (next answer) log value) :
      Transcript (.ask request next) (⟨request, answer⟩ :: log) value

theorem transcript_done {value other : α} {log : List (Exchange S)} :
    (Program.done value : Program S α).Transcript log other ↔ log = [] ∧ other = value := by
  constructor
  · intro h
    cases h
    exact ⟨rfl, rfl⟩
  · rintro ⟨rfl, rfl⟩
    exact .done _

theorem transcript_request {r : S.Request} {answer : S.Answer r} {log : List (Exchange S)} :
    (request r : Program S _).Transcript log answer ↔ log = [⟨r, answer⟩] := by
  constructor
  · intro h
    cases h with
    | ask answer rest =>
      obtain ⟨rfl, rfl⟩ := transcript_done.mp rest
      rfl
  · rintro rfl
    exact .ask answer (.done answer)

/-- The runs of a sequence are those of its parts, one after the other. -/
theorem transcript_bind {p : Program S α} {f : α → Program S β} {log : List (Exchange S)} {value : β} :
    (p >>= f).Transcript log value ↔
      ∃ first middle later, p.Transcript first middle ∧ (f middle).Transcript later value ∧
        log = first ++ later := by
  constructor
  · induction p generalizing log with
    | done middle => exact fun h => ⟨[], middle, log, .done middle, h, rfl⟩
    | ask request next ih =>
      intro h
      rw [ask_bind] at h
      cases h with
      | ask answer rest =>
        obtain ⟨first, middle, later, hp, hf, rfl⟩ := ih answer rest
        exact ⟨_ :: first, middle, later, .ask answer hp, hf, rfl⟩
  · rintro ⟨first, middle, later, hp, hf, rfl⟩
    induction hp with
    | done middle => exact hf
    | ask answer _ ih => exact .ask answer (ih hf)

/-- A run against surroundings has a transcript, and its questions are those of the log. -/
theorem exists_transcript (world : Surroundings S σ) (p : Program S α) (s : σ) :
    ∃ log, p.Transcript log (p.run world s).1 ∧
      log.map (·.request) = (p.runLogged world s).2.1 := by
  induction p generalizing s with
  | done value => exact ⟨[], .done value, rfl⟩
  | ask request next ih =>
    obtain ⟨log, hlog, hasked⟩ := ih (world request s).1 (world request s).2
    exact ⟨⟨request, _⟩ :: log, .ask _ hlog, congrArg (request :: ·) hasked⟩

/-- Whatever the answer to each question, there is a run with these answers. -/
theorem exists_answered (answer : (r : S.Request) → S.Answer r) (p : Program S α) :
    ∃ log value, p.Transcript log value ∧ ∀ x ∈ log, x.answer = answer x.request := by
  induction p with
  | done value => exact ⟨[], value, .done value, nofun⟩
  | ask request next ih =>
    obtain ⟨log, value, hlog, hanswers⟩ := ih (answer request)
    exact ⟨⟨request, answer request⟩ :: log, value, .ask _ hlog, List.forall_mem_cons.mpr ⟨rfl, hanswers⟩⟩

end Program

/-! ### Programs that may fail -/

section Ends

variable {S : Signature} {ε ε' α β : Type}

/-- With its questions answered as in the list, the program ends with the outcome. -/
def Ends (t : ExceptT ε (Program S) α) (log : List (Exchange S)) (outcome : Except ε α) : Prop :=
  Program.Transcript t.run log outcome

variable {log : List (Exchange S)}

theorem ends_pure {value : α} {outcome : Except ε α} :
    Ends (pure value : ExceptT ε (Program S) α) log outcome ↔ log = [] ∧ outcome = .ok value :=
  Program.transcript_done

theorem ends_throw {e : ε} {outcome : Except ε α} :
    Ends (throw e : ExceptT ε (Program S) α) log outcome ↔ log = [] ∧ outcome = .error e :=
  Program.transcript_done

/-- A sequence fails where its first part fails; otherwise the second part goes on from the value. -/
theorem ends_bind {t : ExceptT ε (Program S) α} {f : α → ExceptT ε (Program S) β}
    {outcome : Except ε β} :
    Ends (t >>= f) log outcome ↔
      (∃ e, Ends t log (.error e) ∧ outcome = .error e) ∨
        ∃ first value later, Ends t first (.ok value) ∧ Ends (f value) later outcome ∧
          log = first ++ later := by
  have hrun : Ends (t >>= f) log outcome ↔
      (t.run >>= ExceptT.bindCont f : Program S (Except ε β)).Transcript log outcome := Iff.rfl
  rw [hrun, Program.transcript_bind]
  constructor
  · rintro ⟨first, middle, later, ht, hf, rfl⟩
    cases middle with
    | error e =>
      obtain ⟨rfl, rfl⟩ := Program.transcript_done.mp hf
      exact .inl ⟨e, by rwa [List.append_nil], rfl⟩
    | ok value => exact .inr ⟨first, value, later, ht, hf, rfl⟩
  · rintro (⟨e, ht, rfl⟩ | ⟨first, value, later, ht, hf, rfl⟩)
    · exact ⟨log, .error e, [], ht, .done _, (List.append_nil log).symm⟩
    · exact ⟨first, .ok value, later, ht, hf, rfl⟩

/-- What follows a program without a question of its own settles how it ends. -/
theorem ends_bind_settled {t : ExceptT ε (Program S) α} {f : α → ExceptT ε (Program S) β} {settle : α → Except ε β}
    {outcome : Except ε β} (hf : ∀ value later ended, Ends (f value) later ended ↔ later = [] ∧ ended = settle value) :
    Ends (t >>= f) log outcome ↔ ∃ inner, Ends t log inner ∧ outcome = inner.bind settle := by
  rw [ends_bind]
  constructor
  · rintro (⟨e, ht, rfl⟩ | ⟨first, value, later, ht, hrest, rfl⟩)
    · exact ⟨.error e, ht, rfl⟩
    · obtain ⟨rfl, rfl⟩ := (hf ..).mp hrest
      exact ⟨.ok value, by rwa [List.append_nil], rfl⟩
  · rintro ⟨inner, ht, rfl⟩
    cases inner with
    | error e => exact .inl ⟨e, ht, rfl⟩
    | ok value => exact .inr ⟨log, value, [], ht, (hf ..).mpr ⟨rfl, rfl⟩, (List.append_nil log).symm⟩

/-- What becomes of each outcome is settled without a further question. -/
theorem ends_map {β : Type} {t : ExceptT ε (Program S) α} {f : Except ε α → Except ε' β}
    {outcome : Except ε' β} :
    Ends (ExceptT.mk (t.run >>= fun o => pure (f o))) log outcome ↔
      ∃ inner, Ends t log inner ∧ outcome = f inner := by
  have hrun : Ends (ExceptT.mk (t.run >>= fun o => pure (f o))) log outcome ↔
      (t.run >>= fun o => pure (f o)).Transcript log outcome := Iff.rfl
  rw [hrun, Program.transcript_bind]
  constructor
  · rintro ⟨first, inner, later, ht, hf, rfl⟩
    obtain ⟨rfl, rfl⟩ := Program.transcript_done.mp hf
    exact ⟨inner, by rwa [List.append_nil], rfl⟩
  · rintro ⟨inner, ht, rfl⟩
    exact ⟨log, inner, [], ht, .done _, (List.append_nil log).symm⟩

/-- A program that cannot fail ends with its value. -/
theorem ends_lift {p : Program S α} {outcome : Except ε α} :
    Ends (ExceptT.lift p) log outcome ↔ ∃ value, p.Transcript log value ∧ outcome = .ok value := by
  have hrun : Ends (ExceptT.lift p) log outcome ↔
      (p >>= fun value => pure (Except.ok value)).Transcript log outcome := by
    rw [bind_pure_comp]
    exact Iff.rfl
  rw [hrun, Program.transcript_bind]
  constructor
  · rintro ⟨first, value, later, hp, hdone, rfl⟩
    obtain ⟨rfl, rfl⟩ := Program.transcript_done.mp hdone
    exact ⟨value, by rwa [List.append_nil], rfl⟩
  · rintro ⟨value, hp, rfl⟩
    exact ⟨log, value, [], hp, .done _, (List.append_nil log).symm⟩

/-- Whatever the answers, the program asks only for what is `asked`, and its outcome is as `ended` says. -/
def Stays (t : ExceptT ε (Program S) α) (asked : S.Request → Prop) (ended : Except ε α → Prop) : Prop :=
  ∀ log outcome, Ends t log outcome → (∀ x ∈ log, asked x.request) ∧ ended outcome

variable {asked : S.Request → Prop} {ended : Except ε α → Prop}

theorem stays_pure {value : α} (h : ended (.ok value)) :
    Stays (pure value : ExceptT ε (Program S) α) asked ended := by
  intro log outcome hends
  obtain ⟨rfl, rfl⟩ := ends_pure.mp hends
  exact ⟨fun _ hx => absurd hx List.not_mem_nil, h⟩

theorem stays_throw {e : ε} (h : ended (.error e)) :
    Stays (throw e : ExceptT ε (Program S) α) asked ended := by
  intro log outcome hends
  obtain ⟨rfl, rfl⟩ := ends_throw.mp hends
  exact ⟨fun _ hx => absurd hx List.not_mem_nil, h⟩

/-- A sequence stays within what both of its parts stay within. -/
theorem stays_bind {t : ExceptT ε (Program S) β} {f : β → ExceptT ε (Program S) α}
    (ht : Stays t asked fun outcome => ∀ e, outcome = .error e → ended (.error e))
    (hf : ∀ value, Stays (f value) asked ended) : Stays (t >>= f) asked ended := by
  intro log outcome hends
  rcases ends_bind.mp hends with ⟨e, hfail, rfl⟩ | ⟨first, value, later, hok, hrest, rfl⟩
  · obtain ⟨hasked, hended⟩ := ht _ _ hfail
    exact ⟨hasked, hended e rfl⟩
  · obtain ⟨hfirst, -⟩ := ht _ _ hok
    obtain ⟨hlater, hended⟩ := hf value _ _ hrest
    exact ⟨fun x hx => (List.mem_append.mp hx).elim (hfirst x) (hlater x), hended⟩

/-- What becomes of each outcome is settled without a further question. -/
theorem stays_map {β : Type} {t : ExceptT ε (Program S) β} {f : Except ε β → Except ε' α}
    {ended : Except ε' α → Prop} (h : Stays t asked fun outcome => ended (f outcome)) :
    Stays (ExceptT.mk (t.run >>= fun o => pure (f o))) asked ended := by
  intro log outcome hends
  obtain ⟨inner, ht, rfl⟩ := ends_map.mp hends
  exact h _ _ ht

end Ends

namespace Task

variable {ε ε' α β : Type} {log : List (Exchange Errands)}

theorem ends_ofExcept {given outcome : Except ε α} :
    Ends (ofExcept given) log outcome ↔ log = [] ∧ outcome = given :=
  Program.transcript_done

theorem ends_error_bind {e : ε} {f : α → Task ε β} {outcome : Except ε β} :
    Ends (ofExcept (.error e) >>= f) log outcome ↔ log = [] ∧ outcome = .error e :=
  Program.transcript_done

theorem ends_ok_bind {value : α} {f : α → Task ε β} {outcome : Except ε β} :
    Ends (ofExcept (.ok value) >>= f) log outcome ↔ Ends (f value) log outcome :=
  Iff.rfl

theorem ends_mapError {t : Task ε α} {f : ε → ε'} {outcome : Except ε' α} :
    Ends (t.mapError f) log outcome ↔ ∃ inner, Ends t log inner ∧ outcome = inner.mapError f :=
  ends_map

/-- A part with its failures turned into others either fails, or the rest goes on from its value. -/
theorem ends_mapError_bind {t : Task ε α} {f : ε → ε'} {g : α → Task ε' β} {outcome : Except ε' β} :
    Ends (t.mapError f >>= g) log outcome ↔
      (∃ e, Ends t log (.error e) ∧ outcome = .error (f e)) ∨
        ∃ first value later, Ends t first (.ok value) ∧ Ends (g value) later outcome ∧ log = first ++ later := by
  rw [ends_bind]
  constructor
  · rintro (⟨e, hfail, rfl⟩ | ⟨first, value, later, hok, hrest, rfl⟩)
    · obtain ⟨inner, hinner, he⟩ := ends_mapError.mp hfail
      cases inner with
      | ok value => cases he
      | error cause =>
        obtain rfl := Except.error.inj he
        exact .inl ⟨cause, hinner, rfl⟩
    · obtain ⟨inner, hinner, hvalue⟩ := ends_mapError.mp hok
      cases inner with
      | error cause => cases hvalue
      | ok value =>
        obtain rfl := Except.ok.inj hvalue
        exact .inr ⟨first, _, later, hinner, hrest, rfl⟩
  · rintro (⟨e, hfail, rfl⟩ | ⟨first, value, later, hok, hrest, rfl⟩)
    · exact .inl ⟨f e, ends_mapError.mpr ⟨.error e, hfail, rfl⟩, rfl⟩
    · exact .inr ⟨first, value, later, ends_mapError.mpr ⟨.ok value, hok, rfl⟩, hrest, rfl⟩

theorem ends_attempt {t : Task ε α} {outcome : Except ε' (Except ε α)} :
    Ends t.attempt log outcome ↔ ∃ inner, Ends t log inner ∧ outcome = .ok inner := by
  have hrun : Ends t.attempt log outcome ↔ Ends (ExceptT.lift t.run : Task ε' _) log outcome := Iff.rfl
  rw [hrun, ends_lift]
  exact Iff.rfl

theorem ends_complete {service : Completion} {prompt : String} {settings : CompletionSettings}
    {outcome : Except AiError String} :
    Ends (complete service prompt settings) log outcome ↔
      log = [⟨.complete service prompt settings, outcome⟩] :=
  Program.transcript_request

theorem ends_embed {service : Embedder} {texts : List String}
    {outcome : Except AiError (List Number.Vector)} :
    Ends (embed service texts) log outcome ↔ log = [⟨.embed service texts, outcome⟩] :=
  Program.transcript_request

theorem ends_call {function : Function} {v : Variables} {outcome : Except Failure String} :
    Ends (call function v) log outcome ↔ log = [⟨.call function v, outcome⟩] :=
  Program.transcript_request

variable {asked : Errand → Prop}

theorem stays_ofExcept {given : Except ε α} {ended : Except ε α → Prop} (h : ended given) :
    Stays (ofExcept given) asked ended := by
  intro log outcome hends
  obtain ⟨rfl, rfl⟩ := ends_ofExcept.mp hends
  exact ⟨fun _ hx => absurd hx List.not_mem_nil, h⟩

theorem stays_mapError {t : Task ε α} {f : ε → ε'} {ended : Except ε' α → Prop}
    (h : Stays t asked fun outcome => ended (outcome.mapError f)) : Stays (t.mapError f) asked ended :=
  stays_map h

theorem stays_embed {service : Embedder} {texts : List String}
    {ended : Except AiError (List Number.Vector) → Prop} (hasked : asked (.embed service texts))
    (hended : ∀ outcome, ended outcome) : Stays (embed service texts) asked ended := by
  intro log outcome hends
  obtain rfl := ends_embed.mp hends
  exact ⟨fun x hx => by rwa [List.mem_singleton.mp hx], hended outcome⟩

end Task

/-! ### Kinds of errands -/

namespace Errand

/-- Whether the errand has a model continue a prompt. -/
def isCompletion : Errand → Bool
  | .complete .. => true
  | _ => false

/-- Whether the errand has texts turned into vectors. -/
def isEmbedding : Errand → Bool
  | .embed .. => true
  | _ => false

theorem isCompletion_of_isEmbedding {r : Errand} (h : r.isEmbedding) : r.isCompletion = false := by
  cases r with
  | embed service texts => rfl
  | complete service prompt settings => cases h
  | call function v => cases h

theorem isEmbedding_of_isCompletion {r : Errand} (h : r.isCompletion) : r.isEmbedding = false := by
  cases hembedding : r.isEmbedding with
  | false => rfl
  | true =>
    rw [isCompletion_of_isEmbedding hembedding] at h
    cases h

end Errand

/-- What was asked for. -/
def requests (log : List (Exchange Errands)) : List Errand := log.map (·.request)

/-- How often a model was asked. -/
def completions (log : List (Exchange Errands)) : Nat := (requests log).countP Errand.isCompletion

theorem completions_append (first later : List (Exchange Errands)) :
    completions (first ++ later) = completions first + completions later := by
  have hrequests : requests (first ++ later) = requests first ++ requests later := List.map_append
  rw [completions, hrequests, List.countP_append, completions, completions]

/-- Where only vectors are asked for, no model is. -/
theorem completions_eq_zero {log : List (Exchange Errands)}
    (h : ∀ x ∈ log, Errand.isEmbedding x.request) : completions log = 0 := by
  rw [completions, List.countP_eq_zero]
  intro r hr
  obtain ⟨x, hx, rfl⟩ := List.mem_map.mp hr
  rw [Errand.isCompletion_of_isEmbedding (h x hx)]
  exact Bool.false_ne_true

end Orchestration
