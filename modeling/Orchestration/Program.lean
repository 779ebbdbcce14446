/-!
# Programs that ask

A program is a value: either it is done, or it asks a question of its surroundings and goes on with
the answer. What the questions mean is decided by who runs it, so one program can be run against a
recorded world, against the machine, or against an adversary in a proof.

* `Program.run` — against surroundings with a state.
* `Program.runLogged` — the same, with the questions in the order in which they were asked.
* `Program.perform` — every question carried out by a program of another signature.
-/

namespace Orchestration

/-- The questions that programs may ask, and what the answer to each is. -/
structure Signature where
  /-- the questions -/
  Request : Type
  /-- the type of the answer to a question -/
  Answer : Request → Type

/-- A program over a signature. -/
inductive Program (S : Signature) (α : Type) : Type where
  /-- nothing is left to do -/
  | done (value : α)
  /-- a question, and how to go on with its answer -/
  | ask (request : S.Request) (next : S.Answer request → Program S α)

namespace Program

variable {S T : Signature} {α β σ : Type}

/-- The one program after the other. -/
protected def bind : Program S α → (α → Program S β) → Program S β
  | .done value, f => f value
  | .ask request next, f => .ask request fun answer => (next answer).bind f

instance : Monad (Program S) where
  pure := .done
  bind := Program.bind

@[simp] theorem pure_eq (value : α) : (pure value : Program S α) = .done value := rfl

@[simp] theorem done_bind (value : α) (f : α → Program S β) :
    (Program.done value >>= f) = f value := rfl

@[simp] theorem ask_bind (request : S.Request) (next : S.Answer request → Program S α)
    (f : α → Program S β) :
    (Program.ask request next >>= f) = .ask request fun answer => next answer >>= f := rfl

theorem bind_done (p : Program S α) : p >>= Program.done = p := by
  induction p with
  | done value => rfl
  | ask request next ih => simp only [ask_bind, ih]

theorem bind_assoc {γ : Type} (p : Program S α) (f : α → Program S β) (g : β → Program S γ) :
    p >>= f >>= g = p >>= fun value => f value >>= g := by
  induction p with
  | done value => rfl
  | ask request next ih => simp only [ask_bind, ih]

instance : LawfulMonad (Program S) := LawfulMonad.mk'
  (Program S)
  (fun p => bind_done p)
  (fun _ _ => rfl)
  (fun p f g => bind_assoc p f g)

/-- A single question. -/
def request (r : S.Request) : Program S (S.Answer r) := .ask r .done

/-- Surroundings with a state, which answer every question. -/
abbrev Surroundings (S : Signature) (σ : Type) := (r : S.Request) → σ → S.Answer r × σ

/-- The outcome against surroundings with a state, and the state at the end. -/
def run (world : Surroundings S σ) : Program S α → σ → α × σ
  | .done value, s => (value, s)
  | .ask request next, s =>
    let (answer, s) := world request s
    (next answer).run world s

/-- The outcome against surroundings, the questions in order, and the state at the end. -/
def runLogged (world : Surroundings S σ) : Program S α → σ → α × List S.Request × σ
  | .done value, s => (value, [], s)
  | .ask request next, s =>
    let (answer, s) := world request s
    let (value, asked, s) := (next answer).runLogged world s
    (value, request :: asked, s)

/-- Every question carried out by a program of another signature. -/
def perform (carry : (r : S.Request) → Program T (S.Answer r)) : Program S α → Program T α
  | .done value => .done value
  | .ask request next => carry request >>= fun answer => (next answer).perform carry

/-- Every question answered inside a monad. -/
def interpret {m : Type → Type} [Monad m] (answer : (r : S.Request) → m (S.Answer r)) :
    Program S α → m α
  | .done value => pure value
  | .ask request next => answer request >>= fun a => (next a).interpret answer

end Program

end Orchestration
