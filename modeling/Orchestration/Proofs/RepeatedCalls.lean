import Mathlib.Order.Bounds.Basic
import Orchestration.Proofs.StoreRuns

/-!
# Calls that are repeated

A call to a model behind the network sends one and the same request until it is answered for good or no repetition is
left. What is sent, how long is waited, and how the call ends depend on nothing but what comes back.

* `RemoteModel.AsksAgain` — the replies after which a call is repeated.
* `RemoteModel.AnsweredBy` — the requests of a run are answered by a sequence of replies, one after the other.
* `RemoteModel.send_succ` — one try; `RemoteModel.ends_send_iff` — all of them.
* `RemoteModel.Course` — what is asked for in a call, and how it ends.
* `RemoteModel.calls_repeated` — every call with something to send takes this course, for every sequence of replies.
-/

namespace Orchestration

namespace RemoteModel

open Http Number

variable {α β : Type} {request : Request} {wait allowed left n : Nat} {log : List (Exchange Outside)}

/-! ### Replies -/

/-- What comes back after a request: a response, or a reason why there is none. -/
abbrev Reply := Except String Response

variable {reply : Reply} {replies : Nat → Reply} {outcome : Except AiError Response}

/-- After the reply a call may be repeated: there were too many requests, or the service failed. -/
def AsksAgain : Reply → Prop
  | .ok r => r.status = 429 ∨ 500 ≤ r.status ∧ r.status < 600
  | .error _ => False

/-- How a call ends with its last reply, if a response that reports success is used as given. -/
def conclude (use : Response → Except AiError α) : Reply → Except AiError α
  | .ok r => if 200 ≤ r.status ∧ r.status < 300 then use r else .error (.service r.status r.body)
  | .error detail => .error (.http detail)

instance : DecidablePred AsksAgain
  | .ok r => inferInstanceAs (Decidable (r.status = 429 ∨ 500 ≤ r.status ∧ r.status < 600))
  | .error _ => inferInstanceAs (Decidable False)

theorem asksAgain_ok_iff (r : Response) : AsksAgain (.ok r) ↔ isRepeatable r = true := by
  simp [AsksAgain, isRepeatable, Response.isServerError]

theorem conclude_bind (use : Response → Except AiError α) (settle : α → Except AiError β) (reply : Reply) :
    (conclude use reply).bind settle = conclude (fun r => (use r).bind settle) reply := by
  cases reply with
  | error detail => rfl
  | ok r =>
    simp only [conclude]
    split <;> rfl

/-! ### Runs -/

/-- A request and what came back. -/
def tried (request : Request) (reply : Reply) : Exchange Outside := ⟨.exchange request, reply⟩

/-- A wait of so many nanoseconds. -/
def waited (nanoseconds : Nat) : Exchange Outside := ⟨.wait nanoseconds, ()⟩

/-- The request of a step of a run, with what came back. -/
def sent? : Exchange Outside → Option (Request × Reply)
  | ⟨.exchange request, reply⟩ => some (request, reply)
  | _ => none

/-- The requests of a run, in order, with what came back. -/
def tries (log : List (Exchange Outside)) : List (Request × Reply) := log.filterMap sent?

/-- What came back last in a run. -/
def lastReply? (log : List (Exchange Outside)) : Option Reply := (tries log).getLast?.map (·.2)

/-- The requests of a run are answered by the replies, one after the other. -/
def AnsweredBy (replies : Nat → Reply) (log : List (Exchange Outside)) : Prop :=
  ∀ i sent, (tries log)[i]? = some sent → sent.2 = replies i

theorem tries_tried_cons (request : Request) (reply : Reply) (log : List (Exchange Outside)) :
    tries (tried request reply :: log) = (request, reply) :: tries log := rfl

theorem tries_waited_cons (nanoseconds : Nat) (log : List (Exchange Outside)) :
    tries (waited nanoseconds :: log) = tries log := rfl

theorem answeredBy_tried_cons : AnsweredBy replies (tried request reply :: log) ↔
    reply = replies 0 ∧ AnsweredBy (fun i => replies (i + 1)) log := by
  rw [AnsweredBy, tries_tried_cons]
  constructor
  · intro h
    exact ⟨h 0 _ rfl, fun i sent hsent => h (i + 1) sent hsent⟩
  · rintro ⟨rfl, hlog⟩ i sent hsent
    cases i with
    | zero => rw [← Option.some.inj hsent]
    | succ i => exact hlog i sent hsent

/-- A request that is repeated so many times: each time it is the same, and the waits in between double. -/
def repeated (request : Request) (replies : Nat → Reply) (wait n : Nat) : List (Exchange Outside) :=
  (List.range n).flatMap (fun i => [tried request (replies i), waited (wait * twoTo i)]) ++ [tried request (replies n)]

theorem repeated_zero (request : Request) (replies : Nat → Reply) (wait : Nat) :
    repeated request replies wait 0 = [tried request (replies 0)] := rfl

theorem repeated_succ (request : Request) (replies : Nat → Reply) (wait n : Nat) :
    repeated request replies wait (n + 1) =
      tried request (replies 0) :: waited wait :: repeated request (fun i => replies (i + 1)) (2 * wait) n := by
  have hwait : ∀ i, wait * twoTo (i + 1) = 2 * wait * twoTo i := fun i => by rw [twoTo_succ]; ac_rfl
  rw [repeated, repeated, List.range_succ_eq_map, List.flatMap_cons, List.flatMap_map, twoTo_zero, Nat.mul_one]
  simp [hwait]

theorem map_tries_repeated (request : Request) (replies : Nat → Reply) (wait n : Nat) :
    (tries (repeated request replies wait n)).map (·.1) = List.replicate (n + 1) request := by
  induction n generalizing replies wait with
  | zero => rfl
  | succ n ih =>
    rw [repeated_succ, tries_tried_cons, tries_waited_cons, List.map_cons, ih, List.replicate_succ (n := n + 1)]

theorem lastReply?_repeated (request : Request) (replies : Nat → Reply) (wait n : Nat) :
    lastReply? (repeated request replies wait n) = some (replies n) := by
  have hlast : tries [tried request (replies n)] = [(request, replies n)] := rfl
  rw [lastReply?, repeated, tries, List.filterMap_append, ← tries, ← tries, hlast, List.getLast?_concat]
  rfl

/-- Whatever came back in a run is the beginning of a sequence of replies. -/
theorem exists_answeredBy (log : List (Exchange Outside)) : ∃ replies, AnsweredBy replies log := by
  refine ⟨fun i => ((tries log)[i]?.map (·.2)).getD (.error ""), fun i sent hsent => ?_⟩
  dsimp only
  rw [hsent]
  rfl

/-! ### The number of the last try -/

/-- The number of the last try: of those at which no repetition is left, or none is asked for, the least. -/
def IsLastTry (replies : Nat → Reply) (allowed n : Nat) : Prop :=
  IsLeast {i | i = allowed ∨ ¬AsksAgain (replies i)} n

theorem isLastTry_zero (h : allowed = 0 ∨ ¬AsksAgain (replies 0)) : IsLastTry replies allowed 0 :=
  ⟨h.imp Eq.symm id, fun _ _ => Nat.zero_le _⟩

theorem isLastTry_succ (h : AsksAgain (replies 0)) :
    IsLastTry replies (left + 1) (n + 1) ↔ IsLastTry (fun i => replies (i + 1)) left n := by
  constructor
  · rintro ⟨hlast, hleast⟩
    refine ⟨hlast.imp_left Nat.succ.inj, fun i hi => ?_⟩
    exact Nat.le_of_succ_le_succ (hleast (hi.imp_left (congrArg (· + 1))))
  · rintro ⟨hlast, hleast⟩
    refine ⟨hlast.imp_left (congrArg (· + 1)), fun i hi => ?_⟩
    cases i with
    | zero => exact (hi.resolve_left (Nat.succ_ne_zero left).symm h).elim
    | succ i => exact Nat.succ_le_succ (hleast (hi.imp_left Nat.succ.inj))

theorem isLastTry_iff_eq_zero (h : allowed = 0 ∨ ¬AsksAgain (replies 0)) : IsLastTry replies allowed n ↔ n = 0 :=
  ⟨fun hlast => hlast.unique (isLastTry_zero h), fun hn => hn ▸ isLastTry_zero h⟩

theorem IsLastTry.exists_succ (h : IsLastTry replies (left + 1) n) (hagain : AsksAgain (replies 0)) :
    ∃ i, n = i + 1 := by
  cases n with
  | zero => exact (h.1.resolve_left (Nat.succ_ne_zero left).symm hagain).elim
  | succ i => exact ⟨i, rfl⟩

theorem exists_isLastTry (replies : Nat → Reply) (allowed : Nat) : ∃ n, IsLastTry replies allowed n := by
  induction allowed generalizing replies with
  | zero => exact ⟨0, isLastTry_zero (.inl rfl)⟩
  | succ left ih =>
    by_cases hagain : AsksAgain (replies 0)
    · obtain ⟨n, hn⟩ := ih fun i => replies (i + 1)
      exact ⟨n + 1, (isLastTry_succ hagain).mpr hn⟩
    · exact ⟨0, isLastTry_zero (.inr hagain)⟩

/-! ### Requests -/

theorem not_asksAgain_of_isSuccess {r : Response} (h : r.isSuccess = true) : ¬AsksAgain (.ok r) := by
  simp only [Response.isSuccess, Bool.and_eq_true, decide_eq_true_eq] at h
  simp only [AsksAgain]
  omega

theorem conclude_ok (r : Response) : conclude .ok (.ok r) =
    if r.isSuccess then .ok r else .error (.service r.status r.body) := by
  simp [conclude, Response.isSuccess]

/-- A request, sent once. -/
def once (request : Request) : Effect AiError Reply := Effect.ask (.exchange request)

/-- Lets so many nanoseconds pass. -/
def pause (nanoseconds : Nat) : Effect AiError Unit := Effect.ask (.wait nanoseconds)

theorem ends_once_bind {f : Reply → Effect AiError α} {ended : Except AiError α} :
    Ends (once request >>= f) log ended ↔
      ∃ reply rest, Ends (f reply) rest ended ∧ log = tried request reply :: rest :=
  Effect.ends_ask_bind

theorem ends_pause_bind {f : Unit → Effect AiError α} {ended : Except AiError α} :
    Ends (pause wait >>= f) log ended ↔ ∃ rest, Ends (f ()) rest ended ∧ log = waited wait :: rest := by
  have hask : Ends (pause wait >>= f) log ended ↔
      ∃ (answer : Unit) (rest : List (Exchange Outside)), Ends (f answer) rest ended ∧ log = waited wait :: rest :=
    Effect.ends_ask_bind
  exact hask.trans ⟨fun ⟨_, h⟩ => h, fun h => ⟨(), h⟩⟩

/-- Without a repetition the first reply is the last. -/
theorem send_zero (request : Request) (wait : Nat) :
    send request 0 wait = once request >>= fun reply => Effect.ofExcept (conclude .ok reply) := by
  rw [send]
  congr 1
  funext reply
  cases reply with
  | error detail => rfl
  | ok r =>
    rw [conclude_ok]
    dsimp only
    split <;> rfl

/-- **One try**: with what comes back the call ends, or it waits and is repeated. -/
theorem send_succ (request : Request) (left wait : Nat) :
    send request (left + 1) wait = once request >>= fun reply =>
      if AsksAgain reply then pause wait >>= fun _ => send request left (2 * wait)
      else Effect.ofExcept (conclude .ok reply) := by
  rw [send]
  congr 1
  funext reply
  cases reply with
  | error detail => rfl
  | ok r =>
    rw [conclude_ok]
    dsimp only
    by_cases hsuccess : r.isSuccess = true
    · rw [if_pos hsuccess, if_pos hsuccess, if_neg (not_asksAgain_of_isSuccess hsuccess)]
      rfl
    · rw [if_neg hsuccess, if_neg hsuccess]
      simp only [asksAgain_ok_iff]
      rfl

/-- **All tries** of a request, if it is answered by the replies. -/
theorem ends_send_iff : Ends (send request allowed wait) log outcome ∧ AnsweredBy replies log ↔
    ∃ n, IsLastTry replies allowed n ∧ log = repeated request replies wait n ∧ outcome = conclude .ok (replies n) := by
  induction allowed generalizing wait replies log with
  | zero =>
    simp only [isLastTry_iff_eq_zero (.inl rfl), exists_eq_left, repeated_zero]
    rw [send_zero, ends_once_bind]
    constructor
    · rintro ⟨⟨reply, rest, hrest, rfl⟩, hanswered⟩
      obtain ⟨rfl, rfl⟩ := Effect.ends_ofExcept.mp hrest
      obtain ⟨rfl, -⟩ := answeredBy_tried_cons.mp hanswered
      exact ⟨rfl, rfl⟩
    · rintro ⟨rfl, rfl⟩
      exact ⟨⟨replies 0, [], Effect.ends_ofExcept.mpr ⟨rfl, rfl⟩, rfl⟩, answeredBy_tried_cons.mpr ⟨rfl, nofun⟩⟩
  | succ left ih =>
    rw [send_succ, ends_once_bind]
    by_cases hagain : AsksAgain (replies 0)
    · constructor
      · rintro ⟨⟨reply, rest, hrest, rfl⟩, hanswered⟩
        obtain ⟨rfl, hlater⟩ := answeredBy_tried_cons.mp hanswered
        rw [if_pos hagain, ends_pause_bind] at hrest
        obtain ⟨rest, hrest, rfl⟩ := hrest
        obtain ⟨n, hlast, rfl, rfl⟩ := ih.mp ⟨hrest, hlater⟩
        exact ⟨n + 1, (isLastTry_succ hagain).mpr hlast, (repeated_succ ..).symm, rfl⟩
      · rintro ⟨n, hlast, rfl, rfl⟩
        obtain ⟨i, rfl⟩ := hlast.exists_succ hagain
        obtain ⟨hrest, hanswered⟩ := ih.mpr ⟨i, (isLastTry_succ hagain).mp hlast, rfl, rfl⟩
        rw [repeated_succ]
        refine ⟨⟨replies 0, _, ?_, rfl⟩, answeredBy_tried_cons.mpr ⟨rfl, hanswered⟩⟩
        rw [if_pos hagain, ends_pause_bind]
        exact ⟨_, hrest, rfl⟩
    · simp only [isLastTry_iff_eq_zero (.inr hagain), exists_eq_left, repeated_zero]
      constructor
      · rintro ⟨⟨reply, rest, hrest, rfl⟩, hanswered⟩
        obtain ⟨rfl, -⟩ := answeredBy_tried_cons.mp hanswered
        rw [if_neg hagain] at hrest
        obtain ⟨rfl, rfl⟩ := Effect.ends_ofExcept.mp hrest
        exact ⟨rfl, rfl⟩
      · rintro ⟨rfl, rfl⟩
        refine ⟨⟨replies 0, [], ?_, rfl⟩, answeredBy_tried_cons.mpr ⟨rfl, nofun⟩⟩
        rw [if_neg hagain]
        exact Effect.ends_ofExcept.mpr ⟨rfl, rfl⟩

/-! ### Calls -/

/-- **The course of a call** of which the given number is the last try. -/
structure Course (request : Request) (use : Response → Except AiError α) (replies : Nat → Reply) (n : Nat)
    (log : List (Exchange Outside)) (ended : Except AiError α) : Prop where
  /-- the same request is sent each time, once and then once for each repetition -/
  sent : (tries log).map (·.1) = List.replicate (n + 1) request
  /-- before a repetition there is a wait, which doubles from each to the next -/
  steps : log = repeated request replies firstWait n
  /-- the last reply settles how the call ends -/
  settled : ended = conclude use (replies n)

theorem course_iff {use : Response → Except AiError α} {ended : Except AiError α} :
    Course request use replies n log ended ↔
      log = repeated request replies firstWait n ∧ ended = conclude use (replies n) := by
  constructor
  · intro h
    exact ⟨h.steps, h.settled⟩
  · rintro ⟨rfl, rfl⟩
    exact ⟨map_tries_repeated .., rfl, rfl⟩

/-- The runs of a call, for any replies to its requests, are just those that take their course. -/
def TakesCourse (call : Effect AiError α) (request : Request) (use : Response → Except AiError α) (allowed : Nat) :
    Prop :=
  ∀ replies, ∃ n, IsLastTry replies allowed n ∧ ∀ log ended,
    Ends call log ended ∧ AnsweredBy replies log ↔ Course request use replies n log ended

theorem takesCourse_send (request : Request) (allowed : Nat) :
    TakesCourse (send request allowed firstWait) request .ok allowed := by
  intro replies
  obtain ⟨n, hn⟩ := exists_isLastTry replies allowed
  refine ⟨n, hn, fun log ended => ?_⟩
  rw [ends_send_iff, course_iff]
  constructor
  · rintro ⟨other, hother, hlog, hended⟩
    obtain rfl := hother.unique hn
    exact ⟨hlog, hended⟩
  · exact fun h => ⟨n, hn, h⟩

/-- What a call does with its answer, without a question of its own, does not change its course. -/
theorem TakesCourse.bind {call : Effect AiError α} {use : Response → Except AiError α} {f : α → Effect AiError β}
    {settle : α → Except AiError β} (h : TakesCourse call request use allowed)
    (hf : ∀ value later ended, Ends (f value) later ended ↔ later = [] ∧ ended = settle value) :
    TakesCourse (call >>= f) request (fun r => (use r).bind settle) allowed := by
  intro replies
  obtain ⟨n, hn, hruns⟩ := h replies
  refine ⟨n, hn, fun log ended => ?_⟩
  have hlog : ∀ inner, Ends call log inner ∧ AnsweredBy replies log ↔
      log = repeated request replies firstWait n ∧ inner = conclude use (replies n) :=
    fun inner => (hruns log inner).trans course_iff
  rw [ends_bind_settled hf, course_iff, ← conclude_bind]
  constructor
  · rintro ⟨⟨inner, hcall, rfl⟩, hanswered⟩
    obtain ⟨rfl, rfl⟩ := (hlog inner).mp ⟨hcall, hanswered⟩
    exact ⟨rfl, rfl⟩
  · rintro ⟨hsteps, rfl⟩
    obtain ⟨hcall, hanswered⟩ := (hlog _).mpr ⟨hsteps, rfl⟩
    exact ⟨⟨_, hcall, rfl⟩, hanswered⟩

/-- What comes back last settles how a call ends. -/
theorem TakesCourse.exists_lastReply {call : Effect AiError α} {use : Response → Except AiError α}
    {ended : Except AiError α} (h : TakesCourse call request use allowed) (hends : Ends call log ended) :
    ∃ reply, lastReply? log = some reply ∧ ended = conclude use reply := by
  obtain ⟨replies, hanswered⟩ := exists_answeredBy log
  obtain ⟨n, -, hruns⟩ := h replies
  have hcourse := (hruns log ended).mp ⟨hends, hanswered⟩
  exact ⟨replies n, hcourse.steps ▸ lastReply?_repeated .., hcourse.settled⟩

/-- A reply after which a call is not repeated is the only one. -/
theorem TakesCourse.ends_once {call : Effect AiError α} {use : Response → Except AiError α}
    (h : TakesCourse call request use allowed) (hreply : ¬AsksAgain reply) :
    Ends call [tried request reply] (conclude use reply) := by
  obtain ⟨n, hn, hruns⟩ := h fun _ => reply
  obtain rfl := (isLastTry_iff_eq_zero (.inr hreply)).mp hn
  exact ((hruns _ _).mpr (course_iff.mpr ⟨rfl, rfl⟩)).1

/-- What a decoder makes of a response, or the failure to read it. -/
def readBody (decode : Decoder α) (r : Response) : Except AiError α :=
  match decode.read? r.body with
  | some value => .ok value
  | none => .error (.http "error decoding response body")

/-- The first continuation, if there is one. -/
def firstText (choices : List (Option String)) : Except AiError String :=
  match choices.head?.join with
  | some text => .ok text
  | none => .error (.invalidResponse "completion had no content")

/-- The vectors in the order of their numbers, if there are as many as texts. -/
def vectorsFor (texts : List String) (found : List Numbered) : Except AiError (List Vector) :=
  if found.length = texts.length then .ok (inOrder found)
  else .error (.invalidResponse s!"expected {texts.length} embeddings, got {found.length}")

variable (m : RemoteModel)

theorem takesCourse_post (path : String) (body : Json) (decode : Decoder α) :
    TakesCourse (m.post path body decode) (m.requestTo path body) (readBody decode) m.maxRetries := by
  refine (takesCourse_send _ _).bind fun r later ended => ?_
  change _ ↔ later = [] ∧ ended = readBody decode r
  rw [readBody]
  cases decode.read? r.body with
  | some value => exact ends_pure
  | none => exact ends_throw

theorem takesCourse_complete (prompt : String) (s : CompletionSettings) :
    TakesCourse (m.complete prompt s) (m.requestTo "/chat/completions" (m.chatBody prompt s))
      (fun r => (readBody chatDecoder r).bind firstText) m.maxRetries := by
  refine (m.takesCourse_post _ _ _).bind fun choices later ended => ?_
  rw [firstText]
  cases choices.head?.join with
  | some text => exact ends_pure
  | none => exact ends_throw

theorem takesCourse_embed (text : String) (texts : List String) :
    TakesCourse (m.embed (text :: texts)) (m.requestTo "/embeddings" (m.embeddingBody (text :: texts)))
      (fun r => (readBody embeddingDecoder r).bind (vectorsFor (text :: texts))) m.maxRetries := by
  refine (m.takesCourse_post _ _ _).bind fun found later ended => ?_
  rw [vectorsFor]
  split
  · exact ends_pure
  · exact ends_throw

/-- The last of the vectors, if there is one. -/
def lastVector (vectors : List Vector) : Except AiError Vector :=
  match vectors.getLast? with
  | some vector => .ok vector
  | none => .error (.invalidResponse "no embedding returned")

theorem takesCourse_embedOne (text : String) :
    TakesCourse (m.embedder.embedOne text) (m.requestTo "/embeddings" (m.embeddingBody [text]))
      (fun r => ((readBody embeddingDecoder r).bind (vectorsFor [text])).bind lastVector) m.maxRetries := by
  refine (m.takesCourse_embed text []).bind fun vectors later ended => ?_
  rw [lastVector]
  cases vectors.getLast? with
  | some vector => exact ends_pure
  | none => exact ends_throw

theorem ends_embed_nil {ended : Except AiError (List Vector)} :
    Ends (m.embed []) log ended ↔ log = [] ∧ ended = .ok [] :=
  ends_pure

/-- The longest time that is measured in 64 bits of seconds, in nanoseconds. -/
def longestWait : Nat := twoTo 64 * 1000000000 - 1

/-- The first 66 waits are no longer than that. -/
theorem le_longestWait_iff (i : Nat) : firstWait * twoTo i ≤ longestWait ↔ i < 66 := by
  have hnext : longestWait + 1 = firstWait * twoTo 66 := by decide
  have hfirst : 0 < firstWait := by decide
  calc firstWait * twoTo i ≤ longestWait
      ↔ firstWait * twoTo i < longestWait + 1 := Nat.lt_succ_iff.symm
    _ ↔ firstWait * twoTo i < firstWait * twoTo 66 := by rw [hnext]
    _ ↔ twoTo i < twoTo 66 := Nat.mul_lt_mul_left hfirst
    _ ↔ i < 66 := Nat.pow_lt_pow_iff_right Nat.one_lt_two

/-- **Calls are repeated** while they are asked for again, as often as is allowed. Only a call for the vectors of no
texts sends nothing. -/
theorem calls_repeated (m : RemoteModel) :
    (∀ prompt s, TakesCourse (m.complete prompt s) (m.requestTo "/chat/completions" (m.chatBody prompt s))
      (fun r => (readBody chatDecoder r).bind firstText) m.maxRetries) ∧
    (∀ text texts, TakesCourse (m.embed (text :: texts))
      (m.requestTo "/embeddings" (m.embeddingBody (text :: texts)))
      (fun r => (readBody embeddingDecoder r).bind (vectorsFor (text :: texts))) m.maxRetries) ∧
    (∀ text, TakesCourse (m.embedder.embedOne text) (m.requestTo "/embeddings" (m.embeddingBody [text]))
      (fun r => ((readBody embeddingDecoder r).bind (vectorsFor [text])).bind lastVector) m.maxRetries) ∧
    (∀ log ended, Ends (m.embed []) log ended ↔ log = [] ∧ ended = .ok []) ∧
    ∀ i, firstWait * twoTo i ≤ longestWait ↔ i < 66 :=
  ⟨m.takesCourse_complete, m.takesCourse_embed, m.takesCourse_embedOne, fun _ _ => m.ends_embed_nil, le_longestWait_iff⟩

/-- **For no texts nothing is sent**, so that not every call sends a request. -/
theorem embed_sends_nothing :
    ¬∀ (m : RemoteModel) (texts : List String) (replies : Nat → Reply) (log : List (Exchange Outside))
      (ended : Except AiError (List Vector)) (n : Nat), Ends (m.embed texts) log ended →
        AnsweredBy replies log → IsLastTry replies m.maxRetries n → (tries log).length = n + 1 := by
  intro law
  have hends : Ends ((RemoteModel.atAddress "http://localhost" "k" "m").embed []) [] (.ok []) :=
    (ends_embed_nil _).mpr ⟨rfl, rfl⟩
  have hlast : IsLastTry (fun _ => .ok ⟨401, "bad key"⟩) 0 0 := isLastTry_zero (.inl rfl)
  have hcount := law _ [] (fun _ => .ok ⟨401, "bad key"⟩) [] _ 0 hends nofun hlast
  cases hcount

end RemoteModel

end Orchestration
