import Orchestration.Ai.Services
import Orchestration.Config.Basic
import Orchestration.Http.Url
import Orchestration.Json.Printer

/-!
# Model services behind the network

A service that continues prompts and makes vectors, spoken to in documents.

* A call that the service had no time for, or could not carry out, is repeated as often as is allowed;
  the wait before it doubles each time.
* Vectors come back with numbers and are put in the order of these; there must be as many as texts.
* Without texts nothing is sent.
-/

namespace Orchestration

open Number Http

/-- A model service behind the network. -/
structure RemoteModel where
  /-- the address of the service, without slashes at its end -/
  baseUrl : String
  /-- the key of the service -/
  apiKey : String
  /-- the model that continues prompts -/
  model : String
  /-- the model that makes vectors -/
  embeddingModel : String := "text-embedding-3-small"
  /-- how often a call is repeated -/
  maxRetries : Nat := 0

namespace RemoteModel

/-- The service at an address. -/
def atAddress (address apiKey model : String) : RemoteModel where
  baseUrl := withoutEndSlashes address
  apiKey
  model

/-- The service of a configuration, which must have a key. -/
def ofConfig (c : Config.CompletionService) : Except AiError RemoteModel :=
  match c.apiKey.filter (!·.isEmpty) with
  | none => .error .missingApiKey
  | some key => .ok { atAddress c.baseUrl key c.model with maxRetries := c.maxRetries }

variable (m : RemoteModel)

/-- The request that carries a document to a path of the service. -/
def requestTo (path : String) (body : Json) : Request where
  method := "POST"
  url := m.baseUrl ++ path
  headers := [("authorization", "Bearer " ++ m.apiKey), ("content-type", "application/json")]
  body := some body.compact

/-- Whether a call may be repeated after this response. -/
def isRepeatable (r : Response) : Bool := r.status = 429 || r.isServerError

/-- The wait before the first repetition, in nanoseconds. -/
def firstWait : Nat := 250000000

/-- Sends a request, and again as often as is allowed, after the given wait. A wait may be of any length here. Where
seconds are counted in 64 bits, a program stops after the 66th wait, for the doubled one is too long to be counted
(`le_longestWait_iff`). -/
def send (request : Request) : Nat → Nat → Effect AiError Response
  | repetitions, wait => do
    match ← Effect.ask (.exchange request) with
    | .error detail => throw (.http detail)
    | .ok response =>
      if Response.isSuccess response then return response
      else match repetitions with
        | 0 => throw (.service (Response.status response) (Response.body response))
        | left + 1 =>
          if isRepeatable response then
            Effect.ask (.wait wait)
            send request left (2 * wait)
          else throw (.service (Response.status response) (Response.body response))

/-- What a decoder makes of the answer to a document. -/
def post {α : Type} (path : String) (body : Json) (decode : Decoder α) : Effect AiError α := do
  let response ← send (m.requestTo path body) m.maxRetries firstWait
  match decode.read? response.body with
  | some value => return value
  | none => throw (.http "error decoding response body")

/-! ### Prompts -/

/-- The document that asks for the continuation of a prompt. -/
def chatBody (prompt : String) (s : CompletionSettings) : Json :=
  .object <| [
    ("model", .string m.model),
    ("messages", .array [.object [("role", .string "user"), ("content", .string prompt)]]),
    ("max_tokens", .ofNat s.maxTokens),
    ("temperature", .number (.single s.temperature)),
    ("top_p", .number (.single s.topP)),
    ("presence_penalty", .number (.single s.presencePenalty)),
    ("frequency_penalty", .number (.single s.frequencyPenalty))] ++
    if s.stopSequences.isEmpty then [] else [("stop", .ofStrings s.stopSequences)]

/-- Reads the text of one of the continuations. -/
def choiceDecoder : Decoder (Option String) :=
  .record ["message"] fun f => f.required "message" <|
    .record ["content"] fun f => f.withDefault "content" none (.option .string)

/-- Reads the continuations. -/
def chatDecoder : Decoder (List (Option String)) :=
  .record ["choices"] fun f => f.required "choices" (.list choiceDecoder)

/-- The first continuation of a prompt. -/
def complete (prompt : String) (s : CompletionSettings) : Effect AiError String := do
  match (← m.post "/chat/completions" (m.chatBody prompt s) chatDecoder).head?.join with
  | some text => return text
  | none => throw (.invalidResponse "completion had no content")

/-! ### Vectors -/

/-- A vector and the number of the text it belongs to. -/
structure Numbered where
  /-- the number of the text -/
  index : Nat
  /-- the vector -/
  embedding : Vector

/-- The document that asks for the vectors of texts. -/
def embeddingBody (texts : List String) : Json :=
  .object [("model", .string m.embeddingModel), ("input", .ofStrings texts)]

/-- Reads a vector with its number. -/
def numberedDecoder : Decoder Numbered := .record ["index", "embedding"] fun f => do
  return {
    index := ← f.required "index" (.natural largest64)
    embedding := ← f.required "embedding" (.list .single) }

/-- Reads vectors with their numbers. -/
def embeddingDecoder : Decoder (List Numbered) :=
  .record ["data"] fun f => f.required "data" (.list numberedDecoder)

/-- Vectors in the order of their numbers. -/
def inOrder (found : List Numbered) : List Vector :=
  (found.mergeSort fun a b => a.index ≤ b.index).map (·.embedding)

/-- The vectors of texts. -/
def embed (texts : List String) : Effect AiError (List Vector) := do
  if texts.isEmpty then return []
  let found ← m.post "/embeddings" (m.embeddingBody texts) embeddingDecoder
  if found.length = texts.length then return inOrder found
  else throw (.invalidResponse s!"expected {texts.length} embeddings, got {found.length}")

/-- The service as one that continues prompts. -/
def completion : Completion where
  complete := m.complete

/-- The service as one that makes vectors. -/
def embedder : Embedder where
  embed := m.embed

end RemoteModel

end Orchestration
