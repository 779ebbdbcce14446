import Orchestration.Json.Decode
import Orchestration.Number.Single

/-!
# Settings of a completion

What a model is told besides the prompt.
-/

namespace Orchestration

open Number

/-- What a model is told besides the prompt. -/
structure CompletionSettings where
  /-- the most tokens the answer may have -/
  maxTokens : Nat := 256
  /-- how freely the next token is drawn -/
  temperature : Single := .zero
  /-- the share of probability that tokens are drawn from -/
  topP : Single := .ofNat 1
  /-- how much tokens that occurred are avoided -/
  presencePenalty : Single := .zero
  /-- how much tokens that occurred often are avoided -/
  frequencyPenalty : Single := .zero
  /-- texts that end the answer -/
  stopSequences : List String := []
  deriving DecidableEq, Inhabited

namespace CompletionSettings

/-- Reads settings from a document; no field need be there. -/
def decoder : Decoder CompletionSettings :=
  .record ["max_tokens", "temperature", "top_p", "presence_penalty", "frequency_penalty",
      "stop_sequences"] fun f => do
    return {
      maxTokens := ← f.withDefault "max_tokens" 256 (.natural largest32)
      temperature := ← f.withDefault "temperature" .zero .single
      topP := ← f.withDefault "top_p" (.ofNat 1) .single
      presencePenalty := ← f.withDefault "presence_penalty" .zero .single
      frequencyPenalty := ← f.withDefault "frequency_penalty" .zero .single
      stopSequences := ← f.withDefault "stop_sequences" [] (.list .string) }

/-- Settings as a document. -/
def toJson (s : CompletionSettings) : Json := .object [
  ("max_tokens", .ofNat s.maxTokens),
  ("temperature", .number (.single s.temperature)),
  ("top_p", .number (.single s.topP)),
  ("presence_penalty", .number (.single s.presencePenalty)),
  ("frequency_penalty", .number (.single s.frequencyPenalty)),
  ("stop_sequences", .ofStrings s.stopSequences)]

end CompletionSettings

end Orchestration
