import Orchestration.Kernel.Function
import Orchestration.Text.Blank

/-!
# Web functions

Requests to the address in the input, answered with the text that comes back.
-/

namespace Orchestration.Plugins

open Text

/-- Sends a request to the address in the input; what comes back. -/
def sendRequest (method : String) (v : Variables) : Effect Failure String := do
  let url := trim v.input
  if url.isEmpty then throw (.text "url must not be empty")
  let body := (v.get? "body").filter (!·.isEmpty)
  match ← Effect.ask (.exchange { method, url, body }) with
  | .error text => throw { contexts := [s!"{method} {url} failed"], cause := .foreign text }
  | .ok response =>
    if response.isSuccess then return response.body
    else
      let status := Http.statusText response.status
      throw (.text s!"{method} {url} returned {status}: {response.body}")

/-- The parameter that holds the address. -/
def urlParameter : Parameter := { name := "input", description := "The URL to request" }

/-- The parameter that holds what is sent along. -/
def bodyParameter : Parameter :=
  { name := "body", description := "The request body", default := some "" }

/-- Functions that send requests. -/
def webFunctions : List Function := [
  .native "get" "Make a GET request to a URL and return the body" [urlParameter] (sendRequest "GET"),
  .native "post" "Make a POST request with a body" [urlParameter, bodyParameter] (sendRequest "POST"),
  .native "put" "Make a PUT request with a body" [urlParameter, bodyParameter] (sendRequest "PUT"),
  .native "delete" "Make a DELETE request to a URL" [urlParameter] (sendRequest "DELETE")]

end Orchestration.Plugins
