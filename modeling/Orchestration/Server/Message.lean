import Orchestration.Tools.Run

/-!
# Messages to the server

Another program uses the tools by messages, each a document on a line of its own. A message with an id is a
request and is answered; one without is taken note of.

* `Server.answer` — the answer to a line.
-/

namespace Orchestration.Server

/-- What the end of all messages before the first one means. -/
def closedEarly : Failure := .text "connection closed: initialized request"

/-- The code of a message that is no request. -/
def invalidRequest : Int := -32600

/-- The code of a request for something that is not there. -/
def methodNotFound : Int := -32601

/-- The code of a request whose arguments do not fit. -/
def invalidParameters : Int := -32602

/-- The kind of an argument, as it is described to other programs. -/
def kindJson (kind : ArgumentKind) : List (String × Json) :=
  match kind with
  | .text => [("type", .string "string")]
  | .count => [("type", .string "integer"), ("minimum", .ofNat 0)]
  | .number => [("type", .string "number")]
  | .flag => [("type", .string "boolean")]
  | .texts =>
    [("type", .string "object"), ("additionalProperties", .object [("type", .string "string")])]

/-- An argument, as it is described to other programs. -/
def argumentJson (a : ToolArgument) : String × Json :=
  (a.name, .ofFields ([("description", .string a.description)] ++ kindJson a.kind))

/-- The arguments of a tool, as they are described to other programs. -/
def argumentsJson (t : Tool) : Json :=
  .ofFields <| [("type", .string "object"), ("properties", .ofFields (t.arguments.map argumentJson))] ++
    if t.requiredNames.isEmpty then [] else [("required", .ofStrings t.requiredNames)]

/-- A tool, as it is described to other programs. -/
def toolJson (t : Tool) : Json := .object [
  ("name", .string t.name),
  ("description", .string t.description),
  ("inputSchema", argumentsJson t)]

/-- What is said of the server at the beginning. -/
def welcome (version : Json) : Json := .object [
  ("protocolVersion", version),
  ("capabilities", .object [("tools", .object [])]),
  ("serverInfo", .object [("name", .string "skernel"), ("version", .string "0.1.0")]),
  ("instructions", .string toolInstructions)]

/-- The answer to a request. -/
def reply (id result : Json) : Json :=
  .object [("jsonrpc", .string "2.0"), ("id", id), ("result", result)]

/-- The answer to a request that cannot be met. -/
def refuse (id : Json) (code : Int) (message : String) : Json :=
  .object [("jsonrpc", .string "2.0"), ("id", id),
    ("error", .object [("code", .ofInt code), ("message", .string message)])]

/-- The outcome of a tool, as it is told to other programs. -/
def outcomeJson (text : String) (isError : Bool) : Json := .object [
  ("content", .array [.object [("type", .string "text"), ("text", .string text)]]),
  ("isError", .bool isError)]

/-- The text of a field, nothing if there is none. -/
def textField (j : Json) (name : String) : String :=
  match j.field? name with
  | some (.string s) => s
  | _ => ""

/-- The answer to a call of a tool. -/
def callTool (s : Services) (id parameters : Json) : Program Outside Json := do
  let arguments := (parameters.field? "arguments").getD (.object [])
  match ← Tool.runNamed s (textField parameters "name") arguments with
  | .text text => return reply id (outcomeJson text false)
  | .failure text => return reply id (outcomeJson text true)
  | .rejected => return refuse id invalidParameters "invalid tool or arguments"

/-- The answer to a request with an id. -/
def answerRequest (s : Services) (id message : Json) : Program Outside Json :=
  let parameters := (message.field? "params").getD (.object [])
  match textField message "method" with
  | "initialize" =>
    return reply id (welcome ((parameters.field? "protocolVersion").getD (.string "2025-06-18")))
  | "ping" => return reply id (.object [])
  | "tools/list" => return reply id (.object [("tools", .array (Tool.all.map toolJson))])
  | "tools/call" => callTool s id parameters
  | other => return refuse id methodNotFound other

/-- The answer to a line, if it wants one. -/
def answer (s : Services) (line : String) : Program Outside (Option String) :=
  match Json.read? line with
  | none => return some (refuse .null invalidRequest "not a message").compact
  | some message =>
    match message.field? "id" with
    | none => return none
    | some id => do
      let answer ← answerRequest s id message
      return some answer.compact

end Orchestration.Server
