import AgentSession.Request.Basic
/-!
# Requests and results as documents

Requests and results are written with every field, and read strictly. What a request may leave out
is empty; its state and the document to be passed on are then `null`.
-/

namespace AgentSession

namespace Tool

def toJson (t : Tool) : Json :=
  .object [("name", .str t.name), ("description", .str t.description),
    ("parameters", t.parameters)]

def reader : Reader Tool := fun depth w ↦ do
  let r ← Record.read ["name", "description", "parameters"] depth w
  let name ← r.required "name" Reader.text
  let description ← r.withDefault "description" "" Reader.text
  let parameters ← r.withDefault "parameters" Json.empty Reader.document
  return { name, description, parameters }

end Tool

namespace ContextItem

def toJson (c : ContextItem) : Json :=
  .object [("description", .str c.description), ("value", .str c.value)]

def reader : Reader ContextItem := fun depth w ↦ do
  let r ← Record.read ["description", "value"] depth w
  let description ← r.required "description" Reader.text
  let value ← r.required "value" Reader.text
  return { description, value }

end ContextItem

namespace RunInput

def toJson (input : RunInput) : Json :=
  .object [("threadId", .str input.threadId), ("runId", .str input.runId), ("state", input.state),
    ("messages", Message.listToJson input.messages), ("tools", .arr (input.tools.map Tool.toJson)),
    ("context", .arr (input.context.map ContextItem.toJson)),
    ("forwardedProps", input.forwardedProps)]

def reader : Reader RunInput := fun depth w ↦ do
  let r ← Record.read
    ["threadId", "runId", "state", "messages", "tools", "context", "forwardedProps"] depth w
  let threadId ← r.required "threadId" Reader.text
  let runId ← r.required "runId" Reader.text
  let state ← r.withDefault "state" Json.null Reader.document
  let messages ← r.withDefault "messages" [] (Reader.list Message.reader)
  let tools ← r.withDefault "tools" [] (Reader.list Tool.reader)
  let context ← r.withDefault "context" [] (Reader.list ContextItem.reader)
  let forwardedProps ← r.withDefault "forwardedProps" Json.null Reader.document
  return { threadId, runId, state, messages, tools, context, forwardedProps }

end RunInput

namespace RunResult

def toJson (r : RunResult) : Json :=
  .object [("threadId", .str r.threadId), ("runId", .str r.runId), ("result", r.result),
    ("newMessages", Message.listToJson r.newMessages), ("newState", r.newState)]

def reader : Reader RunResult := fun depth w ↦ do
  let r ← Record.read ["threadId", "runId", "result", "newMessages", "newState"] depth w
  let threadId ← r.required "threadId" Reader.text
  let runId ← r.required "runId" Reader.text
  let result ← r.required "result" Reader.document
  let newMessages ← r.required "newMessages" (Reader.list Message.reader)
  let newState ← r.required "newState" Reader.document
  return { threadId, runId, result, newMessages, newState }

end RunResult

end AgentSession
