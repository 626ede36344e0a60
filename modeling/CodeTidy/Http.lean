import CodeTidy.Json.Basic

/-!
# `CodeTidy.Http`: requests and their outcomes

A `Connection` holds the outcomes that are still to come and the requests that
have been sent. `Connection.send` takes the next outcome for a request. When
no outcome is left, no server can be reached, so every request has an outcome.
-/

set_option autoImplicit false

namespace CodeTidy

/-- What goes wrong with a request that gets no response. -/
inductive HttpFault where
  /-- No server is there. -/
  | noConnection
  /-- The server takes too long; `name` says in which phase. -/
  | timeout (name : Text)
  /-- Any other fault, under its name. -/
  | other (name : Text)
  deriving DecidableEq, Repr

namespace HttpFault

/-- The name of the fault when no server is there. -/
def noConnectionName : Text := "ConnectError"

/-- The names of the faults of a server that takes too long. -/
def timeoutNames : List Text :=
  ["ConnectTimeout", "ReadTimeout", "WriteTimeout", "PoolTimeout", "TimeoutException"]

/-- The fault of that name. -/
def ofName (name : Text) : HttpFault :=
  if name = noConnectionName then .noConnection
  else if timeoutNames.elem name then .timeout name
  else .other name

/-- The name of the fault. -/
def name : HttpFault → Text
  | .noConnection => noConnectionName
  | .timeout name => name
  | .other name => name

end HttpFault

/-- Why a request gets no response. -/
structure HttpFailure where
  fault : HttpFault
  message : Text
  deriving DecidableEq, Repr

/-- The answer of a server. -/
structure HttpResponse where
  status : Int
  body : Text
  deriving DecidableEq, Repr

namespace HttpResponse

/-- Whether the server has done what was asked. -/
def isOk (r : HttpResponse) : Bool := r.status == 200

end HttpResponse

/-- What becomes of a request. -/
abbrev HttpOutcome := Except HttpFailure HttpResponse

/-- How a request is made. -/
inductive HttpMethod where
  | get
  | post
  deriving DecidableEq, Repr

/-- The name of the method. -/
def HttpMethod.name : HttpMethod → Text
  | .get => "GET"
  | .post => "POST"

/-- A request; one that gets something has no body. -/
structure HttpRequest where
  method : HttpMethod
  url : Text
  body : Option Json

/-- The request as a JSON value. -/
def HttpRequest.toJson (r : HttpRequest) : Json :=
  .object [("method", .string r.method.name), ("url", .string r.url), ("body", r.body.getD .null)]

/-- The outcomes to come, and the requests that have been sent, the latest one last. -/
structure Connection where
  pending : List HttpOutcome
  sent : List HttpRequest

namespace Connection

/-- The connection over which nothing has been sent. -/
def fresh (pending : List HttpOutcome) : Connection := ⟨pending, []⟩

/-- The failure of a request after the last outcome. -/
def exhausted : HttpFailure := ⟨.noConnection, "no server answers"⟩

/-- The outcome of a request, and the connection after it. -/
def send (c : Connection) (request : HttpRequest) : HttpOutcome × Connection :=
  match c.pending with
  | [] => (.error exhausted, ⟨[], c.sent ++ [request]⟩)
  | outcome :: rest => (outcome, ⟨rest, c.sent ++ [request]⟩)

end Connection

end CodeTidy
