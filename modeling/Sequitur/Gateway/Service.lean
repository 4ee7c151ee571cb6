import Sequitur.Gateway.ContentType
import Sequitur.Gateway.Route
import Sequitur.Json.Trees
import Sequitur.Session.Manager

/-!
# The HTTP service

Requests name an operation on the table of sessions by a route and a method. An answer has a
status and a body: unknown sessions are answered with 404, refused arguments with 400 and
every other failure with 500, and the body then holds what is said about the failure.

The body of a request is text here: bytes that are no text are not among the requests. The limit
that the framework sets by default on the size of a body is left out too, so a body of any size is
read.
-/

namespace Sequitur.Gateway

/-- A request: its method, its path, the header that says what its body is, and the body. -/
structure Request where
  method : String
  target : String
  contentType : Option String
  body : String
  deriving DecidableEq, Repr

/-- An answer: its status, and its body if that is JSON. -/
structure Response where
  status : Nat
  body : Option Json

namespace Response

def bare (status : Nat) : Response := ⟨status, none⟩

def withJson (status : Nat) (body : Json) : Response := ⟨status, some body⟩

def statusOf : Failure → Nat
  | .sessionNotFound _ => 404
  | .argument _ => 400
  | _ => 500

def ofFailure (failure : Failure) : Response :=
  withJson (statusOf failure) (.record [("error", .string failure.message)])

def ofLines : Answer (List String) → Response
  | .ok lines => withJson 200 (.record [("lines", .strings lines)])
  | .error failure => ofFailure failure

end Response

/-! ### Request bodies -/

/-- Reads a body by a reader of JSON. What follows the first value is left unread. -/
def readBody (reader : Json.Reader α) (request : Request) : Answer α :=
  if (request.contentType.map isJsonType).getD false then
    match reader request.body.toList with
    | .ok (value, _) => .ok value
    | .error .malformed => .error (.argument .bodyMalformed)
    | .error .misshapen => .error (.argument .bodyMisshapen)
  else .error (.argument .bodyNotJson)

/-- Reads the lines of a record with the field `lines`, and skips other fields. -/
def linesBody : Json.Reader (List String) :=
  let linesValue := Json.arrayValue Json.stringValue
  let ofMembers : Json.Reader (List String) := do
    let found ← Json.objectRest Json.stringRest (fun (found : Option (List String)) name =>
      if name = "lines" then Json.memberField found linesValue
      else do
        Json.colon
        Json.skipValue
        return found) none
    Json.required found
  Json.recordValue ofMembers (Json.itemField true linesValue)

/-! ### Operations -/

/-- Makes a session with the drawn identifier and the limit of the body. -/
def createSession (kind : EngineKind σ) (table : SessionTable σ) (drawn : Uuid)
    (request : Request) : Response × SessionTable σ :=
  match (readBody Json.anyValue request).bind fun body =>
      limitOfJson ((body.get? "limit").getD .null) with
  | .error failure => (.ofFailure failure, table)
  | .ok limit =>
      match table.create kind drawn limit with
      | (.error failure, table) => (.ofFailure failure, table)
      | (.ok id, table) => (.withJson 201 (.record [("id", .string id.toString)]), table)

def summaryJson (summary : SessionSummary) : Json :=
  .record [("id", .string summary.id.toString), ("limit", .nat summary.limit),
    ("size", .nat summary.size)]

/-- Works on the session of a name in a path. A name that is no text is a bad request, and
one that is no identifier is that of no session. -/
def onSession (table : SessionTable σ) (name : String)
    (work : Uuid → Response × SessionTable σ) : Response × SessionTable σ :=
  match decodedName? name with
  | none => (.bare 400, table)
  | some name =>
      match Uuid.ofString? name with
      | none => (.ofFailure (.sessionNotFound name), table)
      | some id => work id

def deleteSession (table : SessionTable σ) (id : Uuid) : Response × SessionTable σ :=
  match table.delete id with
  | (.error failure, table) => (.ofFailure failure, table)
  | (.ok (), table) => (.bare 204, table)

/-- Offers the lines of the body to a session. -/
def addLines (kind : EngineKind σ) (table : SessionTable σ) (request : Request) (id : Uuid) :
    Response × SessionTable σ :=
  match readBody linesBody request with
  | .error failure => (.ofFailure failure, table)
  | .ok lines =>
      let (answer, table) := table.addLines kind id lines
      (.ofLines answer, table)

def searchSession (kind : EngineKind σ) (table : SessionTable σ) (id : Uuid) :
    Response × SessionTable σ :=
  let (answer, table) := table.search kind id
  (.ofLines answer, table)

/-- Answers a request by its route and method; a route does not know every method. -/
def onRoute (kind : EngineKind σ) (table : SessionTable σ) (drawn : Uuid) (request : Request)
    (route : Route) (method : String) : Response × SessionTable σ :=
  match route, method with
  | .health, "GET" =>
      (.withJson 200 (.record [("status", .string "ok"), ("sessions", .nat table.size)]), table)
  | .sessions, "GET" => (.withJson 200 (.array (table.summaries.map summaryJson)), table)
  | .sessions, "POST" => createSession kind table drawn request
  | .session name, "DELETE" => onSession table name (deleteSession table)
  | .lines name, "GET" =>
      onSession table name fun id => (.ofLines (table.lines id), table)
  | .lines name, "POST" => onSession table name (addLines kind table request)
  | .search name, "POST" => onSession table name (searchSession kind table)
  | _, _ => (.bare 405, table)

/-- Answers a request. `OPTIONS` is answered everywhere, and `HEAD` like `GET` without the
body. A session that the request makes gets the drawn identifier. -/
def handle (kind : EngineKind σ) (table : SessionTable σ) (drawn : Uuid) (request : Request) :
    Response × SessionTable σ :=
  if request.method = "OPTIONS" then (.bare 200, table)
  else
    match Route.ofTarget? request.target with
    | none => (.bare 404, table)
    | some route =>
        if request.method = "HEAD" then
          let (response, table) := onRoute kind table drawn request route "GET"
          (.bare response.status, table)
        else onRoute kind table drawn request route request.method

end Sequitur.Gateway
