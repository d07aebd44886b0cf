import WindowedMean.Http.Exchange
import WindowedMean.Http.MediaType
import WindowedMean.Message
import WindowedMean.Text.Percent
import WindowedMean.Text.Unsigned

/-! What a request asks of the program, or why it asks nothing.

        GET  /health        the program is alive
        GET  /average       the latest readout
        POST /events        events for a node
        GET  /nodes/3       the status of a node

    The path decides first, then the method, then what the request brings with it: for events the
    type of the body, its size, and whether it is JSON and has the right shape. Whether there is such
    a node is not asked here. -/

namespace WindowedMean.Http

/-- A path that is known. -/
inductive Route where
  | health
  | average
  | events
  | node (id : String)
  deriving DecidableEq, Repr

namespace Route

/-- What follows the scheme, if the target names one. -/
def afterScheme? : List Char → Option (List Char)
  | ':' :: '/' :: '/' :: rest => some rest
  | '/' :: _ | [] => none
  | _ :: rest => afterScheme? rest

/-- What follows the host, if the target names one. -/
def afterHost (target : List Char) : List Char :=
  match afterScheme? target with
  | some rest => rest.dropWhile fun c => c != '/' && c != '?' && c != '#'
  | none => target

/-- The path of a target, up to a query or a fragment. -/
def path (target : String) : List Char :=
  (afterHost target.toList).takeWhile fun c => c != '?' && c != '#'

/-- The route of a path. The number of a node is one part of the path and not empty. -/
def ofPath? (p : List Char) : Option Route :=
  if p = "/health".toList then some .health
  else if p = "/average".toList then some .average
  else if p = "/events".toList then some .events
  else if "/nodes/".toList.isPrefixOf p then
    match p.drop "/nodes/".length with
    | [] => none
    | id => if id.contains '/' then none else some (.node (.ofList id))
  else none

/-- The methods of a route, as they are listed. -/
def allow : Route → String
  | .events => "POST"
  | _ => "GET,HEAD"

/-- The route has the method. -/
def takes (r : Route) (method : String) : Bool :=
  match r with
  | .events => method == "POST"
  | _ => method == "GET" || method == "HEAD"

end Route

/-- What is asked of the program. -/
inductive Call where
  | health
  | average
  | submit (s : Submission)
  | status (node : Nat)
  deriving DecidableEq, Repr

/-- Why nothing is asked of it. The number of a node is bad as it was read, or cannot be read. -/
inductive Refusal where
  | unknownPath
  | wrongMethod (route : Route)
  | badNode (text : Option String)
  | notJson
  | tooLarge
  | malformed
  | mismatch
  deriving DecidableEq, Repr

namespace Refusal

/-- The status of a refusal. -/
def status : Refusal → Nat
  | .unknownPath => 404
  | .wrongMethod _ => 405
  | .badNode _ => 400
  | .notJson => 415
  | .tooLarge => 413
  | .malformed => 400
  | .mismatch => 422

/-- The response to a refusal. -/
def response (e : Refusal) : Response :=
  match e with
  | .unknownPath => .bare e.status
  | .wrongMethod route => (Response.bare e.status).withHeader "allow" route.allow
  | .badNode (some s) => .ofText e.status s!"Invalid URL: Cannot parse \x60{s}\x60 to a \x60u64\x60"
  | .badNode none => .ofText e.status "Invalid URL: Invalid UTF-8 in \x60id\x60"
  | .notJson => .ofText e.status "Expected request with \x60Content-Type: application/json\x60"
  | .tooLarge => .ofText e.status "Failed to buffer the request body: length limit exceeded"
  | .malformed | .mismatch => .ofDiagnostic e.status

end Refusal

/-- The greatest number of bytes in a body. -/
def bodyLimit : Nat := 2 * 1024 * 1024

/-- The number of a node, as it is written in a path. -/
def nodeNumber (id : String) : Except Refusal Nat :=
  match Text.percentDecode? id with
  | none => .error (.badNode none)
  | some s =>
    match Text.unsigned s with
    | .ok n => .ok n
    | .error _ => .error (.badNode (some s))

/-- The submission that a request brings. -/
def submission (r : Request) : Except Refusal Submission :=
  if !((header? r.headers "content-type").map saysJson).getD false then .error .notJson
  else if bodyLimit < r.body.utf8ByteSize then .error .tooLarge
  else
    match Submission.ofJson r.body with
    | .ok s => .ok s
    | .error .malformed => .error .malformed
    | .error .mismatch => .error .mismatch

/-- What a request asks. -/
def Request.call (r : Request) : Except Refusal Call :=
  match Route.ofPath? (Route.path r.target) with
  | none => .error .unknownPath
  | some route =>
    if !route.takes r.method then .error (.wrongMethod route)
    else
      match route with
      | .health => .ok .health
      | .average => .ok .average
      | .events => (submission r).map .submit
      | .node id => (nodeNumber id).map .status

end WindowedMean.Http
