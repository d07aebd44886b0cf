import WindowedMean.Json.Value

/-! Requests and responses. -/

namespace WindowedMean.Http

/-- The values of the headers with a name, in any case. -/
def headerValues (headers : List (String × String)) (name : String) : List String :=
  (headers.filter fun h => h.1.map Char.toLower == name.map Char.toLower).map (·.2)

/-- The value of the first header with a name, in any case. -/
def header? (headers : List (String × String)) (name : String) : Option String :=
  (headerValues headers name).head?

/-- A request. -/
structure Request where
  method : String
  target : String
  headers : List (String × String)
  body : String
  deriving DecidableEq, Repr

/-- The body of a response. The words of a *diagnostic* are for people and not fixed here. -/
inductive Body where
  | empty
  | text (s : String)
  | json (v : Json.Value)
  | diagnostic

/-- The text of a body, where it is fixed. -/
def Body.fixedText? : Body → Option String
  | .empty => some ""
  | .text s => some s
  | .json v => some v.text
  | .diagnostic => none

/-- A response. -/
structure Response where
  status : Nat
  headers : List (String × String)
  body : Body

namespace Response

/-- A response without a body. -/
def bare (status : Nat) : Response := ⟨status, [], .empty⟩

/-- A response with a text. -/
def ofText (status : Nat) (s : String) : Response :=
  ⟨status, [("content-type", "text/plain; charset=utf-8")], .text s⟩

/-- A response with a JSON value. -/
def ofJson (status : Nat) (v : Json.Value) : Response :=
  ⟨status, [("content-type", "application/json")], .json v⟩

/-- A response with a diagnostic. -/
def ofDiagnostic (status : Nat) : Response :=
  ⟨status, [("content-type", "text/plain; charset=utf-8")], .diagnostic⟩

/-- The response with one more header. -/
def withHeader (r : Response) (name value : String) : Response :=
  { r with headers := r.headers ++ [(name, value)] }

/-- The response with the number of bytes in its body, where the body is fixed. -/
def measured (r : Response) : Response :=
  match r.body.fixedText? with
  | some s => r.withHeader "content-length" (toString s.utf8ByteSize)
  | none => r

/-- The response with its body left out. -/
def withoutBody (r : Response) : Response := { r with body := .empty }

end Response

end WindowedMean.Http
