import WindowedMean.Http.Exchange

/-! Requests from pages of another origin.

    Every origin is admitted, by name, and with credentials. An `OPTIONS` request only asks what
    would be admitted, on whatever path: the answer repeats the method and the headers that were
    asked for. -/

namespace WindowedMean.Http

/-- A header of the response whose value is that of a header of the request. -/
def repeated (r : Request) (asked answered : String) : List (String × String) :=
  ((header? r.headers asked).map fun v => (answered, v)).toList

/-- The headers of every response. -/
def originHeaders (r : Request) : List (String × String) :=
  [("access-control-allow-credentials", "true"),
    ("vary", "origin, access-control-request-method, access-control-request-headers")]
    ++ repeated r "origin" "access-control-allow-origin"

/-- The headers of the response to a question. -/
def preflightHeaders (r : Request) : List (String × String) :=
  originHeaders r
    ++ repeated r "access-control-request-method" "access-control-allow-methods"
    ++ repeated r "access-control-request-headers" "access-control-allow-headers"

/-- The request only asks. -/
def isPreflight (r : Request) : Bool := r.method == "OPTIONS"

end WindowedMean.Http
