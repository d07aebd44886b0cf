/-! The media type that a body is said to have.

        application/json; charset=utf-8
        ───┬─────── ─┬──  ──────┬──────
          main      sub    parameters

    A subtype may have a suffix after a plus sign, which says what the body is made of; the plus
    sign is the last one, and not the first character. Parameters have to be well formed, though
    nothing is made of them: an automaton reads them to the end. -/

namespace WindowedMean.Http

/-- A character that names and values may be made of. -/
def isToken (c : Char) : Bool :=
  c.isAlphanum || "!#$%&'*+-.^_\x60|~".toList.contains c

/-- A character that may stand between quotes. -/
def isQuotable (c : Char) : Bool := 31 < c.toNat && c.toNat != 127

/-- A character that may stand in the value of a header that is read as text. -/
def isVisible (c : Char) : Bool := c == '\t' || (32 ≤ c.toNat && c.toNat < 127)

/-- Where in the parameters a reader is: before a name, in a name, right behind the equals sign, in a
    value, right behind the opening quote, between quotes, or behind the closing one. -/
inductive Place where
  | start
  | name
  | equals
  | value
  | opened
  | quoted
  | closed
  deriving DecidableEq, Repr

/-- One character of the parameters. -/
def Place.step : Place → Char → Option Place
  | .start, c => if c == ' ' then some .start else if isToken c then some .name else none
  | .name, c => if c == '=' then some .equals else if isToken c then some .name else none
  | .equals, c => if c == '"' then some .opened else if isToken c then some .value else none
  | .value, c => if c == ';' then some .start else if isToken c then some .value else none
  | .opened, c => if isQuotable c then some .quoted else none
  | .quoted, c => if c == '"' then some .closed else if isQuotable c then some .quoted else none
  | .closed, c => if c == ';' then some .start else if c == ' ' then some .closed else none

/-- The parameters may end here. -/
def Place.final : Place → Bool
  | .start | .equals | .value | .closed => true
  | _ => false

/-- The parameters after a semicolon are well formed. -/
def wellFormed (cs : List Char) : Bool := ((cs.foldlM Place.step .start).map Place.final).getD false

/-- A media type, in lower case and without its parameters. -/
structure MediaType where
  main : List Char
  sub : List Char
  deriving DecidableEq, Repr

namespace MediaType

/-- The media type that a text is. -/
def ofChars? (cs : List Char) : Option MediaType :=
  match cs.takeWhile isToken, cs.dropWhile isToken with
  | main@(_ :: _), '/' :: rest =>
    let sub := rest.takeWhile isToken
    let found := some ⟨main.map Char.toLower, sub.map Char.toLower⟩
    match rest.dropWhile isToken with
    | [] => found
    | ';' :: parameters => if !sub.isEmpty && wellFormed parameters then found else none
    | _ => none
  | _, _ => none

/-- The subtype up to its suffix. -/
def base (m : MediaType) : List Char :=
  match m.sub.reverse.span (· != '+') with
  | (_, _ :: front@(_ :: _)) => front.reverse
  | _ => m.sub

/-- The suffix of the subtype. -/
def suffix? (m : MediaType) : Option (List Char) :=
  match m.sub.reverse.span (· != '+') with
  | (back, _ :: _ :: _) => some back.reverse
  | _ => none

/-- A body of this type is JSON. -/
def isJson (m : MediaType) : Bool :=
  m.main == "application".toList && (m.base == "json".toList || m.suffix? == some "json".toList)

end MediaType

/-- The value of a header says that the body is JSON. -/
def saysJson (value : String) : Bool :=
  value.toList.all isVisible && ((MediaType.ofChars? value.toList).map MediaType.isJson).getD false

end WindowedMean.Http
