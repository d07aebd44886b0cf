import WindowedMean.Json.Record
import WindowedMean.Json.Value
import WindowedMean.Node

/-! The messages that nodes and their callers exchange, with the JSON text of each.

    A snapshot answers a *query*, which names the accumulator that is asked for; a *submission*
    brings a node its events. Each is read as a record in which unknown fields are skipped, and the
    first two are written with their fields in the declared order. -/

namespace WindowedMean

open Json (Schema Reader Fault)

/-- The fields of a snapshot. -/
inductive SnapshotField where
  | total
  | count
  deriving DecidableEq, Repr

namespace Snapshot

/-- A snapshot as a record. -/
def schema : Schema SnapshotField Int where
  fields := [("total", .total), ("count", .count)]
  strict := false
  sparse := false
  read _ := .one Json.Token.event
  read_consumes _ := Reader.one_consumes _

/-- The snapshot whose fields were read. -/
def ofFields (found : List (SnapshotField × Int)) : Snapshot :=
  ⟨(found.lookup .total).getD 0, (found.lookup .count).getD 0⟩

/-- Reads a snapshot. -/
def ofJson (text : String) : Except Fault Snapshot := (schema.ofText text).map ofFields

/-- A snapshot as JSON. -/
def json (s : Snapshot) : Json.Value := .object [("total", .int s.total), ("count", .int s.count)]

end Snapshot

/-- A node's view of itself as JSON. -/
def Status.json (s : Status) : Json.Value :=
  .object [("node", .nat s.node), ("total", .int s.total), ("count", .int s.count),
    ("avg", .float? s.average), ("window_len", .nat s.windowLength),
    ("window_capacity", .nat s.windowCapacity)]

/-- Asks a node for a copy of the accumulator under a key. -/
@[ext] structure Query where
  key : String
  deriving DecidableEq, Repr

/-- The one field of a query. -/
inductive QueryField where
  | key
  deriving DecidableEq, Repr

namespace Query

/-- A query as a record. -/
def schema : Schema QueryField String where
  fields := [("key", .key)]
  strict := false
  sparse := false
  read _ := .one Json.Token.text
  read_consumes _ := Reader.one_consumes _

/-- The query whose field was read. -/
def ofFields (found : List (QueryField × String)) : Query := ⟨(found.lookup .key).getD ""⟩

/-- Reads a query. -/
def ofJson (text : String) : Except Fault Query := (schema.ofText text).map ofFields

/-- A query as JSON. -/
def json (q : Query) : Json.Value := .object [("key", .string q.key)]

end Query

/-- Events for a node. -/
structure Submission where
  node : Nat
  values : List Int
  deriving DecidableEq, Repr

/-- The fields of a submission. -/
inductive SubmissionField where
  | node
  | values
  deriving DecidableEq, Repr

/-- What a field of a submission holds. -/
inductive SubmissionPart where
  | node (id : Nat)
  | values (vs : List Int)
  deriving DecidableEq, Repr

namespace Submission

/-- Reads the value of a field. -/
def readPart : SubmissionField → Reader SubmissionPart
  | .node => .one fun t => t.size.map .node
  | .values => fun ts => (Reader.items Json.Token.event ts).map fun (vs, rest) => (.values vs, rest)

theorem readPart_consumes (k : SubmissionField) : (readPart k).Consumes := by
  cases k with
  | node => exact Reader.one_consumes _
  | values =>
    intro ts a rest h
    cases hi : Reader.items Json.Token.event ts with
    | error e => simp [readPart, hi, Except.map] at h
    | ok p =>
      simp [readPart, hi, Except.map] at h
      rw [← h.2]
      exact Reader.items_consumes _ _ p.1 p.2 hi

/-- A submission as a record. -/
def schema : Schema SubmissionField SubmissionPart where
  fields := [("node", .node), ("values", .values)]
  strict := false
  sparse := false
  read := readPart
  read_consumes := readPart_consumes

/-- The submission whose fields were read. -/
def ofFields (found : List (SubmissionField × SubmissionPart)) : Submission :=
  found.foldl (fun s (_, part) =>
    match part with
    | .node id => { s with node := id }
    | .values vs => { s with values := vs }) ⟨0, []⟩

/-- Reads a submission. -/
def ofJson (text : String) : Except Fault Submission := (schema.ofText text).map ofFields

end Submission

end WindowedMean
