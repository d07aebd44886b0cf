import WindowedMean.Config
import WindowedMean.Json.Record
import WindowedMean.Toml.Document

/-! Reading a configuration from JSON or TOML.

    Both formats name the settings alike and refuse a name they do not know; every setting may be
    missing. JSON may also list the values in the order of the keys, and its `null` means no seed;
    TOML has no word for that. -/

namespace WindowedMean

open Json (Schema Reader Fault Token)

namespace Json.Token

/-- A size, or `null` for none. -/
def size? : Token → Except Fault (Option Nat)
  | .null => .ok none
  | t => t.size.map some

end Json.Token

namespace ConfigKey

/-- The setting that a token makes for a key. -/
def ofToken (k : ConfigKey) (t : Token) : Except Fault Setting :=
  match k with
  | .windowCapacity => t.size.map .windowCapacity
  | .valueRange => t.event.map .valueRange
  | .reduceIntervalMs => t.size.map .reduceIntervalMs
  | .nodes => t.size.map .nodes
  | .queueCapacity => t.size.map .queueCapacity
  | .batchSize => t.size.map .batchSize
  | .nodeTimeoutMs => t.size.map .nodeTimeoutMs
  | .producerPauseMs => t.size.map .producerPauseMs
  | .producerSeed => t.size?.map .producerSeed
  | .bind => t.text.map .bind
  | .metrics => t.truth.map .metrics

end ConfigKey

namespace Toml.Scalar

/-- A size. -/
def size? : Scalar → Option Nat
  | .integer n => if 0 ≤ n ∧ n ≤ sizeLimit then some n.toNat else none
  | _ => none

/-- An integer of 64 bits with a sign. -/
def event? : Scalar → Option Int
  | .integer n => narrow n
  | _ => none

/-- A text. -/
def text? : Scalar → Option String
  | .text s => some s
  | _ => none

/-- A truth value. -/
def truth? : Scalar → Option Bool
  | .truth b => some b
  | _ => none

end Toml.Scalar

namespace ConfigKey

/-- The setting that a single value makes for a key. -/
def ofScalar? (k : ConfigKey) (v : Toml.Scalar) : Option Setting :=
  match k with
  | .windowCapacity => v.size?.map .windowCapacity
  | .valueRange => v.event?.map .valueRange
  | .reduceIntervalMs => v.size?.map .reduceIntervalMs
  | .nodes => v.size?.map .nodes
  | .queueCapacity => v.size?.map .queueCapacity
  | .batchSize => v.size?.map .batchSize
  | .nodeTimeoutMs => v.size?.map .nodeTimeoutMs
  | .producerPauseMs => v.size?.map .producerPauseMs
  | .producerSeed => v.size?.map fun n => .producerSeed (some n)
  | .bind => v.text?.map .bind
  | .metrics => v.truth?.map .metrics

end ConfigKey

namespace Config

/-- A configuration as a record. -/
def schema : Schema ConfigKey Setting where
  fields := ConfigKey.all.map fun k => (k.name, k)
  strict := true
  sparse := true
  read k := .one k.ofToken
  read_consumes _ := Reader.one_consumes _

/-- The configuration that a row of JSON tokens is. -/
def ofTokens (ts : List Token) : Except Fault Config :=
  (schema.ofTokens ts).map fun found => ofSettings (found.map (·.2))

/-- The configuration that a JSON text is. -/
def ofJson (text : String) : Except Fault Config := ofTokens (Json.lex text.toList)

/-- The setting that a line of a TOML document makes. -/
def ofEntry? (e : String × Toml.Scalar) : Option Setting :=
  (ConfigKey.ofName? e.1).bind fun k => k.ofScalar? e.2

/-- The configuration that a TOML text is. -/
def ofToml? (text : String) : Option Config :=
  (Toml.document? text).bind fun entries => (entries.mapM ofEntry?).map ofSettings

end Config

end WindowedMean
