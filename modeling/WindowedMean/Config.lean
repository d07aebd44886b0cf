import WindowedMean.Ingestion
import WindowedMean.Producer
import WindowedMean.Reduction

/-! The *configuration* of a running program: eleven settings, each with a value to start from.

    A program that is given no configuration has the standard one. A text describes a configuration by
    the settings it makes, and what it does not set has a value all the same. Whether the values make
    sense together is a question of its own (`validate`), asked after all settings are in place. -/

namespace WindowedMean

/-- All that can be configured. -/
@[ext] structure Config where
  windowCapacity : Nat
  valueRange : Int
  reduceIntervalMs : Nat
  nodes : Nat
  queueCapacity : Nat
  batchSize : Nat
  nodeTimeoutMs : Nat
  producerPauseMs : Nat
  producerSeed : Option Nat
  bind : String
  metrics : Bool
  deriving DecidableEq, Repr

/-- The names of the settings. -/
inductive ConfigKey where
  | windowCapacity
  | valueRange
  | reduceIntervalMs
  | nodes
  | queueCapacity
  | batchSize
  | nodeTimeoutMs
  | producerPauseMs
  | producerSeed
  | bind
  | metrics
  deriving DecidableEq, Repr

namespace ConfigKey

/-- All keys in their order. -/
def all : List ConfigKey :=
  [.windowCapacity, .valueRange, .reduceIntervalMs, .nodes, .queueCapacity, .batchSize,
    .nodeTimeoutMs, .producerPauseMs, .producerSeed, .bind, .metrics]

/-- How a key is written. -/
def name : ConfigKey → String
  | .windowCapacity => "window_capacity"
  | .valueRange => "value_range"
  | .reduceIntervalMs => "reduce_interval_ms"
  | .nodes => "nodes"
  | .queueCapacity => "queue_capacity"
  | .batchSize => "batch_size"
  | .nodeTimeoutMs => "node_timeout_ms"
  | .producerPauseMs => "producer_pause_ms"
  | .producerSeed => "producer_seed"
  | .bind => "bind"
  | .metrics => "metrics"

/-- The key that is written so. -/
def ofName? (s : String) : Option ConfigKey := all.find? fun k => k.name == s

end ConfigKey

/-- One setting: a key with its value. -/
inductive Setting where
  | windowCapacity (n : Nat)
  | valueRange (n : Int)
  | reduceIntervalMs (n : Nat)
  | nodes (n : Nat)
  | queueCapacity (n : Nat)
  | batchSize (n : Nat)
  | nodeTimeoutMs (n : Nat)
  | producerPauseMs (n : Nat)
  | producerSeed (n : Option Nat)
  | bind (s : String)
  | metrics (b : Bool)
  deriving DecidableEq, Repr

namespace Config

/-! ### Values to start from -/

def defaultWindowCapacity : Nat := 500

def defaultValueRange : Int := 100

def defaultReduceIntervalMs : Nat := 3000

def defaultNodes : Nat := 3

def defaultQueueCapacity : Nat := 1024

def defaultBatchSize : Nat := 64

def defaultNodeTimeoutMs : Nat := 500

def defaultBind : String := "127.0.0.1:8080"

/-- The configuration of a program that is given none. -/
def standard : Config where
  windowCapacity := defaultWindowCapacity
  valueRange := defaultValueRange
  reduceIntervalMs := defaultReduceIntervalMs
  nodes := defaultNodes
  queueCapacity := defaultQueueCapacity
  batchSize := defaultBatchSize
  nodeTimeoutMs := defaultNodeTimeoutMs
  producerPauseMs := 0
  producerSeed := none
  bind := defaultBind
  metrics := false

/-- What a text means by the settings that it does not make. Pause, seed and metrics are then what
    their types begin with. -/
def unset : Config where
  windowCapacity := defaultWindowCapacity
  valueRange := defaultValueRange
  reduceIntervalMs := defaultReduceIntervalMs
  nodes := defaultNodes
  queueCapacity := defaultQueueCapacity
  batchSize := defaultBatchSize
  nodeTimeoutMs := defaultNodeTimeoutMs
  producerPauseMs := 0
  producerSeed := none
  bind := defaultBind
  metrics := false

/-! ### Settings -/

/-- Makes one setting. -/
def set (c : Config) : Setting → Config
  | .windowCapacity n => { c with windowCapacity := n }
  | .valueRange n => { c with valueRange := n }
  | .reduceIntervalMs n => { c with reduceIntervalMs := n }
  | .nodes n => { c with nodes := n }
  | .queueCapacity n => { c with queueCapacity := n }
  | .batchSize n => { c with batchSize := n }
  | .nodeTimeoutMs n => { c with nodeTimeoutMs := n }
  | .producerPauseMs n => { c with producerPauseMs := n }
  | .producerSeed n => { c with producerSeed := n }
  | .bind s => { c with bind := s }
  | .metrics b => { c with metrics := b }

/-- The configuration of a text that makes the given settings. -/
def ofSettings (settings : List Setting) : Config := settings.foldl set unset

end Config

/-- Why a configuration makes no sense. -/
inductive ConfigFault where
  | windowCapacity
  | valueRange
  | nodes
  | queueOrBatch
  | reduceInterval
  deriving DecidableEq, Repr

/-- What an operator reads about the fault. -/
def ConfigFault.message : ConfigFault → String
  | .windowCapacity => "window_capacity must be positive"
  | .valueRange => "value_range must be positive"
  | .nodes => "nodes must be at least 1"
  | .queueOrBatch => "queue_capacity and batch_size must be positive"
  | .reduceInterval => "reduce_interval_ms must be positive"

namespace Config

/-- The first fault of a configuration, if it has one. -/
def validate (c : Config) : Except ConfigFault Unit :=
  if c.windowCapacity = 0 then .error .windowCapacity
  else if c.valueRange ≤ 0 then .error .valueRange
  else if c.nodes = 0 then .error .nodes
  else if c.queueCapacity = 0 ∨ c.batchSize = 0 then .error .queueOrBatch
  else if c.reduceIntervalMs = 0 then .error .reduceInterval
  else .ok ()

/-- The sizes of the queues and batches. -/
def intake (c : Config) : Intake := ⟨c.queueCapacity, c.batchSize⟩

/-- The settings of a node's producer. A fixed seed is moved on by the number of the node, around the
    end of the range, so the producers differ. -/
def producer (c : Config) (node : Nat) : ProducerSettings :=
  ⟨c.valueRange, c.producerPauseMs, c.producerSeed.map fun s => (s + node) % (sizeLimit + 1)⟩

/-- The average to be expected from the producers. -/
def ideal (c : Config) : Float := idealAverage c.valueRange

theorem validate_eq_ok_iff {c : Config} :
    c.validate = .ok () ↔ 0 < c.windowCapacity ∧ 0 < c.valueRange ∧ 0 < c.nodes ∧
      0 < c.queueCapacity ∧ 0 < c.batchSize ∧ 0 < c.reduceIntervalMs := by
  unfold validate
  grind

end Config

end WindowedMean
