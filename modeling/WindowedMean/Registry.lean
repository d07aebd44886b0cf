import WindowedMean.Accumulator

/-! A *registry* is a node's own table of accumulators by key.

    A key is bound at most once: `putIfAbsent` stores a handle only under a vacant key, and
    `getOrCreate` first looks, then makes an accumulator and puts it, so all who ask for one key
    end up with one accumulator. Accumulators that are bound nowhere live beside the bound ones. -/

namespace WindowedMean

/-- Why a registry gave no answer. -/
inductive RegistryError where
  | unavailable (reason : String)
  deriving DecidableEq, Repr

/-- What an operator reads about the failure. -/
def RegistryError.message : RegistryError → String
  | .unavailable reason => s!"local space unavailable: {reason}"

/-- The key under which a node keeps its windowed mean. -/
def meanKey : String := "avg"

/-- Accumulators, and the keys that some of them are bound to, oldest binding first. -/
structure Registry where
  accumulators : Accumulators
  entries : List (String × Handle)
  deriving DecidableEq, Repr

namespace Registry

/-- No accumulators and no keys. -/
def empty : Registry := ⟨.none, []⟩

/-- The accumulator bound to a key. -/
def get? (reg : Registry) (key : String) : Option Handle := reg.entries.lookup key

/-- The number of bound keys. -/
def size (reg : Registry) : Nat := reg.entries.length

/-- A copy of an accumulator's state. -/
def state (reg : Registry) (h : Handle) : Snapshot := reg.accumulators.state h

/-- The state stored under a key. -/
def stored (reg : Registry) (key : String) : Option Snapshot := (reg.get? key).map reg.state

/-- A new accumulator, bound to no key. -/
def fresh (reg : Registry) (s : Snapshot) : Handle × Registry :=
  let (h, t) := reg.accumulators.make s
  (h, { reg with accumulators := t })

/-- Binds a vacant key. A bound key keeps its accumulator, which is handed back. -/
def putIfAbsent (reg : Registry) (key : String) (h : Handle) : Option Handle × Registry :=
  match reg.get? key with
  | some resident => (some resident, reg)
  | none => (none, { reg with entries := reg.entries ++ [(key, h)] })

/-- The accumulator under a key, made and bound on first use. -/
def getOrCreate (reg : Registry) (key : String) : Handle × Registry :=
  match reg.get? key with
  | some resident => (resident, reg)
  | none =>
    let (made, reg') := reg.fresh 0
    match reg'.putIfAbsent key made with
    | (some resident, reg'') => (resident, reg'')
    | (none, reg'') => (made, reg'')

/-- Adds a pair to an accumulator of the registry. -/
def add (reg : Registry) (h : Handle) (d : Snapshot) : Except AverageError Registry :=
  match reg.accumulators.add h d with
  | .ok t => .ok { reg with accumulators := t }
  | .error e => .error e

/-- Adds one accumulator's present state to another. -/
def merge (reg : Registry) (target source : Handle) : Except AverageError Registry :=
  reg.add target (reg.state source)

/-- Makes an accumulator with the given state and puts it under a key if that is vacant. What was
    there already comes back as a copy. -/
def preset (reg : Registry) (key : String) (s : Snapshot) : Option Snapshot × Registry :=
  let (made, reg') := reg.fresh s
  match reg'.putIfAbsent key made with
  | (some resident, reg'') => (some (reg''.state resident), reg'')
  | (none, reg'') => (none, reg'')

/-- Adds a pair to the accumulator under a key, which is made if need be and stays even if the pair
    is refused. -/
def addUnder (reg : Registry) (key : String) (d : Snapshot) : Except AverageError Unit × Registry :=
  let (h, reg') := reg.getOrCreate key
  match reg'.add h d with
  | .ok reg'' => (.ok (), reg'')
  | .error e => (.error e, reg')

end Registry

end WindowedMean
