import WindowedMean.Node

/-! What may keep a program from starting.

    Nodes are numbered from zero on, each with a window of one capacity, and later each gets a queue.
    There can only be so many nodes, a window needs a capacity, and a queue can only have so many
    places. The first of these that is broken is the one that is named:

        too many nodes  →  no capacity  →  too many places -/

namespace WindowedMean

/-- What keeps a program from starting. -/
inductive StartFault where
  | tooManyNodes
  | noCapacity
  | tooManyPlaces
  deriving DecidableEq, Repr

namespace StartFault

/-- The number of nodes, eight bytes each, that fit into half of the address space. -/
def nodesLimit : Nat := 0xfffffffffffffff

/-- The greatest number of places in a queue. -/
def placesLimit : Nat := 0x1fffffffffffffff

/-- What an operator reads about the fault. -/
def message : StartFault → String
  | .tooManyNodes => "capacity overflow"
  | .noCapacity => Window.capacityMessage
  | .tooManyPlaces => s!"a semaphore may not have more than MAX_PERMITS permits ({placesLimit})"

end StartFault

namespace Node

/-- A fresh node. -/
def start (id capacity : Nat) : Except StartFault Node :=
  match ofCapacity? id capacity with
  | some n => .ok n
  | none => .error .noCapacity

/-- Fresh nodes, numbered from zero on. -/
def startAll (count capacity : Nat) : Except StartFault (List Node) :=
  if StartFault.nodesLimit < count then .error .tooManyNodes
  else if count = 0 then .ok []
  else
    match Window.ofCapacity? capacity with
    | some w => .ok ((List.range count).map (ofWindow · w))
    | none => .error .noCapacity

end Node

end WindowedMean
