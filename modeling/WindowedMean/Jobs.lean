/-! Background *jobs* that share one processor, and how they are stopped.

    Jobs that are ready stand in a line and are run in that order, each until it waits for its
    signal, pauses or ends:

        started → [waits for its signal] → step 0 → pause → step 1 → … → last entry

    One *round* runs everybody who stood in line when it began. Those who paused stand in line again
    after the round, the one who paused last in front. Whoever holds a job can ask it to stop, look
    whether it has finished, or ask it and wait; waiting gives up the hold, and a job that failed has
    finished like any other. -/

namespace WindowedMean

/-- How a job begins: it waits for its signal, goes on at once, or fails. -/
inductive JobKind where
  | wait
  | now
  | fail
  deriving DecidableEq, Repr

/-- Where a job is: not run yet, waiting for its signal, before a step, or done. -/
inductive JobPoint where
  | fresh
  | waiting
  | step (k : Nat)
  | finished
  deriving DecidableEq, Repr

/-- A job that writes `steps` entries and a last one into the log. -/
structure Job where
  name : String
  kind : JobKind
  steps : Nat
  point : JobPoint
  signalled : Bool
  held : Bool
  deriving DecidableEq, Repr

namespace Job

/-- A job that has not run yet. -/
def ofKind (name : String) (kind : JobKind) (steps : Nat) : Job :=
  ⟨name, kind, steps, .fresh, false, true⟩

/-- The job before a step writes the entry of that step and pauses, or writes its last entry and is
    done: the entry, whether it paused, and the job. -/
def advance (j : Job) (k : Nat) : Option String × Bool × Job :=
  if k < j.steps then (some s!"{j.name}:{k}", true, { j with point := .step (k + 1) })
  else (some j.name, false, { j with point := .finished })

/-- One run of a job until it waits, pauses or ends. -/
def poll (j : Job) : Option String × Bool × Job :=
  match j.point, j.kind with
  | .fresh, .fail => (none, false, { j with point := .finished })
  | .fresh, .now => j.advance 0
  | .fresh, .wait | .waiting, _ =>
    if j.signalled then j.advance 0 else (none, false, { j with point := .waiting })
  | .step k, _ => j.advance k
  | .finished, _ => (none, false, j)

end Job

/-- All jobs, the line of those that are ready, and the log. -/
structure Jobs where
  jobs : List Job
  ready : List Nat
  log : List String
  deriving DecidableEq, Repr

namespace Jobs

/-- No jobs. -/
def empty : Jobs := ⟨[], [], []⟩

/-- Starts a job; it is ready but does not run yet. -/
def spawn (s : Jobs) (name : String) (kind : JobKind) (steps : Nat) : Jobs :=
  { s with jobs := s.jobs ++ [.ofKind name kind steps], ready := s.ready ++ [s.jobs.length] }

/-- The position of the held job with a name. -/
def position? (s : Jobs) (name : String) : Option Nat :=
  s.jobs.findIdx? fun j => j.held && j.name == name

/-- Runs the job at a position once; `paused` are those who paused before it, last one first. -/
def runAt (s : Jobs) (paused : List Nat) (k : Nat) : Jobs × List Nat :=
  match s.jobs[k]? with
  | none => (s, paused)
  | some j =>
    let (entry, pauses, j') := j.poll
    ({ s with jobs := s.jobs.set k j', log := s.log ++ entry.toList },
      if pauses then k :: paused else paused)

/-- Runs everybody in line once. -/
def round (s : Jobs) : Jobs :=
  let (s', paused) := s.ready.foldl (fun (s, paused) k => s.runAt paused k) ({ s with ready := [] }, [])
  { s' with ready := s'.ready ++ paused }

/-- A number of rounds after which nobody is left in line. -/
def enough (s : Jobs) : Nat := (s.jobs.map (·.steps)).foldl max 0 + 2

/-- Rounds until `done` or nobody is in line; `rounds` bounds their number. -/
def runUntil (done : Jobs → Bool) : Nat → Jobs → Jobs
  | 0, s => s
  | rounds + 1, s => if done s || s.ready.isEmpty then s else runUntil done rounds s.round

/-- Rounds until nobody is in line. -/
def settle (s : Jobs) : Jobs := runUntil (fun _ => false) s.enough s

/-- Asks the job at a position to stop; one that waits for its signal becomes ready. -/
def signalAt (s : Jobs) (k : Nat) : Jobs :=
  match s.jobs[k]? with
  | none => s
  | some j =>
    { s with
      jobs := s.jobs.set k { j with signalled := true }
      ready := if j.point = .waiting ∧ ¬ j.signalled then s.ready ++ [k] else s.ready }

/-- The job at a position has finished. -/
def finishedAt (s : Jobs) (k : Nat) : Bool := (s.jobs[k]?.map fun j => j.point == .finished).getD true

/-- Asks the job at a position to stop, waits for it and gives up the hold. -/
def stopAt (s : Jobs) (k : Nat) : Jobs :=
  let s' := runUntil (finishedAt · k) s.enough (s.signalAt k)
  { s' with jobs := s'.jobs.modify k fun j => { j with held := false } }

/-- Asks a held job to stop; nothing where there is none of that name. -/
def signal (s : Jobs) (name : String) : Option Jobs := (s.position? name).map s.signalAt

/-- Asks a held job to stop and waits for it; nothing where there is none of that name. -/
def stop (s : Jobs) (name : String) : Option Jobs := (s.position? name).map s.stopAt

/-- Whether a held job has finished; no answer where there is none of that name. -/
def finished? (s : Jobs) (name : String) : Option Bool := (s.position? name).map s.finishedAt

/-- The name of a held job. -/
def name? (s : Jobs) (name : String) : Option String :=
  ((s.position? name).bind (s.jobs[·]?)).map (·.name)

/-- Stops the held jobs among the given ones: all are asked first, then each is stopped in turn. -/
def stopAll (s : Jobs) (names : List String) : Jobs :=
  let ks := names.filterMap s.position?
  ks.foldl stopAt (ks.foldl signalAt s)

end Jobs

end WindowedMean
