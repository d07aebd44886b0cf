import WindowedMean.Proofs.Delivery
import WindowedMean.Proofs.Weights

/-! It makes no difference how a stream of events was cut into batches.

    `Node.after` is the node that a list of events leads to, written down without any batches: its
    window is the end of the list and its accumulator, there as soon as there was an event, is the
    sum and the number of that end. One batch leads from the node after `a` to the node after
    `a ++ b`, so all ways through a list meet again:

        after []  ─▶  after a  ─▶  after (a ++ b)
             └──────────────────────────▶

    A queue in front of the node and its worker only cut the list in yet another way
    (`rebatching`). -/

namespace WindowedMean

/-! ### A registry with one key -/

/-- One accumulator under one key. -/
def Registry.single (key : String) (s : Snapshot) : Registry := ⟨⟨[s]⟩, [(key, ⟨0⟩)]⟩

theorem Registry.getOrCreate_single (key : String) (s : Snapshot) :
    (single key s).getOrCreate key = (⟨0⟩, single key s) :=
  getOrCreate_of_get? List.lookup_cons_self

theorem Registry.stored_single (key : String) (s : Snapshot) :
    (single key s).stored key = some s :=
  stored_of_get? (r := single key s) List.lookup_cons_self

/-- An accumulator that holds the residents takes in a light batch and holds the residents again. -/
theorem Tracker.settle_single (key : String) (w : Window) (events : List Int)
    (hl : Light (w.residents ++ events)) :
    settle (.single key (Snapshot.ofEvents w.residents)) ⟨0⟩ events (w.forecast events) =
      .ok (.single key (Snapshot.ofEvents (w.extend events).residents)) := by
  have hstate : (Registry.single key (Snapshot.ofEvents w.residents)).state ⟨0⟩ =
      Snapshot.ofEvents w.residents := rfl
  have hs := settle_of_admits (r := .single key (Snapshot.ofEvents w.residents)) (h := ⟨0⟩)
    (w.admits_of_light events hl)
  rw [hs, hstate, Window.change, add_sub_cancel]
  rfl

namespace Node
variable {capacity : Nat} {a b : List Int}

/-- The node with an empty window that has taken in `vs`. -/
def after (id : Nat) (h : 0 < capacity) (vs : List Int) : Node where
  id := id
  registry := if vs = [] then .empty else .single meanKey (Snapshot.ofEvents (vs.rtake capacity))
  tracker := ⟨(Window.empty capacity h).extend vs, meanKey⟩

theorem after_nil (id : Nat) (h : 0 < capacity) :
    after id h [] = ofWindow id (.empty capacity h) := rfl

theorem residents_after (id : Nat) (h : 0 < capacity) (vs : List Int) :
    (after id h vs).window.residents = vs.rtake capacity :=
  Window.residents_extend _ vs

theorem registry_after (id : Nat) (h : 0 < capacity) {vs : List Int} (hne : vs ≠ []) :
    (after id h vs).registry = .single meanKey (Snapshot.ofEvents (vs.rtake capacity)) :=
  if_neg hne

theorem fetch_after (id : Nat) (h : 0 < capacity) (vs : List Int) :
    (after id h vs).fetch meanKey =
      if vs = [] then none else some (Snapshot.ofEvents (vs.rtake capacity)) := by
  rw [fetch, after]
  split
  · rfl
  · exact Registry.stored_single meanKey _

/-- Before the first batch the accumulator is made, and after it found. -/
theorem getOrCreate_after (id : Nat) (h : 0 < capacity) (a : List Int) :
    (after id h a).registry.getOrCreate meanKey =
      (⟨0⟩, .single meanKey (Snapshot.ofEvents (a.rtake capacity))) := by
  rw [after]
  split
  · rename_i ha
    rw [ha, List.rtake_nil]
    rfl
  · exact Registry.getOrCreate_single meanKey _

/-- A batch is taken, and leads to where both lists at once would have led. -/
theorem process_after (id : Nat) (h : 0 < capacity) (hb : b ≠ []) (hl : Light (a ++ b)) :
    ∃ o, (after id h a).process b = (.ok o, after id h (a ++ b)) := by
  have hlight : Light ((after id h a).window.residents ++ b) := by
    rw [← rdrop_append_rtake capacity a, List.append_assoc] at hl
    rw [residents_after]
    exact hl.right
  have hsettle := Tracker.settle_single meanKey (after id h a).window b hlight
  have hmade := getOrCreate_after id h a
  rw [← residents_after id h a] at hmade
  have hp := Tracker.process_of_settle_ok (r := (after id h a).registry)
    (s := (after id h a).tracker) (by
      change Tracker.settle ((after id h a).registry.getOrCreate meanKey).2
        ((after id h a).registry.getOrCreate meanKey).1 b ((after id h a).window.forecast b) = _
      rw [hmade]
      exact hsettle)
  have hnext : (after id h a).window.extend b = (after id h (a ++ b)).window :=
    Window.extend_extend _ a b
  refine ⟨⟨b.length, ((after id h a).window.displaced b).length⟩, ?_⟩
  simp only [process, hp]
  refine congrArg (Prod.mk _) (Node.ext rfl ?_ (Tracker.ext hnext rfl))
  change Registry.single meanKey (Snapshot.ofEvents ((after id h a).window.extend b).residents) = _
  rw [hnext, residents_after, registry_after id h (List.append_ne_nil_of_right_ne_nil a hb)]

end Node

namespace Ingestion
variable {capacity id : Nat} {h : 0 < capacity} {i j : Ingestion} {s : Step} {e : Event}
variable {a : List Int}

/-- A step leads from the node after `a` to the node after `a` and what the step handed over. -/
theorem Move.after (m : Move i s e j) (hn : i.node = Node.after id h a)
    (hl : Light (a ++ i.queue)) :
    (∀ b, e = .handed b → ∃ o, b.result = .ok o) ∧
      j.node = Node.after id h (a ++ e.batches.flatten) := by
  cases m with
  | hand hp hq =>
    have hne : i.nextBatch ≠ [] := List.length_pos_iff.1 (length_nextBatch_pos hq)
    rw [← i.nextBatch_append, ← List.append_assoc] at hl
    obtain ⟨o, ho⟩ := Node.process_after id h hne hl.left
    refine ⟨?_, ?_⟩
    · rintro b hb
      cases hb
      exact ⟨o, by rw [hn, ho]⟩
    · change i.handOver.node = Node.after id h (a ++ [i.nextBatch].flatten)
      rw [node_handOver, List.flatten_singleton, hn, ho]
  | _ =>
    refine ⟨?_, ?_⟩
    · rintro b hb
      cases hb
    · rw [show Event.batches _ = [] from rfl, List.flatten_nil, List.append_nil]
      exact hn

/-- The same for a run. -/
theorem after_run (i : Ingestion) (hc : i.intake.excessive = false)
    (hn : i.node = Node.after id h a) (steps : List Step)
    (hl : Light (a ++ (i.queue ++ accepted (i.run steps).1))) :
    (∀ b, .handed b ∈ (i.run steps).1 → ∃ o, b.result = .ok o) ∧
      (i.run steps).2.node = Node.after id h (a ++ (batches (i.run steps).1).flatten) := by
  induction steps generalizing i a with
  | nil =>
    refine ⟨?_, ?_⟩
    · intro b hb
      cases hb
    · exact hn.trans (congrArg _ (List.append_nil a).symm)
  | cons s steps ih =>
    have m := step_move i s
    have hbalance := m.conserved hc
    rw [run_cons] at hl ⊢
    change Light (a ++ (i.queue ++ ((i.step s).1.entered ++ accepted _))) at hl
    rw [← List.append_assoc i.queue, ← hbalance] at hl
    have hnow : Light (a ++ i.queue) := by
      rw [hbalance, List.append_assoc, ← List.append_assoc a] at hl
      exact hl.left
    obtain ⟨htaken, hnode⟩ := m.after hn hnow
    rw [List.append_assoc, ← List.append_assoc a] at hl
    obtain ⟨hlater, hend⟩ := ih (i.step s).2 (m.intake_eq ▸ hc) hnode hl
    refine ⟨?_, ?_⟩
    · intro b hb
      rcases List.mem_cons.1 hb with hb | hb
      · exact htaken b hb.symm
      · exact hlater b hb
    · rw [hend, batches, batches, List.flatMap_cons, List.flatten_append, List.append_assoc]

/-- A queue in front of a node with an empty window. It may have more places than can be started
    (`startChecked`): what holds of every size holds of those that can. -/
def ofCapacity (id : Nat) (h : 0 < capacity) (c : Intake) : Ingestion :=
  start (Node.ofWindow id (.empty capacity h)) c

/-- What is left behind when a run of `steps` has been stopped: no batch was refused, and all that was
    accepted has passed through the window and is accounted for. -/
structure FoldedIn (id : Nat) (h : 0 < capacity) (c : Intake) (steps : List Step) : Prop where
  stop_eq : ((ofCapacity id h c).run steps).2.stop =
    ((ofCapacity id h c).run (steps ++ ((ofCapacity id h c).run steps).2.stopping)).2
  finished : ((ofCapacity id h c).run steps).2.stop.phase = .finished
  taken : ∀ b, .handed b ∈
      ((ofCapacity id h c).run (steps ++ ((ofCapacity id h c).run steps).2.stopping)).1 →
    ∃ o, b.result = .ok o
  residents : ((ofCapacity id h c).run steps).2.stop.node.window.residents =
    (accepted ((ofCapacity id h c).run steps).1).rtake capacity
  stored : ((ofCapacity id h c).run steps).2.stop.node.fetch meanKey =
    if accepted ((ofCapacity id h c).run steps).1 = [] then none
    else some (Snapshot.ofEvents ((accepted ((ofCapacity id h c).run steps).1).rtake capacity))
  node_eq : ((ofCapacity id h c).run steps).2.stop.node =
    Node.after id h (accepted ((ofCapacity id h c).run steps).1)

theorem foldedIn_of_fits (id : Nat) (h : 0 < capacity) {c : Intake} (hc : c.excessive = false)
    (steps : List Step) (hl : Light (accepted ((ofCapacity id h c).run steps).1)) :
    FoldedIn id h c steps := by
  generalize hi : ofCapacity id h c = i at hl
  have hqueue : i.queue = [] := hi ▸ rfl
  have hfits : i.intake.excessive = false := hi ▸ hc
  have hnode : i.node = Node.after id h [] := hi ▸ (Node.after_nil id h).symm
  have account := account_of_fits i hqueue hfits steps
  have hall : accepted (i.run (steps ++ (i.run steps).2.stopping)).1 = accepted (i.run steps).1 := by
    rw [run_append, accepted_append, accepted_stopping, List.append_nil]
  obtain ⟨htaken, hend⟩ := after_run i hfits hnode (steps ++ (i.run steps).2.stopping) (by
    rw [hall, hqueue]
    exact hl)
  rw [account.stop_delivers, List.nil_append, ← account.stop_eq] at hend
  subst hi
  exact {
    stop_eq := account.stop_eq
    finished := account.stop_finished.1
    taken := htaken
    residents := by rw [hend, Node.residents_after]
    stored := by rw [hend, Node.fetch_after]
    node_eq := hend }

/-- If batches fit into memory, all runs that accept the same light list in the same order are the
    same when they are stopped, whatever the schedule and the sizes, those included that
    `startChecked` refuses; if they do not, some run loses an event. -/
theorem rebatching (id : Nat) (h : 0 < capacity) (c : Intake) :
    ((∀ steps, Light (accepted ((ofCapacity id h c).run steps).1) → FoldedIn id h c steps) ↔
      c.excessive = false) ∧
    ∀ (c' : Intake) (steps steps' : List Step), c.excessive = false → c'.excessive = false →
      Light (accepted ((ofCapacity id h c).run steps).1) →
      accepted ((ofCapacity id h c').run steps').1 = accepted ((ofCapacity id h c).run steps).1 →
      ((ofCapacity id h c').run steps').2.stop.node =
        ((ofCapacity id h c).run steps).2.stop.node := by
  refine ⟨⟨?_, ?_⟩, ?_⟩
  · intro hall
    cases hc : c.excessive with
    | false => rfl
    | true =>
      have hrun := run_once (Node.ofWindow id (.empty capacity h)) c
      have hlight : Light (accepted ((ofCapacity id h c).run once).1) := by
        rw [ofCapacity, hrun.1]
        decide
      have hfolded := hall once hlight
      have hnone := batches_run_of_excessive (ofCapacity id h c) hc Phase.noConfusion
        (once ++ ((ofCapacity id h c).run once).2.stopping)
      have hstored := hfolded.stored
      rw [hfolded.stop_eq, node_run_of_batches hnone, ofCapacity, hrun.1] at hstored
      cases hstored
  · intro hc
    exact foldedIn_of_fits id h hc
  · intro c' steps steps' hc hc' hl heq
    rw [(foldedIn_of_fits id h hc steps hl).node_eq,
      (foldedIn_of_fits id h hc' steps' (heq ▸ hl)).node_eq, heq]

/-- One event a batch through a queue with one place, for which two callers wait, or all three in one
    batch. -/
theorem rebatching_of_three :
    FoldedIn 0 Nat.two_pos ⟨1, 1⟩
        [.submit 5, .attempt (-2), .attempt 7, .turn, .retry 0, .turn, .submit 9, .retry 0] ∧
      ((ofCapacity 0 Nat.two_pos ⟨8, 3⟩).run [.submit 5, .submit (-2), .submit 7]).2.stop.node =
        ((ofCapacity 0 Nat.two_pos ⟨1, 1⟩).run
          [.submit 5, .attempt (-2), .attempt 7, .turn, .retry 0, .turn, .submit 9,
            .retry 0]).2.stop.node :=
  ⟨(rebatching 0 Nat.two_pos ⟨1, 1⟩).1.2 (by decide) _ (by decide),
    (rebatching 0 Nat.two_pos ⟨1, 1⟩).2 ⟨8, 3⟩ _ _ (by decide) (by decide) (by decide) (by decide)⟩

end Ingestion

end WindowedMean
