import WindowedMean.Json.Reader

/-! Reading *records*, data with a fixed set of named fields.

    A record is an object with its fields in any order, or a list of its fields in the declared
    order:

        {"count": 2, "total": 5}     [5, 2]

    No known field may come twice. A field of an unknown name is skipped, or refused where the
    record is strict. The result is the row of fields that were there, as they came; which of them
    may be missing is the record's own decision, and so is what a missing one means. -/

namespace WindowedMean.Json

/-- The fields of a record: their names with what they are called here, in the declared order, and
    how the value of each is read. `strict` records refuse unknown names; `sparse` ones need not
    have all fields. -/
structure Schema (κ σ : Type) where
  fields : List (String × κ)
  strict : Bool
  sparse : Bool
  read : κ → Reader σ
  read_consumes : ∀ k, (read k).Consumes

namespace Schema

variable {κ σ : Type} [BEq κ]

/-- What a name is called here. -/
def field? (sc : Schema κ σ) (name : List Char) : Option κ := sc.fields.lookup (.ofList name)

/-- A value behind its colon. -/
def afterColon {α : Type} (r : Reader α) : Reader α
  | .colon :: ts => r ts
  | _ => .error .malformed

/-- One field; the row of fields so far grows by it unless its name is unknown. -/
def member (sc : Schema κ σ) (found : List (κ × σ)) : Reader (List (κ × σ))
  | .string (some name) :: ts =>
    match sc.field? name with
    | none =>
      if sc.strict then .error .mismatch
      else
        match afterColon Reader.skip ts with
        | .error e => .error e
        | .ok (_, rest) => .ok (found, rest)
    | some k =>
      if (found.lookup k).isSome then .error .mismatch
      else
        match afterColon (sc.read k) ts with
        | .error e => .error e
        | .ok (v, rest) => .ok (found ++ [(k, v)], rest)
  | _ => .error .malformed

theorem afterColon_consumes {α : Type} {r : Reader α} (hr : r.Consumes) : (afterColon r).Consumes := by
  intro ts a rest h
  unfold afterColon at h
  split at h
  · have := hr _ _ _ h
    simp only [List.length_cons]
    omega
  · simp at h

theorem member_consumes (sc : Schema κ σ) (found : List (κ × σ)) : (sc.member found).Consumes := by
  intro ts a rest h
  have hskip := afterColon_consumes Reader.skip_consumes
  have hread := fun k => afterColon_consumes (sc.read_consumes k)
  unfold member at h
  split at h
  · simp only [List.length_cons]
    split at h <;> split at h
    · simp at h
    · split at h
      · simp at h
      · next hs =>
        simp only [Except.ok.injEq, Prod.mk.injEq] at h
        have := hskip _ _ _ hs
        rw [h.2] at this
        omega
    · simp at h
    · split at h
      · simp at h
      · next hs =>
        simp only [Except.ok.injEq, Prod.mk.injEq] at h
        have := hread _ _ _ _ hs
        rw [h.2] at this
        omega
  · simp at h

/-- The fields of an object from a name on, up to the closing brace. -/
def members (sc : Schema κ σ) (found : List (κ × σ)) (ts : List Token) :
    Except Fault (List (κ × σ) × List Token) :=
  match _h : sc.member found ts with
  | .error e => .error e
  | .ok (found', .comma :: rest) => sc.members found' rest
  | .ok (found', .closeObject :: rest) => .ok (found', rest)
  | .ok _ => .error .malformed
termination_by ts.length
decreasing_by
  have := sc.member_consumes _ _ _ _ _h
  simp only [List.length_cons] at this
  omega

/-- The items of a list after the first one, in the declared order of their fields. -/
def laterItems (sc : Schema κ σ) : List (String × κ) → Reader (List (κ × σ))
  | [], .closeArray :: ts => .ok ([], ts)
  | [], _ => .error .malformed
  | _ :: _, .closeArray :: ts => if sc.sparse then .ok ([], ts) else .error .mismatch
  | (_, k) :: later, .comma :: ts =>
    match sc.read k ts with
    | .error e => .error e
    | .ok (v, rest) => (sc.laterItems later rest).map fun (vs, rest') => ((k, v) :: vs, rest')
  | _ :: _, _ => .error .malformed

/-- The items of a list in the declared order of their fields, up to the closing bracket. -/
def items (sc : Schema κ σ) : Reader (List (κ × σ))
  | .closeArray :: ts => if sc.sparse then .ok ([], ts) else .error .mismatch
  | ts =>
    match sc.fields with
    | [] => .error .malformed
    | (_, k) :: later =>
      match sc.read k ts with
      | .error e => .error e
      | .ok (v, rest) => (sc.laterItems later rest).map fun (vs, rest') => ((k, v) :: vs, rest')

/-- All fields that have to be there are there. -/
def complete (sc : Schema κ σ) (found : List (κ × σ)) : Bool :=
  sc.sparse || sc.fields.all fun (_, k) => (found.lookup k).isSome

/-- A row of fields, if it is complete. -/
def close (sc : Schema κ σ) (found : List (κ × σ)) (rest : List Token) :
    Except Fault (List (κ × σ) × List Token) :=
  if sc.complete found then .ok (found, rest) else .error .mismatch

/-- One record. -/
def record (sc : Schema κ σ) : Reader (List (κ × σ))
  | .openObject :: .closeObject :: ts => sc.close [] ts
  | .openObject :: ts =>
    match sc.members [] ts with
    | .error e => .error e
    | .ok (found, rest) => sc.close found rest
  | .openArray :: ts => sc.items ts
  | t :: _ => .error t.fault
  | [] => .error .malformed

/-- A row of tokens that is one record and nothing else. -/
def ofTokens (sc : Schema κ σ) (ts : List Token) : Except Fault (List (κ × σ)) :=
  match sc.record ts with
  | .ok (found, []) => .ok found
  | .ok _ => .error .malformed
  | .error e => .error e

/-- A text that is one record and nothing else. -/
def ofText (sc : Schema κ σ) (text : String) : Except Fault (List (κ × σ)) :=
  sc.ofTokens (lex text.toList)

end Schema

end WindowedMean.Json
