import WindowedMean.Decimal.Overflow
import WindowedMean.Json.Token

/-! Reading typed data off a row of tokens.

    A reader takes what it wants from the front and hands back the rest, always a shorter row. It
    stops at the *first* fault in reading order, and there are two kinds of fault: the text is not
    JSON here (`malformed`), or it is JSON of the wrong shape (`mismatch`).

    A value nobody asked for is skipped by an automaton with a stack of open brackets. Skipping asks
    less than reading: a skipped string need not be text, a skipped number may be of any size. -/

namespace WindowedMean.Json

open Decimal (Numeral)

/-- Why reading stopped. -/
inductive Fault where
  | malformed
  | mismatch
  deriving DecidableEq, Repr

/-- Takes a value from the front of a row of tokens. -/
abbrev Reader (α : Type) := List Token → Except Fault (α × List Token)

/-- A reader whose rest is shorter than what it was given. -/
def Reader.Consumes {α : Type} (r : Reader α) : Prop :=
  ∀ ts a rest, r ts = .ok (a, rest) → rest.length < ts.length

/-! ### Single tokens -/

/-- The integer that a numeral is, if it is written as one; a negative zero is not. -/
def integer? (n : Numeral) : Option Int :=
  match n.fraction, n.exponent with
  | none, none =>
    let value := Decimal.digitsValue n.whole
    if n.negative then if value = 0 then none else some (-value) else some value
  | _, _ => none

/-- The fault of a token where one of another kind was wanted. -/
def Token.fault : Token → Fault
  | .null | .flag _ | .openObject | .openArray | .string (some _) => .mismatch
  | .number n => if n.overflows then .malformed else .mismatch
  | _ => .malformed

/-- The integer of a token, between bounds. -/
def Token.int (low high : Int) (t : Token) : Except Fault Int :=
  match t with
  | .number n =>
    match integer? n with
    | some i => if low ≤ i ∧ i ≤ high then .ok i else .error t.fault
    | none => .error t.fault
  | _ => .error t.fault

/-- The size of a token. -/
def Token.size (t : Token) : Except Fault Nat := (t.int 0 sizeLimit).map Int.toNat

/-- The event, total or count of a token. -/
def Token.event (t : Token) : Except Fault Int := t.int least greatest

/-- The text of a token. -/
def Token.text : Token → Except Fault String
  | .string (some cs) => .ok (.ofList cs)
  | t => .error t.fault

/-- The truth value of a token. -/
def Token.truth : Token → Except Fault Bool
  | .flag b => .ok b
  | t => .error t.fault

/-- A reader of one token. -/
def Reader.one {α : Type} (f : Token → Except Fault α) : Reader α
  | [] => .error .malformed
  | t :: ts => (f t).map fun a => (a, ts)

theorem Reader.one_consumes {α : Type} (f : Token → Except Fault α) : (Reader.one f).Consumes := by
  rintro (_ | ⟨t, ts⟩) a rest h
  · simp [Reader.one] at h
  · cases hf : f t with
    | error e => simp [Reader.one, hf, Except.map] at h
    | ok b =>
      simp [Reader.one, hf, Except.map] at h
      simp [← h.2]

/-! ### Lists -/

/-- The items after the first one, each behind a comma, up to the closing bracket. -/
def moreItems {α : Type} (f : Token → Except Fault α) : Reader (List α)
  | .closeArray :: ts => .ok ([], ts)
  | .comma :: t :: ts =>
    if t = .closeArray then .error .malformed
    else
      match f t with
      | .error e => .error e
      | .ok a =>
        match moreItems f ts with
        | .error e => .error e
        | .ok (as, rest) => .ok (a :: as, rest)
  | _ => .error .malformed

/-- A list of items of one token each. -/
def Reader.items {α : Type} (f : Token → Except Fault α) : Reader (List α)
  | .openArray :: .closeArray :: ts => .ok ([], ts)
  | .openArray :: t :: ts =>
    match f t with
    | .error e => .error e
    | .ok a =>
      match moreItems f ts with
      | .error e => .error e
      | .ok (as, rest) => .ok (a :: as, rest)
  | .openArray :: [] => .error .malformed
  | t :: _ => .error t.fault
  | [] => .error .malformed

theorem moreItems_consumes {α : Type} (f : Token → Except Fault α) : (moreItems f).Consumes := by
  intro ts
  fun_induction moreItems f ts with
  | case1 ts => intro a rest h; simp at h; simp [← h.2]
  | case5 t ts _ b _ as rest' hm ih =>
    intro a rest h
    simp only [Except.ok.injEq, Prod.mk.injEq] at h
    have := ih _ _ hm
    rw [← h.2]
    simp only [List.length_cons]
    omega
  | _ => intro a rest h; simp at h

theorem Reader.items_consumes {α : Type} (f : Token → Except Fault α) :
    (Reader.items f).Consumes := by
  intro ts as rest h
  unfold Reader.items at h
  split at h
  · simp only [Except.ok.injEq, Prod.mk.injEq] at h
    rw [← h.2]
    simp only [List.length_cons]
    omega
  · split at h
    · simp at h
    · split at h
      · simp at h
      · next hm =>
        simp only [Except.ok.injEq, Prod.mk.injEq] at h
        have := moreItems_consumes f _ _ _ hm
        rw [← h.2]
        simp only [List.length_cons]
        omega
  · simp at h
  · simp at h
  · simp at h

/-! ### Values nobody asked for -/

/-- What an open bracket encloses. -/
inductive Frame where
  | array
  | object
  deriving DecidableEq, Repr

/-- What has to come next: a value, an item or the end, a name or the end, a name, a colon, or a
    comma or the end. -/
inductive Expect where
  | value
  | item
  | field
  | name
  | colon
  | more
  deriving DecidableEq, Repr

/-- A value begins with this token. -/
def valueStep (open_ : List Frame) : Token → Option (Expect × List Frame)
  | .openArray => some (.item, .array :: open_)
  | .openObject => some (.field, .object :: open_)
  | .null | .flag _ | .number _ | .string _ => some (.more, open_)
  | _ => none

/-- One token of a skipped value. -/
def skipStep : Expect → List Frame → Token → Option (Expect × List Frame)
  | .value, open_, t => valueStep open_ t
  | .item, .array :: open_, .closeArray => some (.more, open_)
  | .item, open_, t => valueStep open_ t
  | .field, .object :: open_, .closeObject => some (.more, open_)
  | .field, open_, .string _ => some (.colon, open_)
  | .name, open_, .string _ => some (.colon, open_)
  | .colon, open_, .colon => some (.value, open_)
  | .more, .array :: open_, .comma => some (.value, .array :: open_)
  | .more, .array :: open_, .closeArray => some (.more, open_)
  | .more, .object :: open_, .comma => some (.name, .object :: open_)
  | .more, .object :: open_, .closeObject => some (.more, open_)
  | _, _, _ => none

/-- Skips until a whole value has passed and no bracket is open. -/
def skipFrom : Expect → List Frame → Reader Unit
  | _, _, [] => .error .malformed
  | e, open_, t :: ts =>
    match skipStep e open_ t with
    | none => .error .malformed
    | some (.more, []) => .ok ((), ts)
    | some (e', open') => skipFrom e' open' ts

/-- Skips one value. -/
def Reader.skip : Reader Unit := skipFrom .value []

theorem skipFrom_consumes (e : Expect) (open_ : List Frame) : (skipFrom e open_).Consumes := by
  intro ts
  induction ts generalizing e open_ with
  | nil => intro a rest h; simp [skipFrom] at h
  | cons t ts ih =>
    intro a rest h
    unfold skipFrom at h
    split at h
    · simp at h
    · simp at h; simp [h]
    · have := ih _ _ _ _ h
      simp only [List.length_cons]
      omega

theorem Reader.skip_consumes : Reader.skip.Consumes := skipFrom_consumes _ _

end WindowedMean.Json
