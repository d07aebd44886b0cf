import WindowedMean.Decimal.Numeral

/-! The grammar of a JSON number.

        -? (0 | 1-9 digits) (. digits)? ((e | E) (+ | -)? digits)?

    A number is read into the numeral that it is, so nothing of it is rounded here. -/

namespace WindowedMean.Json

open Decimal (Numeral)

/-- A row of digits and what follows it. -/
def digits (s : List Char) : List Char × List Char := (s.takeWhile Char.isDigit, s.dropWhile Char.isDigit)

/-- Digits before the point; a leading zero stands alone. -/
def wholePart? (s : List Char) : Option (List Char × List Char) :=
  match digits s with
  | ([], _) => none
  | ('0' :: _ :: _, _) => none
  | found => some found

/-- A point with at least one digit after it, if there is a point. -/
def fractionPart? : List Char → Option (Option (List Char) × List Char)
  | '.' :: s =>
    match digits s with
    | ([], _) => none
    | (ds, rest) => some (some ds, rest)
  | s => some (none, s)

/-- The sign of an exponent and what follows it. -/
def exponentSign : List Char → Bool × List Char
  | '-' :: s => (true, s)
  | '+' :: s => (false, s)
  | s => (false, s)

/-- A letter for the exponent with a sign and at least one digit, if there is such a letter. -/
def exponentPart? (s : List Char) : Option (Option (Bool × List Char) × List Char) :=
  match s with
  | [] => some (none, [])
  | c :: r =>
    if c == 'e' || c == 'E' then
      match digits (exponentSign r).2 with
      | ([], _) => none
      | (ds, rest) => some (some ((exponentSign r).1, ds), rest)
    else some (none, s)

/-- A number without its sign. -/
def magnitude? (negative : Bool) (s : List Char) : Option (Numeral × List Char) :=
  match wholePart? s with
  | none => none
  | some (whole, s₁) =>
    match fractionPart? s₁ with
    | none => none
    | some (fraction, s₂) =>
      match exponentPart? s₂ with
      | none => none
      | some (exponent, s₃) => some (⟨negative, whole, fraction, exponent⟩, s₃)

/-- A number and what follows it. -/
def numeral? : List Char → Option (Numeral × List Char)
  | '-' :: s => magnitude? true s
  | s => magnitude? false s

theorem length_digits_le (s : List Char) : (digits s).2.length ≤ s.length := by
  simp only [digits]
  exact List.Sublist.length_le (List.dropWhile_sublist _)

theorem length_digits_lt {s ds rest : List Char} (h : digits s = (ds, rest)) (hne : ds ≠ []) :
    rest.length < s.length := by
  have hs : s = ds ++ rest := by
    simp only [digits, Prod.mk.injEq] at h
    rw [← h.1, ← h.2, List.takeWhile_append_dropWhile]
  have hd : 0 < ds.length := List.length_pos_iff.2 hne
  rw [hs, List.length_append]
  omega

theorem length_wholePart_lt {s ds rest : List Char} (h : wholePart? s = some (ds, rest)) :
    rest.length < s.length := by
  unfold wholePart? at h
  split at h
  · simp at h
  · simp at h
  · next hnil _ =>
    simp only [Option.some.injEq] at h
    exact length_digits_lt h fun hd => hnil rest (by rw [h, hd])

theorem length_fractionPart_le {s rest : List Char} {f : Option (List Char)}
    (h : fractionPart? s = some (f, rest)) : rest.length ≤ s.length := by
  unfold fractionPart? at h
  split at h
  · next r =>
    have := length_digits_le r
    grind
  · grind

theorem length_exponentSign_le (s : List Char) : (exponentSign s).2.length ≤ s.length := by
  unfold exponentSign
  split <;> simp

theorem length_exponentPart_le {s rest : List Char} {e : Option (Bool × List Char)}
    (h : exponentPart? s = some (e, rest)) : rest.length ≤ s.length := by
  unfold exponentPart? at h
  split at h
  · grind
  · next r =>
    have h₁ := length_digits_le (exponentSign r).2
    have h₂ := length_exponentSign_le r
    grind

theorem length_magnitude_lt {b : Bool} {s rest : List Char} {n : Numeral}
    (h : magnitude? b s = some (n, rest)) : rest.length < s.length := by
  unfold magnitude? at h
  split at h
  · simp at h
  · next hw =>
    split at h
    · simp at h
    · next hf =>
      split at h
      · simp at h
      · next he =>
        simp only [Option.some.injEq, Prod.mk.injEq] at h
        have h₁ := length_wholePart_lt hw
        have h₂ := length_fractionPart_le hf
        have h₃ := length_exponentPart_le he
        rw [h.2] at h₃
        omega

theorem length_numeral_lt {s rest : List Char} {n : Numeral} (h : numeral? s = some (n, rest)) :
    rest.length < s.length := by
  unfold numeral? at h
  split at h
  · have := length_magnitude_lt h
    simp only [List.length_cons]
    omega
  · exact length_magnitude_lt h

end WindowedMean.Json
