import WindowedMean.Toml.Scalar

/-! Flat TOML documents: one key and one single value to a line.

        # a comment
        key = value     # another one
        "quoted key" = value

    Tables, dotted keys and values with parts are no flat document, nor is a text that sets a key
    twice. A byte order mark may stand in front. -/

namespace WindowedMean.Toml

/-- A character of a bare key. -/
def isBare (c : Char) : Bool := c.isAlphanum || c == '_' || c == '-'

/-- The key at the front and what follows it. -/
def key? (s : List Char) : Option (List Char × List Char) :=
  match s with
  | '"' :: _ | '\'' :: _ => lineText? s
  | _ =>
    match s.takeWhile isBare with
    | [] => none
    | c :: cs => some (c :: cs, s.dropWhile isBare)

/-- What follows the end of the line, if only a comment stands before it. -/
def lineEnd? (s : List Char) : Option (List Char) :=
  match s with
  | [] => some []
  | '#' :: r =>
    match r.dropWhile isPlain with
    | [] => some []
    | t => lineBreak? t
  | _ => lineBreak? s

/-- A line: what it sets, if anything, and what follows it. -/
def line? (s : List Char) : Option (Option (String × Scalar) × List Char) :=
  let s := s.dropWhile isSpace
  match lineEnd? s with
  | some rest => some (none, rest)
  | none =>
    match key? s with
    | none => none
    | some (k, s₁) =>
      match s₁.dropWhile isSpace with
      | '=' :: s₂ =>
        match scalar? (s₂.dropWhile isSpace) with
        | none => none
        | some (v, s₃) => (lineEnd? (s₃.dropWhile isSpace)).map fun rest => (some (.ofList k, v), rest)
      | _ => none

theorem length_dropWhile_le (p : Char → Bool) (s : List Char) : (s.dropWhile p).length ≤ s.length :=
  List.Sublist.length_le (List.dropWhile_sublist _)

theorem length_lineBreak_lt {s rest : List Char} (h : lineBreak? s = some rest) :
    rest.length < s.length := by
  unfold lineBreak? at h
  split at h
  · simp only [Option.some.injEq] at h
    simp [← h]
  · simp only [Option.some.injEq] at h
    rw [← h]
    simp only [List.length_cons]
    omega
  · simp at h

theorem length_lineEnd_le {s rest : List Char} (h : lineEnd? s = some rest) :
    rest.length ≤ s.length ∧ (s ≠ [] → rest.length < s.length) := by
  unfold lineEnd? at h
  split at h
  · simp_all
  · next r =>
    have h₁ := length_dropWhile_le isPlain r
    split at h
    · simp only [Option.some.injEq] at h
      simp [← h]
    · next hr =>
      have h₂ := length_lineBreak_lt h
      simp only [List.length_cons]
      omega
  · have := length_lineBreak_lt h
    omega

theorem length_lineText_le {s cs rest : List Char} (h : lineText? s = some (cs, rest)) :
    rest.length ≤ s.length := by
  unfold lineText? at h
  split at h
  · have := length_escaped_le h
    simp only [List.length_cons]
    omega
  · have := length_literal_le h
    simp only [List.length_cons]
    omega
  · simp at h

theorem length_dropBreak_le (s : List Char) : (dropBreak s).length ≤ s.length := by
  unfold dropBreak
  cases h : lineBreak? s with
  | none => simp
  | some r =>
    have := length_lineBreak_lt h
    simp only [Option.getD_some]
    omega

theorem length_text_le {s cs rest : List Char} (h : text? s = some (cs, rest)) :
    rest.length ≤ s.length := by
  unfold text? at h
  split at h
  · next r =>
    have h₁ := length_escaped_le h
    have h₂ := length_dropBreak_le r
    simp only [List.length_cons]
    omega
  · next r =>
    have h₁ := length_literal_le h
    have h₂ := length_dropBreak_le r
    simp only [List.length_cons]
    omega
  · exact length_lineText_le h

theorem length_key_le {s k rest : List Char} (h : key? s = some (k, rest)) :
    rest.length ≤ s.length := by
  unfold key? at h
  split at h
  · exact length_lineText_le h
  · exact length_lineText_le h
  · split at h
    · simp at h
    · simp only [Option.some.injEq, Prod.mk.injEq] at h
      rw [← h.2]
      exact length_dropWhile_le _ _

theorem length_scalar_le {s rest : List Char} {v : Scalar} (h : scalar? s = some (v, rest)) :
    rest.length ≤ s.length := by
  unfold scalar? at h
  split at h
  · obtain ⟨⟨cs, r⟩, ht, he⟩ := Option.map_eq_some_iff.1 h
    simp only [Prod.mk.injEq] at he
    rw [← he.2]
    exact length_text_le ht
  · obtain ⟨⟨cs, r⟩, ht, he⟩ := Option.map_eq_some_iff.1 h
    simp only [Prod.mk.injEq] at he
    rw [← he.2]
    exact length_text_le ht
  · obtain ⟨w, _, he⟩ := Option.map_eq_some_iff.1 h
    simp only [Prod.mk.injEq] at he
    rw [← he.2]
    exact length_dropWhile_le _ _

theorem length_line_lt {s rest : List Char} {e : Option (String × Scalar)}
    (h : line? s = some (e, rest)) (hs : s ≠ []) : rest.length < s.length := by
  have h₀ := length_dropWhile_le isSpace s
  have hpos : 0 < s.length := List.length_pos_iff.2 hs
  unfold line? at h
  dsimp only at h
  split at h
  · next r he =>
    simp only [Option.some.injEq, Prod.mk.injEq] at h
    rw [← h.2]
    have hle := length_lineEnd_le he
    by_cases hd : s.dropWhile isSpace = []
    · rw [hd] at hle
      have := hle.1
      simp only [List.length_nil] at this
      omega
    · have := hle.2 hd
      omega
  · split at h
    · simp at h
    · next k s₁ hk =>
      have h₁ := length_key_le hk
      have h₂ := length_dropWhile_le isSpace s₁
      split at h
      · next s₂ heq =>
        rw [heq] at h₂
        simp only [List.length_cons] at h₂
        split at h
        · simp at h
        · next v s₃ hv =>
          have h₃ := length_scalar_le hv
          have h₄ := length_dropWhile_le isSpace s₂
          have h₅ := length_dropWhile_le isSpace s₃
          obtain ⟨r, hr, he⟩ := Option.map_eq_some_iff.1 h
          simp only [Prod.mk.injEq] at he
          have h₆ := (length_lineEnd_le hr).1
          rw [← he.2]
          omega
      · simp at h

/-- What the lines of a text set, in their order. -/
def settings? (s : List Char) : Option (List (String × Scalar)) :=
  match s with
  | [] => some []
  | c :: r =>
    match _h : line? (c :: r) with
    | none => none
    | some (e, rest) => (settings? rest).map fun later => e.toList ++ later
termination_by s.length
decreasing_by exact length_line_lt _h (by simp)

/-- No key is set twice. -/
def distinct : List (String × Scalar) → Bool
  | [] => true
  | (k, _) :: later => (later.lookup k).isNone && distinct later

/-- The characters without a byte order mark in front. -/
def dropMark : List Char → List Char
  | '\uFEFF' :: s => s
  | s => s

/-- The flat document that a text is. -/
def document? (text : String) : Option (List (String × Scalar)) :=
  match settings? (dropMark text.toList) with
  | some entries => if distinct entries then some entries else none
  | none => none

end WindowedMean.Toml
