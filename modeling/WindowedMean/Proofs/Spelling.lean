import Mathlib.Data.List.TakeWhile
import WindowedMean.Json.Token

/-! How a row of tokens is *spelled*.

    A token has a few spellings, most of them one. A text spells a row of tokens if it is made of
    spellings of them in their order, with blanks before, between and behind them as one likes:

        ␣␣ spelling  ␣ spelling  spelling ␣␣␣ spelling  ␣

    Only a number needs to be set apart, from what would go on with it. The lexer reads every spelling
    of a row as that row (`lex_of_spells`), so whatever is proved about rows of tokens holds of all
    texts that spell them. -/

namespace WindowedMean.Json

open Decimal (Numeral)
open Text (hexRow?)

/-! ### Numbers -/

/-- Digits, at least one. -/
def IsDigits (ds : List Char) : Prop := ds ≠ [] ∧ ∀ c ∈ ds, c.isDigit

/-- The digits before the point: a zero comes first only if it is the only one. -/
def IsWhole (ds : List Char) : Prop := IsDigits ds ∧ ∀ ds', ds = '0' :: ds' → ds' = []

/-- How a fraction is spelled. -/
inductive FractionText : Option (List Char) → List Char → Prop where
  | absent : FractionText none []
  | point {ds : List Char} (h : IsDigits ds) : FractionText (some ds) ('.' :: ds)

/-- How an exponent is spelled: the letter in either case, and a plus sign only if one likes. -/
inductive ExponentText : Option (Bool × List Char) → List Char → Prop where
  | absent : ExponentText none []
  | minus {c : Char} {ds : List Char} (hc : c = 'e' ∨ c = 'E') (h : IsDigits ds) :
      ExponentText (some (true, ds)) (c :: '-' :: ds)
  | plus {c : Char} {ds : List Char} (hc : c = 'e' ∨ c = 'E') (h : IsDigits ds) :
      ExponentText (some (false, ds)) (c :: '+' :: ds)
  | bare {c : Char} {ds : List Char} (hc : c = 'e' ∨ c = 'E') (h : IsDigits ds) :
      ExponentText (some (false, ds)) (c :: ds)

/-- How a number is spelled. -/
inductive NumberText : Numeral → List Char → Prop where
  | positive {whole f e : List Char} {fraction : Option (List Char)}
      {exponent : Option (Bool × List Char)} (hw : IsWhole whole) (hf : FractionText fraction f)
      (he : ExponentText exponent e) :
      NumberText ⟨false, whole, fraction, exponent⟩ (whole ++ (f ++ e))
  | negative {whole f e : List Char} {fraction : Option (List Char)}
      {exponent : Option (Bool × List Char)} (hw : IsWhole whole) (hf : FractionText fraction f)
      (he : ExponentText exponent e) :
      NumberText ⟨true, whole, fraction, exponent⟩ ('-' :: (whole ++ (f ++ e)))

/-- The character would go on with a number in front of it. -/
def continues (c : Char) : Bool := c.isDigit || c == '.' || c == 'e' || c == 'E'

/-- A number may end in front of this text. -/
def Ends (s : List Char) : Prop := ∀ c, s.head? = some c → continues c = false

/-- No digit comes first. -/
def NoDigit (s : List Char) : Prop := ∀ c, s.head? = some c → c.isDigit = false

/-- Neither a digit nor a point comes first. -/
def NoFraction (s : List Char) : Prop := NoDigit s ∧ ∀ s', s ≠ '.' :: s'

variable {ds cs rest s : List Char} {fraction : Option (List Char)}
  {exponent : Option (Bool × List Char)}

theorem noDigit_cons {c : Char} (h : c.isDigit = false) : NoDigit (c :: s) := by
  intro c' hc
  cases hc
  exact h

theorem Ends.noFraction (h : Ends s) : NoFraction s := by
  refine ⟨fun c hc => ?_, ?_⟩
  · have hcont := h c hc
    simp only [continues, Bool.or_eq_false_iff] at hcont
    exact hcont.1.1.1
  · rintro s' rfl
    exact absurd (h '.' rfl) (by decide)

theorem ExponentText.noFraction (h : ExponentText exponent cs) (hr : Ends rest) :
    NoFraction (cs ++ rest) := by
  have hletter {c : Char} {s : List Char} (hc : c = 'e' ∨ c = 'E') : NoFraction (c :: s) := by
    rcases hc with rfl | rfl <;> exact ⟨noDigit_cons (by decide), by simp⟩
  cases h with
  | absent => exact hr.noFraction
  | minus hc _ => exact hletter hc
  | plus hc _ => exact hletter hc
  | bare hc _ => exact hletter hc

theorem FractionText.noDigit (h : FractionText fraction cs) (hr : NoFraction rest) :
    NoDigit (cs ++ rest) := by
  cases h with
  | absent => exact hr.1
  | point _ => exact noDigit_cons (by decide)

theorem digits_append (hds : ∀ c ∈ ds, c.isDigit) (hr : NoDigit rest) :
    digits (ds ++ rest) = (ds, rest) := by
  have hrest : rest.takeWhile Char.isDigit = [] ∧ rest.dropWhile Char.isDigit = rest := by
    cases rest with
    | nil => exact ⟨rfl, rfl⟩
    | cons c r =>
      have hc := hr c rfl
      simp [hc]
  rw [digits, List.takeWhile_append_of_pos hds, List.dropWhile_append_of_pos hds, hrest.1, hrest.2,
    List.append_nil]

theorem wholePart_of_text (h : IsWhole ds) (hr : NoDigit rest) :
    wholePart? (ds ++ rest) = some (ds, rest) := by
  obtain ⟨⟨hne, hds⟩, hzero⟩ := h
  rw [wholePart?, digits_append hds hr]
  split
  · next heq => exact absurd (congrArg Prod.fst heq) hne
  · next heq =>
    have hall := hzero _ (congrArg Prod.fst heq)
    cases hall
  · rfl

theorem fractionPart_of_text (h : FractionText fraction cs) (hr : NoFraction rest) :
    fractionPart? (cs ++ rest) = some (fraction, rest) := by
  cases h with
  | absent =>
    rw [List.nil_append, fractionPart?.eq_2]
    exact fun s hs => hr.2 s hs
  | point hds =>
    rw [List.cons_append, fractionPart?, digits_append hds.2 hr.1]
    split
    · next heq => exact absurd (congrArg Prod.fst heq) hds.1
    · next heq =>
      cases heq
      rfl

theorem exponentSign_of_digits (h : IsDigits ds) : exponentSign (ds ++ rest) = (false, ds ++ rest) := by
  obtain ⟨hne, hds⟩ := h
  cases ds with
  | nil => exact absurd rfl hne
  | cons c ds =>
    have hc := hds c (List.mem_cons_self ..)
    rw [exponentSign.eq_3]
    · rintro s heq
      cases heq
      exact absurd hc (by decide)
    · rintro s heq
      cases heq
      exact absurd hc (by decide)

/-- What follows the letter of an exponent. -/
theorem exponentPart_of_letter {c : Char} {negative : Bool} (hc : c = 'e' ∨ c = 'E')
    (hs : exponentSign s = (negative, ds ++ rest)) (hds : IsDigits ds) (hr : NoDigit rest) :
    exponentPart? (c :: s) = some (some (negative, ds), rest) := by
  have hletter : (c == 'e' || c == 'E') = true := by
    rcases hc with rfl | rfl <;> rfl
  rw [exponentPart?, if_pos hletter, hs, digits_append hds.2 hr]
  split
  · next heq => exact absurd (congrArg Prod.fst heq) hds.1
  · next heq =>
    cases heq
    rfl

theorem exponentPart_of_text (h : ExponentText exponent cs) (hr : Ends rest) :
    exponentPart? (cs ++ rest) = some (exponent, rest) := by
  have hdigit := hr.noFraction.1
  cases h with
  | absent =>
    rw [List.nil_append]
    cases rest with
    | nil => rfl
    | cons c r =>
      have hc := hr c rfl
      simp only [continues, Bool.or_eq_false_iff] at hc
      simp only [exponentPart?, hc, Bool.or_self, Bool.false_eq_true, if_false]
  | minus hc hds => exact exponentPart_of_letter hc rfl hds hdigit
  | plus hc hds => exact exponentPart_of_letter hc rfl hds hdigit
  | bare hc hds => exact exponentPart_of_letter hc (exponentSign_of_digits hds) hds hdigit

theorem magnitude_of_text {f e : List Char} (negative : Bool) (hw : IsWhole ds)
    (hf : FractionText fraction f) (he : ExponentText exponent e) (hr : Ends rest) :
    magnitude? negative (ds ++ (f ++ e) ++ rest) =
      some (⟨negative, ds, fraction, exponent⟩, rest) := by
  have hexp := he.noFraction hr
  rw [List.append_assoc, List.append_assoc, magnitude?, wholePart_of_text hw (hf.noDigit hexp)]
  dsimp only
  rw [fractionPart_of_text hf hexp]
  dsimp only
  rw [exponentPart_of_text he hr]

theorem numeral_of_text {n : Numeral} (h : NumberText n cs) (hr : Ends rest) :
    numeral? (cs ++ rest) = some (n, rest) := by
  cases h with
  | negative hw hf he => exact magnitude_of_text true hw hf he hr
  | positive hw hf he =>
    rw [numeral?.eq_2]
    · exact magnitude_of_text false hw hf he hr
    · intro s heq
      obtain ⟨⟨hne, hds⟩, -⟩ := hw
      obtain ⟨c, ds, rfl⟩ := List.exists_cons_of_ne_nil hne
      cases heq
      exact absurd (hds '-' (List.mem_cons_self ..)) (by decide)

/-! ### Strings -/

/-- How the inside of a string is spelled: a character as it stands or by a short escape, a code unit
    by its digits. -/
inductive StringText : List Piece → List Char → Prop where
  | nil : StringText [] []
  | plain {c : Char} {ps : List Piece} {s : List Char} (hc : 0x20 ≤ c.toNat) (hq : c ≠ '"')
      (hb : c ≠ '\\') (h : StringText ps s) : StringText (.char c :: ps) (c :: s)
  | short {e c : Char} {ps : List Piece} {s : List Char} (he : shortEscape? e = some c)
      (h : StringText ps s) : StringText (.char c :: ps) ('\\' :: e :: s)
  | unit {a b c d : Char} {n : Nat} {ps : List Piece} {s : List Char}
      (hn : hexRow? [a, b, c, d] = some n) (h : StringText ps s) :
      StringText (.unit n :: ps) ('\\' :: 'u' :: a :: b :: c :: d :: s)

theorem pieces_of_text {ps : List Piece} (h : StringText ps s) :
    pieces (s ++ '"' :: rest) = some (ps, rest) := by
  induction h with
  | nil => rfl
  | plain hc hq hb _ ih =>
    rw [List.cons_append, pieces.eq_5 _ _ hq (fun _ _ _ _ _ h _ => hb h) (fun _ _ h _ => hb h), ih]
    simp [hb, Nat.not_lt.2 hc]
  | short he _ ih =>
    rw [List.cons_append, List.cons_append, pieces.eq_4, he, ih]
    -- There is no short escape by the letter of the long one.
    rintro _ _ _ _ _ rfl _
    cases he
  | unit hn _ ih =>
    simp only [List.cons_append, pieces, hn, ih]

/-! ### Tokens -/

/-- How a token is spelled. -/
inductive Lexeme : Token → List Char → Prop where
  | openObject : Lexeme .openObject ['{']
  | closeObject : Lexeme .closeObject ['}']
  | openArray : Lexeme .openArray ['[']
  | closeArray : Lexeme .closeArray [']']
  | colon : Lexeme .colon [':']
  | comma : Lexeme .comma [',']
  | null : Lexeme .null ['n', 'u', 'l', 'l']
  | yes : Lexeme (.flag true) ['t', 'r', 'u', 'e']
  | no : Lexeme (.flag false) ['f', 'a', 'l', 's', 'e']
  | number {n : Numeral} {cs : List Char} (h : NumberText n cs) : Lexeme (.number n) cs
  | string {ps : List Piece} {s : List Char} (h : StringText ps s) :
      Lexeme (.string (assemble ps)) ('"' :: (s ++ ['"']))

/-- A number begins with its sign or with a digit. -/
theorem NumberText.head {n : Numeral} (h : NumberText n cs) :
    ∃ c cs', cs = c :: cs' ∧ (c = '-' ∨ c.isDigit) := by
  cases h with
  | negative _ _ _ => exact ⟨_, _, rfl, .inl rfl⟩
  | positive hw _ _ =>
    obtain ⟨⟨hne, hds⟩, -⟩ := hw
    obtain ⟨c, ds, rfl⟩ := List.exists_cons_of_ne_nil hne
    exact ⟨c, _, rfl, .inr (hds c (List.mem_cons_self ..))⟩

theorem front_of_lexeme {t : Token} (h : Lexeme t cs) (hr : ∀ n, t = .number n → Ends rest) :
    front? (cs ++ rest) = some (t, rest) := by
  cases h with
  | number hn =>
    have hnumeral := numeral_of_text hn (hr _ rfl)
    obtain ⟨c, cs, rfl, hc⟩ := hn.head
    rw [front?.eq_11, hnumeral]
    · rfl
    all_goals
      intro s heq
      obtain ⟨rfl, -⟩ := List.cons.inj heq
      rcases hc with hc | hc <;> exact absurd hc (by decide)
  | string hs =>
    rw [List.cons_append, List.append_assoc, List.singleton_append, front?, pieces_of_text hs]
    rfl
  | _ => rfl

theorem Lexeme.head {t : Token} (h : Lexeme t cs) : ∃ c cs', cs = c :: cs' ∧ isBlank c = false := by
  cases h with
  | number hn =>
    obtain ⟨c, cs, rfl, hc⟩ := hn.head
    refine ⟨c, cs, rfl, ?_⟩
    simp only [isBlank, Bool.or_eq_false_iff, beq_eq_false_iff_ne]
    refine ⟨⟨⟨?_, ?_⟩, ?_⟩, ?_⟩ <;> rintro rfl <;> rcases hc with hc | hc <;> exact absurd hc (by decide)
  | _ => exact ⟨_, _, rfl, rfl⟩

/-- A text that spells a row of tokens: a spelling of each in their order, and blanks anywhere around
    them. What would go on with a number does not come right behind it. -/
inductive Spells : List Token → List Char → Prop where
  | nil {b : List Char} (hb : ∀ c ∈ b, isBlank c) : Spells [] b
  | cons {b cs s : List Char} {t : Token} {ts : List Token} (hb : ∀ c ∈ b, isBlank c)
      (ht : Lexeme t cs) (he : ∀ n, t = .number n → Ends s) (h : Spells ts s) :
      Spells (t :: ts) (b ++ (cs ++ s))

theorem lex_eq (s : List Char) :
    lex s =
      match s.dropWhile isBlank with
      | [] => []
      | c :: r =>
        match front? (c :: r) with
        | none => [.bad]
        | some (t, rest) => t :: lex rest := by
  rw [lex]
  split
  · next h => rw [h]
  · next h =>
    rw [h]
    dsimp only
    split
    · next hf => rw [hf]
    · next hf => rw [hf]

/-- What spells a row of tokens is read as that row. -/
theorem lex_of_spells {ts : List Token} (h : Spells ts s) : lex s = ts := by
  induction h with
  | nil hb =>
    rw [lex_eq, List.dropWhile_eq_nil_iff.2 hb]
  | cons hb ht he _ ih =>
    have hfront := front_of_lexeme ht he
    obtain ⟨c, cs, rfl, hc⟩ := ht.head
    rw [lex_eq, List.dropWhile_append_of_pos hb, List.cons_append,
      List.dropWhile_cons_of_neg (by rw [hc]; exact Bool.false_ne_true)]
    dsimp only
    rw [← List.cons_append, hfront]
    exact congrArg _ ih

end WindowedMean.Json
