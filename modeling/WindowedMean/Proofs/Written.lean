import WindowedMean.Json.Value
import WindowedMean.Proofs.Objects
import WindowedMean.Proofs.Spelling

/-! What is written can be read.

    A value has one row of tokens and one compact text. The text spells the row, also in front of
    more text, as long as what follows does not go on with a number:

        value ──▶ tokens
          │         ▲
          ▼         │ lex
         text ──────┘

    Strings are escaped and unescaped without loss, whatever they hold, and an integer is written with
    the digits that it is read from. So two values of the same text have the same row. -/

namespace WindowedMean.Json

open Decimal (Numeral digitsValue)
open Text (hexRow? hexDigit)

variable {cs ds s : List Char} {t : Token} {ts v : List Token}

/-! ### Integers -/

/-- A number is written with a zero in front only if it is zero. -/
theorem toDigits_leading_zero {n : Nat} (h : Nat.toDigits 10 n = '0' :: ds) : ds = [] := by
  induction n using Nat.strongRecOn generalizing ds with
  | ind n ih =>
    rw [Nat.toDigits_eq_if (by decide)] at h
    by_cases hn : n < 10
    · rw [if_pos hn] at h
      exact (List.cons.inj h).2.symm
    · rw [if_neg hn] at h
      obtain ⟨c, cs, hc⟩ := List.exists_cons_of_ne_nil (Nat.toDigits_ne_nil (n := n / 10) (b := 10))
      rw [hc, List.cons_append] at h
      obtain ⟨rfl, -⟩ := List.cons.inj h
      -- The digits before the last one are those of zero, but there is a tenth.
      obtain rfl := ih (n / 10) (by omega) hc
      have hzero := congrArg digitsValue hc
      rw [Decimal.digitsValue_toDigits] at hzero
      have hval : digitsValue ['0'] = 0 := rfl
      omega

theorem isWhole_toDigits (n : Nat) : IsWhole (Nat.toDigits 10 n) :=
  ⟨⟨Nat.toDigits_ne_nil, fun _ => Nat.isDigit_of_mem_toDigits (by decide) (by decide)⟩,
    fun _ => toDigits_leading_zero⟩

theorem numberText_ofInt (n : Int) : NumberText (.ofInt n) (Numeral.ofInt n).chars := by
  have hwhole := isWhole_toDigits n.natAbs
  by_cases hn : n < 0
  · have htext := NumberText.negative hwhole .absent .absent
    simpa [Numeral.ofInt, Numeral.chars, hn] using htext
  · have htext := NumberText.positive hwhole .absent .absent
    simpa [Numeral.ofInt, Numeral.chars, hn] using htext

/-- An integer is read from the digits that it is written with. -/
theorem integer_ofInt (n : Int) : integer? (.ofInt n) = some n := by
  simp only [integer?, Numeral.ofInt, Decimal.digitsValue_toDigits]
  grind

theorem ofInt_inj {n m : Int} : Numeral.ofInt n = .ofInt m ↔ n = m := by
  constructor
  · intro h
    have hread := congrArg integer? h
    rw [integer_ofInt, integer_ofInt] at hread
    exact Option.some.inj hread
  · exact congrArg _

theorem int_ofInt {low high n : Int} (hl : low ≤ n) (hh : n ≤ high) :
    Token.int low high (.number (.ofInt n)) = .ok n := by
  rw [Token.int, integer_ofInt]
  exact if_pos ⟨hl, hh⟩

theorem event_ofInt {n : Int} (h : Fits n) : Token.event (.number (.ofInt n)) = .ok n :=
  int_ofInt h.1 h.2

theorem size_ofInt {n : Nat} (h : n ≤ sizeLimit) : Token.size (.number (.ofInt n)) = .ok n := by
  rw [Token.size, int_ofInt (by omega) (by omega)]
  rfl

/-! ### Strings -/

theorem hexRow_of_control {n : Nat} (h : n < 0x20) :
    hexRow? ['0', '0', hexDigit (n / 16), hexDigit (n % 16)] = some n := by
  revert n
  decide

/-- A code unit that is no surrogate is the character of this number. -/
theorem assemble_unit {n : Nat} {ps : List Piece} (h : n < 0xD800) :
    assemble (.unit n :: ps) = (assemble ps).map (Char.ofNat n :: ·) := by
  have hhigh : isHigh n = false := by
    simp only [isHigh, Bool.and_eq_false_iff, decide_eq_false_iff_not]
    omega
  have hlow : isLow n = false := by
    simp only [isLow, Bool.and_eq_false_iff, decide_eq_false_iff_not]
    omega
  rw [assemble.eq_def]
  simp [hhigh, hlow]

/-- However a character is escaped, the escape stands for it. -/
theorem stringText_escape (c : Char) :
    ∃ p, (∀ {ps s}, StringText ps s → StringText (p :: ps) (escape c ++ s)) ∧
      ∀ ps, assemble (p :: ps) = (assemble ps).map (c :: ·) := by
  have hshort {e d : Char} (he : shortEscape? e = some d) :
      ∃ p, (∀ {ps s}, StringText ps s → StringText (p :: ps) (['\\', e] ++ s)) ∧
        ∀ ps, assemble (p :: ps) = (assemble ps).map (d :: ·) :=
    ⟨.char d, fun h => .short he h, fun _ => rfl⟩
  rw [escape]
  iterate 7
    split
    · next h =>
      obtain rfl := eq_of_beq h
      exact hshort rfl
  split
  · next h =>
    refine ⟨.unit c.toNat, fun hs => .unit (hexRow_of_control h) hs, fun ps => ?_⟩
    rw [assemble_unit (by omega), Char.ofNat_toNat]
  · next hq hb _ _ _ _ _ hc =>
    exact ⟨.char c, fun hs => .plain (by omega) (by simpa using hq) (by simpa using hb) hs,
      fun _ => rfl⟩

/-- A text between quotes is a spelling of its string. -/
theorem lexeme_quote (cs : List Char) : Lexeme (.string (some cs)) (quote cs) := by
  have hpieces : ∃ ps, StringText ps (cs.flatMap escape) ∧ assemble ps = some cs := by
    induction cs with
    | nil => exact ⟨[], .nil, rfl⟩
    | cons c cs ih =>
      obtain ⟨ps, htext, hcs⟩ := ih
      obtain ⟨p, hp, hc⟩ := stringText_escape c
      exact ⟨p :: ps, hp htext, by rw [hc, hcs]; rfl⟩
  obtain ⟨ps, htext, hcs⟩ := hpieces
  exact hcs ▸ Lexeme.string htext

/-! ### Rows and their texts -/

theorem ends_cons {c : Char} (h : continues c = false) : Ends (c :: s) := by
  intro c' hc
  cases hc
  exact h

theorem ends_commas (css : List (List Char)) (hs : Ends s) :
    Ends (css.flatMap (',' :: ·) ++ s) := by
  cases css with
  | nil => exact hs
  | cons cs css => exact ends_cons rfl

theorem Value.commas_cons (cs : List Char) (css : List (List Char)) :
    Value.commas (cs :: css) = cs ++ css.flatMap (',' :: ·) := by
  induction css generalizing cs with
  | nil => exact (List.append_nil cs).symm
  | cons ds css ih =>
    rw [Value.commas, ih, List.flatMap_cons, List.cons_append]
    exact fun h => by cases h

theorem Spells.lexeme (ht : Lexeme t cs) (he : ∀ n, t = .number n → Ends s) (h : Spells ts s) :
    Spells (t :: ts) (cs ++ s) :=
  .cons (b := []) (List.forall_mem_nil _) ht he h

/-- A mark of one character. -/
theorem Spells.mark {c : Char} (ht : Lexeme t [c]) (hn : ∀ n, t ≠ .number n) (h : Spells ts s) :
    Spells (t :: ts) (c :: s) :=
  .lexeme ht (fun n heq => absurd heq (hn n)) h

/-- The text spells the row in front of any text before which a number may end. -/
def Renders (v : List Token) (cs : List Char) : Prop :=
  ∀ ts s, Ends s → Spells ts s → Spells (v ++ ts) (cs ++ s)

theorem Renders.one (h : Lexeme t cs) : Renders [t] cs :=
  fun _ _ hs hts => .lexeme h (fun _ _ => hs) hts

/-- A row renders itself in front of nothing. -/
theorem Renders.spells (h : Renders v cs) : Spells v cs := by
  have hend : Ends [] := fun c hc => by cases hc
  have hspells := h [] [] hend (.nil (List.forall_mem_nil _))
  rwa [List.append_nil, List.append_nil] at hspells

namespace Renders

variable {α : Type} {rows : List α} {row : α → List Token} {text : α → List Char}

/-- The rows behind the first one, each behind a comma. -/
theorem commaRows (h : ∀ a ∈ rows, Renders (row a) (text a)) :
    Renders ((rows.map row).flatMap (.comma :: ·)) ((rows.map text).flatMap (',' :: ·)) := by
  induction rows with
  | nil => exact fun _ _ _ hts => hts
  | cons a rows ih =>
    intro ts s hs hts
    have hlater := ih (fun b hb => h b (List.mem_cons_of_mem a hb)) ts s hs hts
    have hhere := h a (List.mem_cons_self ..) _ _ (ends_commas _ hs) hlater
    rw [List.map_cons, List.map_cons, List.flatMap_cons, List.flatMap_cons, List.append_assoc,
      List.append_assoc]
    exact .mark .comma (by rintro n ⟨⟩) hhere

/-- Rows with commas between them. -/
theorem separated (h : ∀ a ∈ rows, Renders (row a) (text a)) :
    Renders (Json.separated (rows.map row)) (Value.commas (rows.map text)) := by
  cases rows with
  | nil => exact fun _ _ _ hts => hts
  | cons a rows =>
    intro ts s hs hts
    have hlater := commaRows (fun b hb => h b (List.mem_cons_of_mem a hb)) ts s hs hts
    rw [List.map_cons, List.map_cons, Json.separated, Value.commas_cons, List.append_assoc,
      List.append_assoc]
    exact h a (List.mem_cons_self ..) _ _ (ends_commas _ hs) hlater

/-- A row between brackets. -/
theorem bracketed {open_ close : Token} {a b : Char} (ha : Lexeme open_ [a]) (hb : Lexeme close [b])
    (hopen : ∀ n, open_ ≠ .number n) (hclose : ∀ n, close ≠ .number n) (hends : continues b = false)
    (h : Renders v cs) : Renders (open_ :: (v ++ [close])) (a :: (cs ++ [b])) := by
  intro ts s _ hts
  have hlater := h (close :: ts) (b :: s) (ends_cons hends)
    (.mark hb hclose hts)
  rw [List.cons_append, List.cons_append, List.append_assoc, List.append_assoc]
  exact .mark ha hopen hlater

end Renders

/-! ### Values -/

namespace Value

mutual

/-- The tokens of a value. -/
def tokens : Value → List Token
  | .null => [.null]
  | .flag b => [.flag b]
  | .number n => [.number n]
  | .string s => [.string (some s.toList)]
  | .array items => arrayTokens (itemTokens items)
  | .object fields => objectTokens (fieldRow fields)

/-- The tokens of each item. -/
def itemTokens : List Value → List (List Token)
  | [] => []
  | v :: vs => tokens v :: itemTokens vs

/-- The fields of an object, with the tokens of their values. -/
def fieldRow : List (String × Value) → List Field
  | [] => []
  | (name, v) :: fields => ⟨some name.toList, tokens v⟩ :: fieldRow fields

end

theorem itemTokens_eq_map (items : List Value) : itemTokens items = items.map tokens := by
  induction items with
  | nil => rfl
  | cons v items ih => rw [itemTokens, ih, List.map_cons]

theorem fieldRow_eq_map (fields : List (String × Value)) :
    fieldRow fields = fields.map fun f => ⟨some f.1.toList, f.2.tokens⟩ := by
  induction fields with
  | nil => rfl
  | cons f fields ih => rw [fieldRow, ih, List.map_cons]

theorem itemChars_eq_map (items : List Value) : itemChars items = items.map chars := by
  induction items with
  | nil => rfl
  | cons v items ih => rw [itemChars, ih, List.map_cons]

theorem fieldChars_eq_map (fields : List (String × Value)) :
    fieldChars fields = fields.map fun f => quote f.1.toList ++ ':' :: f.2.chars := by
  induction fields with
  | nil => rfl
  | cons f fields ih => rw [fieldChars, ih, List.map_cons]

/-- The numbers in a value are written as numbers are spelled. -/
inductive Plain : Value → Prop where
  | null : Plain .null
  | flag (b : Bool) : Plain (.flag b)
  | number {n : Numeral} (h : NumberText n n.chars) : Plain (.number n)
  | string (s : String) : Plain (.string s)
  | array {items : List Value} (h : ∀ v ∈ items, Plain v) : Plain (.array items)
  | object {fields : List (String × Value)} (h : ∀ f ∈ fields, Plain f.2) : Plain (.object fields)

theorem plain_int (n : Int) : (int n).Plain := .number (numberText_ofInt n)

variable {v : Value}

theorem Plain.isValue (h : v.Plain) : IsValue v.tokens := by
  induction h with
  | null => exact .null
  | flag b => exact .flag b
  | number _ => exact .number _
  | string s => exact .string _
  | array _ ih =>
    rw [tokens, itemTokens_eq_map]
    exact .array (List.forall_mem_map.2 ih)
  | object _ ih =>
    rw [tokens, fieldRow_eq_map]
    exact .object (List.forall_mem_map.2 ih)

theorem Plain.renders (h : v.Plain) : Renders v.tokens v.chars := by
  induction h with
  | null => exact .one .null
  | flag b =>
    cases b with
    | true => exact .one .yes
    | false => exact .one .no
  | number h => exact .one (.number h)
  | string s => exact .one (lexeme_quote _)
  | array _ ih =>
    rw [tokens, chars, itemTokens_eq_map, itemChars_eq_map]
    exact .bracketed .openArray .closeArray (by rintro n ⟨⟩) (by rintro n ⟨⟩) rfl (.separated ih)
  | object _ ih =>
    rw [tokens, chars, fieldRow_eq_map, fieldChars_eq_map, objectTokens, List.map_map]
    refine .bracketed .openObject .closeObject (by rintro n ⟨⟩) (by rintro n ⟨⟩) rfl
      (.separated fun f hf => ?_)
    intro ts s hs hts
    have hvalue := ih f hf ts s hs hts
    rw [List.append_assoc]
    exact .lexeme (lexeme_quote _) (by rintro n ⟨⟩) (.mark .colon (by rintro n ⟨⟩) hvalue)

/-- The compact text of a value spells its tokens. -/
theorem Plain.spells_text (h : v.Plain) : Spells v.tokens v.text.toList := by
  rw [text, String.toList_ofList]
  exact h.renders.spells

/-- Values of the same text have the same tokens. -/
theorem tokens_eq_of_text_eq {w : Value} (hv : v.Plain) (hw : w.Plain) (h : v.text = w.text) :
    v.tokens = w.tokens := by
  rw [← lex_of_spells hv.spells_text, ← lex_of_spells hw.spells_text, h]

end Value

end WindowedMean.Json
