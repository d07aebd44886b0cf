import Mathlib.Data.List.Nodup
import WindowedMean.Json.Record

/-! Objects, and the records that are read from them.

    Rows of tokens that are a value are described from the outside, by what they are made of. A reader
    of records goes through an object field by field, in the order of the text, and each field has
    one of four fates:

        name unknown       skipped, or refused where the record is strict
        name known         read, unless it was there before
        name is no text    refused
        value unreadable   refused

    So an object is read exactly if all its fields are skipped or read and no two of them are the same
    (`ofTokens_object_eq_ok_iff`). What is read is the row of known fields, and if the fields come in
    another order, it is that row in another order. -/

namespace WindowedMean.Json

/-- Rows one behind the other, with a comma between any two of them. -/
def separated : List (List Token) → List Token
  | [] => []
  | row :: rows => row ++ rows.flatMap (.comma :: ·)

/-- A field of an object: its name, which may be no text, and the tokens of its value. -/
structure Field where
  name : Option (List Char)
  value : List Token
  deriving DecidableEq, Repr

/-- The tokens of a field. -/
def Field.tokens (f : Field) : List Token := .string f.name :: .colon :: f.value

/-- The tokens of a list with the given items. -/
def arrayTokens (items : List (List Token)) : List Token :=
  .openArray :: (separated items ++ [.closeArray])

/-- The tokens of an object with the given fields. -/
def objectTokens (fields : List Field) : List Token :=
  .openObject :: (separated (fields.map Field.tokens) ++ [.closeObject])

/-- The rows of tokens that are one value. -/
inductive IsValue : List Token → Prop where
  | null : IsValue [.null]
  | flag (b : Bool) : IsValue [.flag b]
  | number (n : Decimal.Numeral) : IsValue [.number n]
  | string (text : Option (List Char)) : IsValue [.string text]
  | array {items : List (List Token)} (h : ∀ v ∈ items, IsValue v) : IsValue (arrayTokens items)
  | object {fields : List Field} (h : ∀ f ∈ fields, IsValue f.value) : IsValue (objectTokens fields)

variable {v rest ts : List Token} {fields : List Field}

/-! ### Values nobody asked for -/

/-- How skipping goes on when a value has passed: it is over if no bracket is open. -/
def resume : List Frame → Reader Unit
  | [], rest => .ok ((), rest)
  | f :: open_, rest => skipFrom .more (f :: open_) rest

theorem skipFrom_cons {e e' : Expect} {open_ open' : List Frame} {t : Token}
    (h : skipStep e open_ t = some (e', open')) (he : e' ≠ .more) :
    skipFrom e open_ (t :: ts) = skipFrom e' open' ts := by
  rw [skipFrom, h]
  cases e' with
  | more => exact absurd rfl he
  | _ => rfl

theorem skipFrom_cons_more {e : Expect} {open_ open' : List Frame} {t : Token}
    (h : skipStep e open_ t = some (.more, open')) :
    skipFrom e open_ (t :: ts) = resume open' ts := by
  rw [skipFrom, h]
  cases open' <;> rfl

/-- A value can be told from the end of a list by its first token. -/
theorem IsValue.skipFrom_item (h : IsValue v) (open_ : List Frame) :
    skipFrom .item open_ (v ++ rest) = skipFrom .value open_ (v ++ rest) := by
  cases h <;> rcases open_ with _ | ⟨_ | _, open_⟩ <;> rfl

/-- The items of a list behind the first one, up to the closing bracket. -/
theorem skip_items {items : List (List Token)}
    (h : ∀ v ∈ items, ∀ open_ rest, skipFrom .value open_ (v ++ rest) = resume open_ rest)
    (open_ : List Frame) (rest : List Token) :
    skipFrom .more (.array :: open_) (items.flatMap (.comma :: ·) ++ (.closeArray :: rest)) =
      resume open_ rest := by
  induction items with
  | nil => exact skipFrom_cons_more rfl
  | cons v items ih =>
    rw [List.flatMap_cons, List.cons_append, List.cons_append, List.append_assoc,
      skipFrom_cons rfl (by decide), h v (List.mem_cons_self ..)]
    exact ih fun w hw => h w (List.mem_cons_of_mem v hw)

/-- The fields of an object behind the first one, up to the closing brace. -/
theorem skip_fields
    (h : ∀ f ∈ fields, ∀ open_ rest, skipFrom .value open_ (f.value ++ rest) = resume open_ rest)
    (open_ : List Frame) (rest : List Token) :
    skipFrom .more (.object :: open_)
        ((fields.map Field.tokens).flatMap (.comma :: ·) ++ (.closeObject :: rest)) =
      resume open_ rest := by
  induction fields with
  | nil => exact skipFrom_cons_more rfl
  | cons f fields ih =>
    simp only [List.map_cons, List.flatMap_cons, Field.tokens, List.cons_append, List.append_assoc]
    rw [skipFrom_cons rfl (by decide), skipFrom_cons rfl (by decide), skipFrom_cons rfl (by decide),
      h f (List.mem_cons_self ..)]
    exact ih fun g hg => h g (List.mem_cons_of_mem f hg)

/-- Skipping passes a whole value, however deep, and nothing behind it. -/
theorem IsValue.skipFrom_value (h : IsValue v) (open_ : List Frame) (rest : List Token) :
    skipFrom .value open_ (v ++ rest) = resume open_ rest := by
  induction h generalizing open_ rest with
  | @array items hv ih =>
    rw [arrayTokens, List.cons_append, List.append_assoc, skipFrom_cons rfl (by decide)]
    cases items with
    | nil => exact skipFrom_cons_more rfl
    | cons v items =>
      rw [separated, List.append_assoc, (hv v (List.mem_cons_self ..)).skipFrom_item,
        ih v (List.mem_cons_self ..)]
      exact skip_items (fun w hw => ih w (List.mem_cons_of_mem v hw)) open_ rest
  | @object fields hv ih =>
    rw [objectTokens, List.cons_append, List.append_assoc, skipFrom_cons rfl (by decide)]
    cases fields with
    | nil => exact skipFrom_cons_more rfl
    | cons f fields =>
      rw [List.map_cons, separated, List.append_assoc, Field.tokens, List.cons_append,
        List.cons_append, skipFrom_cons rfl (by decide), skipFrom_cons rfl (by decide),
        ih f (List.mem_cons_self ..)]
      exact skip_fields (fun g hg => ih g (List.mem_cons_of_mem f hg)) open_ rest
  | _ => exact skipFrom_cons_more rfl

theorem IsValue.skip (h : IsValue v) (rest : List Token) :
    Reader.skip (v ++ rest) = .ok ((), rest) := h.skipFrom_value [] rest

/-! ### Fields of a record -/

/-- The reader takes a value or refuses it, whatever comes behind it. -/
def Reader.Local {α : Type} (r : Reader α) : Prop :=
  ∀ v rest, IsValue v → r (v ++ rest) = (r v).map fun p => (p.1, rest)

/-- A reader of one token that refuses brackets. -/
theorem Reader.one_local {α : Type} {f : Token → Except Fault α} {e e' : Fault}
    (ha : f .openArray = .error e) (ho : f .openObject = .error e') : (Reader.one f).Local := by
  have hone (t : Token) (ts : List Token) : Reader.one f (t :: ts) = (f t).map (·, ts) := rfl
  have hsingle (t : Token) (rest : List Token) :
      Reader.one f ([t] ++ rest) = (Reader.one f [t]).map fun p => (p.1, rest) := by
    rw [List.singleton_append, hone, hone]
    cases f t <;> rfl
  intro v rest h
  cases h with
  | array _ => rw [arrayTokens, List.cons_append, hone, hone, ha]; rfl
  | object _ => rw [objectTokens, List.cons_append, hone, hone, ho]; rfl
  | _ => exact hsingle _ rest

namespace Schema

variable {κ σ : Type} {sc : Schema κ σ} {found taken : List (κ × σ)}

/-- What the known fields of an object are read as, in the order of the text. -/
inductive Reads (sc : Schema κ σ) : List Field → List (κ × σ) → Prop where
  | nil : Reads sc [] []
  | skip {name : List Char} {v : List Token} {fields : List Field} {found : List (κ × σ)}
      (hk : sc.field? name = none) (hs : sc.strict = false) (h : Reads sc fields found) :
      Reads sc (⟨some name, v⟩ :: fields) found
  | take {name : List Char} {v : List Token} {k : κ} {x : σ} {fields : List Field}
      {found : List (κ × σ)} (hk : sc.field? name = some k) (hx : sc.read k v = .ok (x, []))
      (h : Reads sc fields found) : Reads sc (⟨some name, v⟩ :: fields) ((k, x) :: found)

theorem Reads.append {later : List Field} {read : List (κ × σ)} (h : sc.Reads fields found)
    (h' : sc.Reads later read) : sc.Reads (fields ++ later) (found ++ read) := by
  induction h with
  | nil => exact h'
  | skip hk hs _ ih => exact .skip hk hs ih
  | take hk hx _ ih => exact .take hk hx ih

/-- Fields in another order are read as the same, in that order. -/
theorem Reads.perm {fields' : List Field} (hp : fields.Perm fields') (h : sc.Reads fields found) :
    ∃ found', sc.Reads fields' found' ∧ found.Perm found' := by
  induction hp generalizing found with
  | nil => exact ⟨found, h, .refl _⟩
  | cons f _ ih =>
    cases h with
    | skip hk hs h =>
      obtain ⟨found', hreads, hperm⟩ := ih h
      exact ⟨found', .skip hk hs hreads, hperm⟩
    | take hk hx h =>
      obtain ⟨found', hreads, hperm⟩ := ih h
      exact ⟨_, .take hk hx hreads, hperm.cons _⟩
  | swap f g fields =>
    cases h with
    | skip hk hs h =>
      cases h with
      | skip hk' hs' h => exact ⟨_, .skip hk' hs' (.skip hk hs h), .refl _⟩
      | take hk' hx' h => exact ⟨_, .take hk' hx' (.skip hk hs h), .refl _⟩
    | take hk hx h =>
      cases h with
      | skip hk' hs' h => exact ⟨_, .skip hk' hs' (.take hk hx h), .refl _⟩
      | take hk' hx' h => exact ⟨_, .take hk' hx' (.take hk hx h), .swap ..⟩
  | trans _ _ ih ih' =>
    obtain ⟨found', hreads, hperm⟩ := ih h
    obtain ⟨found'', hreads', hperm'⟩ := ih' hreads
    exact ⟨found'', hreads', hperm.trans hperm'⟩

/-- The keys that are read are those of the known names. -/
theorem Reads.keys_eq (h : sc.Reads fields found) :
    found.map (·.1) = fields.filterMap fun f => f.name.bind sc.field? := by
  induction h with
  | nil => rfl
  | skip hk _ _ ih =>
    rw [List.filterMap_cons_none (by exact hk)]
    exact ih
  | take hk _ _ ih =>
    rw [List.filterMap_cons_some (by exact hk)]
    exact congrArg _ ih

/-- Two fields of one known name are read as one key twice. -/
theorem Reads.not_nodup {f g : Field} {name : List Char} {k : κ} (h : sc.Reads fields found)
    (hsub : [f, g].Sublist fields) (hf : f.name = some name) (hg : g.name = some name)
    (hk : sc.field? name = some k) : ¬ (found.map (·.1)).Nodup := by
  have hkeys := hsub.filterMap fun f => f.name.bind sc.field?
  rw [← h.keys_eq] at hkeys
  have htwice : [f, g].filterMap (fun f => f.name.bind sc.field?) = [k, k] := by
    simp only [List.filterMap_cons, hf, hg, Option.bind_some, hk, List.filterMap_nil]
  rw [htwice] at hkeys
  exact fun hn => List.nodup_iff_sublist.1 hn k hkeys

variable [BEq κ]

/-- What a field adds to the row of fields so far. -/
def enter (sc : Schema κ σ) (found : List (κ × σ)) (f : Field) : Except Fault (List (κ × σ)) :=
  match f.name with
  | none => .error .malformed
  | some name =>
    match sc.field? name with
    | none => if sc.strict then .error .mismatch else .ok found
    | some k =>
      if (found.lookup k).isSome then .error .mismatch
      else (sc.read k f.value).map fun p => found ++ [(k, p.1)]

theorem member_field (hl : ∀ k, (sc.read k).Local) {f : Field} (hv : IsValue f.value)
    (found : List (κ × σ)) (rest : List Token) :
    sc.member found (f.tokens ++ rest) = (sc.enter found f).map (·, rest) := by
  obtain ⟨name, value⟩ := f
  cases name with
  | none => rfl
  | some name =>
    rw [Field.tokens, List.cons_append, List.cons_append, member, enter]
    dsimp only
    cases sc.field? name with
    | none =>
      dsimp only
      by_cases hs : sc.strict
      · rw [if_pos hs, if_pos hs]
        rfl
      · rw [if_neg hs, if_neg hs, afterColon, hv.skip]
        rfl
    | some k =>
      dsimp only
      by_cases hk : (found.lookup k).isSome
      · rw [if_pos hk, if_pos hk]
        rfl
      · rw [if_neg hk, if_neg hk, afterColon, hl k value rest hv]
        cases sc.read k value <;> rfl

theorem members_eq (sc : Schema κ σ) (found : List (κ × σ)) (ts : List Token) :
    sc.members found ts =
      match sc.member found ts with
      | .error e => .error e
      | .ok (found', .comma :: rest) => sc.members found' rest
      | .ok (found', .closeObject :: rest) => .ok (found', rest)
      | .ok _ => .error .malformed := by
  rw [members]
  split
  · next h => rw [h]
  · next h => rw [h]
  · next h => rw [h]
  · next p hcomma hclose h =>
    rw [h]
    split
    · next heq => cases heq
    · next heq => exact absurd (Except.ok.inj heq) (hcomma _ _)
    · next heq => exact absurd (Except.ok.inj heq) (hclose _ _)
    · rfl

theorem members_fields (hl : ∀ k, (sc.read k).Local) {f : Field}
    (hv : ∀ g ∈ f :: fields, IsValue g.value) (found : List (κ × σ)) (rest : List Token) :
    sc.members found (separated ((f :: fields).map Field.tokens) ++ (.closeObject :: rest)) =
      ((f :: fields).foldlM sc.enter found).map (·, rest) := by
  induction fields generalizing f found with
  | nil =>
    rw [List.map_singleton, separated, List.flatMap_nil, List.append_nil, members_eq,
      member_field hl (hv f (List.mem_cons_self ..)), List.foldlM_cons]
    cases sc.enter found f <;> rfl
  | cons g fields ih =>
    have hlater := ih fun h hh => hv h (List.mem_cons_of_mem f hh)
    rw [List.map_cons, separated] at hlater
    rw [List.map_cons, List.map_cons, separated, List.flatMap_cons, List.append_assoc,
      List.cons_append, List.cons_append, members_eq, member_field hl (hv f (List.mem_cons_self ..)),
      List.foldlM_cons]
    cases sc.enter found f with
    | error e => rfl
    | ok found' => exact hlater found'

theorem record_object (hl : ∀ k, (sc.read k).Local) (hv : ∀ f ∈ fields, IsValue f.value) :
    sc.record (objectTokens fields) =
      (fields.foldlM sc.enter []).bind fun found => sc.close found [] := by
  cases fields with
  | nil => rfl
  | cons f fields =>
    have hmembers := members_fields hl hv [] []
    rw [objectTokens, record.eq_2, hmembers]
    · cases (f :: fields).foldlM sc.enter [] <;> rfl
    · -- The row goes on with a name and not with the closing brace.
      intro ts heq
      cases heq

/-- A record is read from an object field by field. -/
theorem ofTokens_object (hl : ∀ k, (sc.read k).Local) (hv : ∀ f ∈ fields, IsValue f.value) :
    sc.ofTokens (objectTokens fields) =
      (fields.foldlM sc.enter []).bind fun found =>
        if sc.complete found then .ok found else .error .mismatch := by
  rw [ofTokens, record_object hl hv]
  cases fields.foldlM sc.enter [] with
  | error e => rfl
  | ok found =>
    dsimp only [Except.bind]
    rw [close]
    by_cases hc : sc.complete found
    · rw [if_pos hc, if_pos hc]
    · rw [if_neg hc, if_neg hc]

variable [LawfulBEq κ]

theorem isSome_lookup_iff {k : κ} : (found.lookup k).isSome ↔ k ∈ found.map (·.1) := by
  rw [List.lookup_isSome_iff, List.mem_map]
  constructor
  · rintro ⟨p, hp, hk⟩
    exact ⟨p, hp, (eq_of_beq hk).symm⟩
  · rintro ⟨p, hp, rfl⟩
    exact ⟨p, hp, beq_self_eq_true _⟩

theorem mem_iff_lookup (hn : (found.map (·.1)).Nodup) {k : κ} {x : σ} :
    found.lookup k = some x ↔ (k, x) ∈ found := by
  constructor
  · intro h
    obtain ⟨l, l', rfl, -⟩ := List.lookup_eq_some_iff.1 h
    exact List.mem_append_right _ (List.mem_cons_self ..)
  · intro h
    obtain ⟨y, hy⟩ := Option.isSome_iff_exists.1
      (isSome_lookup_iff.2 (List.mem_map.2 ⟨(k, x), h, rfl⟩))
    obtain ⟨l, l', rfl, -⟩ := List.lookup_eq_some_iff.1 hy
    have hsame := List.inj_on_of_nodup_map hn h (List.mem_append_right _ (List.mem_cons_self ..)) rfl
    rw [hy, ← (Prod.mk.inj hsame).2]

/-- Whatever the order of a row without repeated keys, the same is found in it. -/
theorem lookup_of_perm (hn : (found.map (·.1)).Nodup) (hp : found.Perm taken) (k : κ) :
    found.lookup k = taken.lookup k := by
  have hn' : (taken.map (·.1)).Nodup := (hp.map _).nodup_iff.1 hn
  ext x
  rw [mem_iff_lookup hn, mem_iff_lookup hn', hp.mem_iff]

/-- A field that is taken is skipped, or it is read and adds a key. -/
theorem enter_eq_ok_iff (hl : ∀ k, (sc.read k).Local) {f : Field} (hv : IsValue f.value)
    {start : List (κ × σ)} :
    sc.enter start f = .ok found ↔
      (∃ name, f.name = some name ∧ sc.field? name = none ∧ sc.strict = false ∧ found = start) ∨
      ∃ name k x, f.name = some name ∧ sc.field? name = some k ∧ k ∉ start.map (·.1) ∧
        sc.read k f.value = .ok (x, []) ∧ found = start ++ [(k, x)] := by
  obtain ⟨name, v⟩ := f
  rw [enter]
  cases name with
  | none => simp
  | some name =>
    dsimp only
    cases hk : sc.field? name with
    | none =>
      cases hs : sc.strict <;> simp [hk, eq_comm]
    | some k =>
      have hlocal := hl k v [] hv
      rw [List.append_nil] at hlocal
      have hknown {name' : List Char} (heq : some name = some name') : sc.field? name' = some k :=
        Option.some.inj heq ▸ hk
      dsimp only
      by_cases hmem : k ∈ start.map (·.1)
      · rw [if_pos (isSome_lookup_iff.2 hmem)]
        constructor
        · intro h
          cases h
        · rintro (⟨_, heq, hnone, -⟩ | ⟨_, _, _, heq, hsome, hnot, -⟩)
          · cases (hknown heq).symm.trans hnone
          · cases (hknown heq).symm.trans hsome
            exact absurd hmem hnot
      · rw [if_neg (mt isSome_lookup_iff.1 hmem)]
        cases hx : sc.read k v with
        | error e => simp [hk, hx, Except.map]
        | ok p =>
          rw [hx] at hlocal
          obtain ⟨x, rest⟩ := p
          cases hlocal
          constructor
          · intro h
            cases h
            exact .inr ⟨name, k, x, rfl, hk, hmem, hx, rfl⟩
          · rintro (⟨_, heq, hnone, -⟩ | ⟨_, _, _, heq, hsome, -, hread, rfl⟩)
            · cases (hknown heq).symm.trans hnone
            · cases (hknown heq).symm.trans hsome
              cases hx.symm.trans hread
              rfl

/-- The fields of an object are taken exactly if all are skipped or read and no key comes twice. -/
theorem foldlM_enter_eq_ok_iff (hl : ∀ k, (sc.read k).Local) (hv : ∀ f ∈ fields, IsValue f.value)
    {start : List (κ × σ)} (hn : (start.map (·.1)).Nodup) :
    fields.foldlM sc.enter start = .ok found ↔
      ∃ taken, found = start ++ taken ∧ sc.Reads fields taken ∧ (found.map (·.1)).Nodup := by
  induction fields generalizing start with
  | nil =>
    constructor
    · intro h
      cases h
      exact ⟨[], (List.append_nil _).symm, .nil, hn⟩
    · rintro ⟨taken, rfl, hreads, -⟩
      cases hreads
      rw [List.append_nil]
      rfl
  | cons f fields ih =>
    have hf := hv f (List.mem_cons_self ..)
    have hfields : ∀ g ∈ fields, IsValue g.value := fun g hg => hv g (List.mem_cons_of_mem f hg)
    rw [List.foldlM_cons]
    constructor
    · intro h
      cases hs : sc.enter start f with
      | error e =>
        rw [hs] at h
        cases h
      | ok mid =>
        rw [hs] at h
        change fields.foldlM sc.enter mid = .ok found at h
        obtain ⟨name, v⟩ := f
        rcases (enter_eq_ok_iff hl hf).1 hs with
          ⟨name, rfl, hk, hstrict, rfl⟩ | ⟨name, k, x, rfl, hk, hmem, hx, rfl⟩
        · obtain ⟨taken, heq, hreads, hnodup⟩ := (ih hfields hn).1 h
          exact ⟨taken, heq, .skip hk hstrict hreads, hnodup⟩
        · have hn' : ((start ++ [(k, x)]).map (·.1)).Nodup := by
            rw [List.map_append, List.map_singleton]
            exact List.nodup_append_comm.1 (List.nodup_cons.2 ⟨hmem, hn⟩)
          obtain ⟨taken, heq, hreads, hnodup⟩ := (ih hfields hn').1 h
          exact ⟨_, by rw [heq, List.append_assoc, List.singleton_append],
            .take hk hx hreads, hnodup⟩
    · rintro ⟨taken, rfl, hreads, hnodup⟩
      cases hreads with
      | skip hk hstrict hreads =>
        rw [(enter_eq_ok_iff hl hf).2 (.inl ⟨_, rfl, hk, hstrict, rfl⟩)]
        exact (ih hfields hn).2 ⟨taken, rfl, hreads, hnodup⟩
      | @take name v k x _ later hk hx hreads =>
        have hassoc : start ++ (k, x) :: later = start ++ [(k, x)] ++ later := by
          rw [List.append_assoc, List.singleton_append]
        have hstart : ((start ++ [(k, x)]).map (·.1)).Nodup := by
          rw [hassoc, List.map_append] at hnodup
          exact hnodup.of_append_left
        have hmem : k ∉ start.map (·.1) := by
          rw [List.map_append, List.map_singleton] at hstart
          exact (List.nodup_cons.1 (List.nodup_append_comm.1 hstart)).1
        rw [(enter_eq_ok_iff hl hf).2 (.inr ⟨_, k, x, rfl, hk, hmem, hx, rfl⟩)]
        exact (ih hfields hstart).2 ⟨later, hassoc, hreads, hnodup⟩

/-- An object is read as a record exactly if each of its fields is skipped or read, no known field
    comes twice, and none is missing that has to be there. -/
theorem ofTokens_object_eq_ok_iff (hl : ∀ k, (sc.read k).Local)
    (hv : ∀ f ∈ fields, IsValue f.value) :
    sc.ofTokens (objectTokens fields) = .ok found ↔
      sc.Reads fields found ∧ (found.map (·.1)).Nodup ∧ sc.complete found := by
  have hfold (found : List (κ × σ)) : fields.foldlM sc.enter [] = .ok found ↔
      sc.Reads fields found ∧ (found.map (·.1)).Nodup := by
    rw [foldlM_enter_eq_ok_iff hl hv (by exact List.nodup_nil)]
    constructor
    · rintro ⟨taken, rfl, h⟩
      exact h
    · exact fun h => ⟨found, rfl, h⟩
  rw [ofTokens_object hl hv, ← and_assoc, ← hfold]
  cases fields.foldlM sc.enter [] with
  | error e => simp [Except.bind]
  | ok taken =>
    dsimp only [Except.bind]
    by_cases hc : sc.complete taken
    · rw [if_pos hc]
      constructor
      · intro h
        cases h
        exact ⟨rfl, hc⟩
      · exact fun h => h.1
    · rw [if_neg hc]
      constructor
      · intro h
        cases h
      · rintro ⟨h, hfound⟩
        cases h
        exact absurd hfound hc

end Schema

end WindowedMean.Json
