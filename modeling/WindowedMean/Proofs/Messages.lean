import WindowedMean.Cluster
import WindowedMean.Message
import WindowedMean.Proofs.Written

/-! Messages are read back.

    A message may reach a node in another form than it was written in: with its fields in another
    order, with blanks between the tokens, and with fields that only the sender knows:

        {"total":5,"count":2}     { "count" : 2, "trace" : [{"id": null}], "total" : 5 }

    Both *carry* the same fields. A text that has a known field twice carries nothing, whatever the two
    values are. Replies are only written, and the text of a reply tells which one it is. -/

namespace WindowedMean

namespace Json

/-- The text is an object with these fields in any order, other fields between them that have other
    names, and blanks between any two tokens. -/
def Carries (own : List Field) (text : String) : Prop :=
  ∃ fields others : List Field, fields.Perm (own ++ others) ∧
    (∀ f ∈ others, IsValue f.value ∧ ∃ name, f.name = some name ∧ ∀ g ∈ own, g.name ≠ some name) ∧
    Spells (objectTokens fields) text.toList

/-- The text is an object that has a field of one of these names twice. -/
def Repeats (names : List String) (text : String) : Prop :=
  ∃ (fields : List Field) (f g : Field) (name : String), (∀ h ∈ fields, IsValue h.value) ∧
    [f, g].Sublist fields ∧ f.name = some name.toList ∧ g.name = some name.toList ∧ name ∈ names ∧
    Spells (objectTokens fields) text.toList

/-- The fields of an object. -/
def Value.fields : Value → List Field
  | .object fields => fieldRow fields
  | _ => []

theorem Value.Plain.fields_isValue {v : Value} (h : v.Plain) : ∀ f ∈ v.fields, IsValue f.value := by
  cases h with
  | object h =>
    rw [Value.fields, Value.fieldRow_eq_map]
    exact List.forall_mem_map.2 fun f hf => (h f hf).isValue
  | _ => exact List.forall_mem_nil _

/-- An object carries fields that it has, if the others have other names. -/
theorem carries_of_perm {fields : List (String × Value)} {own : List Field} (others : List Field)
    (h : (Value.object fields).Plain) (hperm : (Value.object fields).fields.Perm (own ++ others))
    (hnames : ∀ f ∈ others, ∃ name, f.name = some name ∧ ∀ g ∈ own, g.name ≠ some name) :
    Carries own (Value.object fields).text :=
  ⟨_, others, hperm,
    fun f hf => ⟨h.fields_isValue f (hperm.mem_iff.2 (List.mem_append_right _ hf)), hnames f hf⟩,
    h.spells_text⟩

theorem carries_text {fields : List (String × Value)} (h : (Value.object fields).Plain) :
    Carries (Value.object fields).fields (Value.object fields).text :=
  carries_of_perm [] h (by rw [List.append_nil]) (List.forall_mem_nil _)

/-- An object with two fields of one name. -/
theorem repeats_of_sublist {fields : List (String × Value)} {names : List String} {name : String}
    {v w : Value} (h : (Value.object fields).Plain) (hsub : [(name, v), (name, w)].Sublist fields)
    (hname : name ∈ names) : Repeats names (Value.object fields).text := by
  have hrow := hsub.map fun f : String × Value => Field.mk (some f.1.toList) f.2.tokens
  rw [← Value.fieldRow_eq_map fields] at hrow
  exact ⟨_, _, _, name, h.fields_isValue, hrow, rfl, rfl, hname, h.spells_text⟩

namespace Schema

variable {κ σ : Type} {sc : Schema κ σ}

/-- Fields whose names are not known are skipped. -/
theorem reads_unknown {fields : List Field} (hs : sc.strict = false)
    (h : ∀ f ∈ fields, ∃ name, f.name = some name ∧ sc.field? name = none) : sc.Reads fields [] := by
  induction fields with
  | nil => exact .nil
  | cons f fields ih =>
    obtain ⟨_, value⟩ := f
    obtain ⟨name, rfl, hk⟩ := h _ (List.mem_cons_self ..)
    exact .skip hk hs (ih fun g hg => h g (List.mem_cons_of_mem _ hg))

/-- A name is known only if it stands among those of the record. -/
theorem name_of_field {name : List Char} {k : κ} (h : sc.field? name = some k) :
    (String.ofList name, k) ∈ sc.fields := by
  obtain ⟨l, l', heq, -⟩ := List.lookup_eq_some_iff.1 h
  rw [heq]
  exact List.mem_append_right _ (List.mem_cons_self ..)

variable [BEq κ]

theorem complete_congr {found taken : List (κ × σ)} (h : ∀ k, found.lookup k = taken.lookup k) :
    sc.complete found = sc.complete taken := by
  simp only [complete, h]

variable [LawfulBEq κ]

/-- What a record is read as from its own fields is read from every text that carries them. -/
theorem ofText_of_carries (hl : ∀ k, (sc.read k).Local) (hs : sc.strict = false) {own : List Field}
    {found : List (κ × σ)} (hv : ∀ f ∈ own, IsValue f.value)
    (hnames : ∀ p ∈ sc.fields, ∃ g ∈ own, g.name = some p.1.toList) (hreads : sc.Reads own found)
    (hn : (found.map (·.1)).Nodup) (hc : sc.complete found) {text : String} (h : Carries own text) :
    ∃ taken, sc.ofText text = .ok taken ∧ ∀ k, taken.lookup k = found.lookup k := by
  obtain ⟨fields, others, hperm, hothers, hspells⟩ := h
  have hskip : sc.Reads others [] := by
    refine reads_unknown hs fun f hf => ?_
    obtain ⟨name, hname, hnot⟩ := (hothers f hf).2
    refine ⟨name, hname, Option.eq_none_iff_forall_ne_some.2 fun k hk => ?_⟩
    obtain ⟨g, hg, hgname⟩ := hnames _ (name_of_field hk)
    rw [String.toList_ofList] at hgname
    exact hnot g hg hgname
  have hall := hreads.append hskip
  rw [List.append_nil] at hall
  obtain ⟨taken, htaken, hrow⟩ := hall.perm hperm.symm
  have hlookup := lookup_of_perm hn hrow
  have hvalues : ∀ f ∈ fields, IsValue f.value := by
    intro f hf
    rcases List.mem_append.1 (hperm.mem_iff.1 hf) with hf | hf
    · exact hv f hf
    · exact (hothers f hf).1
  refine ⟨taken, ?_, fun k => (hlookup k).symm⟩
  rw [ofText, lex_of_spells hspells]
  exact (ofTokens_object_eq_ok_iff hl hvalues).2
    ⟨htaken, (hrow.map _).nodup_iff.1 hn, complete_congr hlookup ▸ hc⟩

/-- No record is read from a text that has a known field twice. -/
theorem ofText_of_repeats (hl : ∀ k, (sc.read k).Local) {names : List String}
    (hnames : ∀ name ∈ names, ∃ k, sc.field? name.toList = some k) {text : String}
    (h : Repeats names text) : ∃ e, sc.ofText text = .error e := by
  obtain ⟨fields, f, g, name, hv, hsub, hf, hg, hname, hspells⟩ := h
  obtain ⟨k, hk⟩ := hnames name hname
  rw [ofText, lex_of_spells hspells]
  cases hread : sc.ofTokens (objectTokens fields) with
  | error e => exact ⟨e, rfl⟩
  | ok found =>
    obtain ⟨hreads, hn, -⟩ := (ofTokens_object_eq_ok_iff hl hv).1 hread
    exact absurd hn (hreads.not_nodup hsub hf hg hk)

end Schema

/-- A message is read back: from its own text and from every text that carries the same, and from no
    text that has a field of it twice. -/
structure ReadsBack {α : Type} (read : String → Except Fault α) (json : α → Value)
    (valid : α → Prop) (names : List String) : Prop where
  compact : ∀ a, valid a → read (json a).text = .ok a
  carried : ∀ a text, valid a → Carries (json a).fields text → read text = .ok a
  repeated : ∀ text, Repeats names text → ∃ e, read text = .error e

end Json

open Json (Value Token Reader Schema Carries Repeats ReadsBack)

/-! ### Snapshots -/

namespace Snapshot

theorem plain_json (s : Snapshot) : s.json.Plain := by
  refine .object fun f hf => ?_
  rcases List.mem_pair.1 hf with rfl | rfl <;> exact Value.plain_int _

theorem read_local (k : SnapshotField) : (schema.read k).Local := Reader.one_local rfl rfl

theorem read_int (k : SnapshotField) {n : Int} (h : Fits n) :
    schema.read k (Value.int n).tokens = .ok (n, []) := by
  change (Token.event (.number (.ofInt n))).map (·, []) = .ok (n, [])
  rw [Json.event_ofInt h]
  rfl

theorem ofJson_of_carries {s : Snapshot} {text : String} (h : s.InRange)
    (hcarries : Carries s.json.fields text) : ofJson text = .ok s := by
  have hreads : schema.Reads s.json.fields [(.total, s.total), (.count, s.count)] :=
    .take rfl (read_int _ h.1) (.take rfl (read_int _ h.2) .nil)
  obtain ⟨taken, hread, hlookup⟩ := Schema.ofText_of_carries read_local rfl s.plain_json.fields_isValue
    (by simp [json, schema, Value.fields, Value.fieldRow]) hreads (by simp) rfl hcarries
  rw [ofJson, hread]
  change Except.ok (ofFields taken) = .ok s
  rw [ofFields, hlookup, hlookup]
  rfl

theorem ofJson_of_repeats {text : String} (h : Repeats ["total", "count"] text) :
    ∃ e, ofJson text = .error e := by
  have hnames : ∀ name ∈ ["total", "count"], ∃ k, schema.field? name.toList = some k := by
    intro name hname
    rcases List.mem_pair.1 hname with rfl | rfl
    · exact ⟨.total, rfl⟩
    · exact ⟨.count, rfl⟩
  obtain ⟨e, he⟩ := Schema.ofText_of_repeats read_local hnames h
  exact ⟨e, by rw [ofJson, he]; rfl⟩

end Snapshot

/-! ### Queries -/

namespace Query

theorem plain_json (q : Query) : q.json.Plain :=
  .object (List.forall_mem_singleton.2 (.string q.key))

theorem read_local (k : QueryField) : (schema.read k).Local := Reader.one_local rfl rfl

theorem read_text (k : QueryField) (s : String) :
    schema.read k (Value.string s).tokens = .ok (s, []) := by
  change Except.ok (String.ofList s.toList, []) = .ok (s, [])
  rw [String.ofList_toList]

theorem ofJson_of_carries {q : Query} {text : String} (h : Carries q.json.fields text) :
    ofJson text = .ok q := by
  have hreads : schema.Reads q.json.fields [(.key, q.key)] := .take rfl (read_text _ _) .nil
  obtain ⟨taken, hread, hlookup⟩ := Schema.ofText_of_carries read_local rfl q.plain_json.fields_isValue
    (by simp [json, schema, Value.fields, Value.fieldRow]) hreads (by simp) rfl h
  rw [ofJson, hread]
  change Except.ok (ofFields taken) = .ok q
  rw [ofFields, hlookup]
  rfl

theorem ofJson_of_repeats {text : String} (h : Repeats ["key"] text) :
    ∃ e, ofJson text = .error e := by
  obtain ⟨e, he⟩ := Schema.ofText_of_repeats read_local
    (List.forall_mem_singleton.2 ⟨.key, rfl⟩) h
  exact ⟨e, by rw [ofJson, he]; rfl⟩

end Query

/-! ### Replies -/

namespace Reply

theorem plain_json (r : Reply) : r.json.Plain := by
  have hnode (n : Nat) : (Value.nat n).Plain := Value.plain_int n
  cases r with
  | value n s => exact .object (by simp [Value.Plain.string, hnode, s.plain_json])
  | absent n => exact .object (by simp [Value.Plain.string, hnode])
  | unreachable n reason => exact .object (by simp [Value.Plain.string, hnode])

/-- The tokens of a reply tell which one it is. -/
theorem eq_of_tokens_eq {r r' : Reply} (h : r.json.tokens = r'.json.tokens) : r = r' := by
  -- Replies of two kinds differ in the second string.
  cases r <;> cases r' <;>
    simp [json, Snapshot.json, Value.nat, Value.int, Value.tokens, Value.fieldRow,
      Json.objectTokens, Json.separated, Json.Field.tokens, Json.ofInt_inj, String.toList_inj] at h ⊢
  case value.value => exact ⟨by exact_mod_cast h.1, Snapshot.ext h.2.1 h.2.2⟩
  case absent.absent => exact_mod_cast h
  case unreachable.unreachable => exact_mod_cast h

theorem text_injective {r r' : Reply} (h : r.json.text = r'.json.text) : r = r' :=
  eq_of_tokens_eq (Value.tokens_eq_of_text_eq r.plain_json r'.plain_json h)

end Reply

/-- Snapshots and queries are read back, and no two replies have one text. -/
theorem messages_read_back :
    ReadsBack Snapshot.ofJson Snapshot.json Snapshot.InRange ["total", "count"] ∧
      ReadsBack Query.ofJson Query.json (fun _ => True) ["key"] ∧
      ∀ r r' : Reply, r ≠ r' → r.json.text ≠ r'.json.text := by
  refine ⟨⟨?_, ?_, ?_⟩, ⟨?_, ?_, ?_⟩, fun r r' hne h => hne (Reply.text_injective h)⟩
  · exact fun s hs => Snapshot.ofJson_of_carries hs (Json.carries_text s.plain_json)
  · exact fun s text hs => Snapshot.ofJson_of_carries hs
  · exact fun text => Snapshot.ofJson_of_repeats
  · exact fun q _ => Query.ofJson_of_carries (Json.carries_text q.plain_json)
  · exact fun q text _ => Query.ofJson_of_carries
  · exact fun text => Query.ofJson_of_repeats

/-- The extremes of a snapshot read from a text with a field between them, a key of a quote, a backslash
    and a control character, and texts that have a field twice. -/
theorem messages_read_back_of_extremes :
    Snapshot.InRange ⟨least, greatest⟩ ∧
      Snapshot.ofJson (Value.object [("count", .int greatest), ("trace", .array [.null]),
        ("total", .int least)]).text = .ok ⟨least, greatest⟩ ∧
      Query.ofJson (Query.mk "\"\\\x01").json.text = .ok ⟨"\"\\\x01"⟩ ∧
      (∃ e, Snapshot.ofJson (Value.object [("total", .int 1), ("total", .int 1),
        ("count", .int 1)]).text = .error e) ∧
      (∃ e, Query.ofJson (Value.object [("key", .string "a"), ("key", .null)]).text = .error e) ∧
      Reply.absent 1 ≠ Reply.absent 2 ∧
      (Reply.absent 1).json.text ≠ (Reply.absent 2).json.text := by
  have hs : Snapshot.InRange ⟨least, greatest⟩ := by decide
  have hr : Reply.absent 1 ≠ Reply.absent 2 := by decide
  have hcarries : Carries (Snapshot.json ⟨least, greatest⟩).fields (Value.object
      [("count", .int greatest), ("trace", .array [.null]), ("total", .int least)]).text := by
    refine Json.carries_of_perm [⟨some "trace".toList, Json.arrayTokens [[.null]]⟩] (.object ?_) ?_ ?_
    · simp [Value.plain_int, Value.Plain.array, Value.Plain.null]
    · decide
    · simp [Snapshot.json, Value.fields, Value.fieldRow]
  have htotals : Repeats ["total", "count"] (Value.object [("total", .int 1), ("total", .int 1),
      ("count", .int 1)]).text :=
    Json.repeats_of_sublist (.object (by simp [Value.plain_int]))
      (.cons_cons _ (.cons_cons _ (List.nil_sublist _))) (List.mem_cons_self ..)
  have hkeys : Repeats ["key"] (Value.object [("key", .string "a"), ("key", .null)]).text :=
    Json.repeats_of_sublist (.object (by simp [Value.Plain.string, Value.Plain.null])) (.refl _)
      (by decide)
  obtain ⟨hsnapshot, hquery, hreply⟩ := messages_read_back
  exact ⟨hs, hsnapshot.carried _ _ hs hcarries, hquery.compact _ trivial, hsnapshot.repeated _ htotals,
    hquery.repeated _ hkeys, hr, hreply _ _ hr⟩

end WindowedMean
