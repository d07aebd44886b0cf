import WindowedMean.Proofs.ArrivalOrder

/-! What becomes of each reply in a fold.

    A value is merged, unless it would take the sum of those merged before it out of range. Then it
    is skipped, and the fold goes on as if it had not come:

        value        merged         adds its pair
                     skipped        —
        absent       absent         —
        unreachable  unreachable    —

    Only what is merged has a say in what comes later. Whatever else comes is counted, so that every
    reply is accounted for in the end, and is neutral otherwise: it may stand anywhere in the row. -/

namespace WindowedMean

/-- The reply says that the node has nothing stored. -/
def Reply.isAbsent : Reply → Bool
  | .absent _ => true
  | _ => false

/-- What may become of a reply. -/
inductive Fate where
  | merged (s : Snapshot)
  | skipped
  | absent
  | unreachable
  deriving DecidableEq, Repr

/-- The pair that was merged, if one was. -/
def Fate.merged? : Fate → Option Snapshot
  | .merged s => some s
  | _ => none

/-- What becomes of a reply that comes to a sum. -/
def Reply.fate (sum : Snapshot) : Reply → Fate
  | .value _ s => if (sum + s).InRange then .merged s else .skipped
  | .absent _ => .absent
  | .unreachable _ _ => .unreachable

namespace Reduction
variable {reply : Reply} {replies more before : List Reply}

/-- What becomes of each reply of a row: it comes to the sum of those before it. -/
def fates (replies : List Reply) : List Fate :=
  replies.mapIdx fun k reply => reply.fate (ofReplies (replies.take k)).sum

/-- The pairs that are merged. -/
def merged (replies : List Reply) : List Snapshot := (fates replies).filterMap Fate.merged?

/-! ### One reply more -/

theorem fst_collect (r : Reduction) (reply : Reply) : (r.collect reply).1 = true := by
  rcases r.collect_cases reply with ⟨h, -⟩ | ⟨-, -, h⟩ <;> rw [h]

/-- More replies are always wanted, so the fold is never cut short. -/
theorem collectAll_eq_foldl (r : Reduction) (replies : List Reply) :
    r.collectAll replies = replies.foldl (fun r reply => (r.collect reply).2) r := by
  induction replies generalizing r with
  | nil => rfl
  | cons reply later ih =>
    have hmore := r.fst_collect reply
    rw [collectAll, List.foldl_cons, ← ih]
    generalize r.collect reply = p at hmore ⊢
    obtain ⟨wanted, r'⟩ := p
    obtain rfl : wanted = true := hmore
    rfl

theorem ofReplies_concat (replies : List Reply) (reply : Reply) :
    ofReplies (replies ++ [reply]) = ((ofReplies replies).collect reply).2 := by
  rw [ofReplies, ofReplies, collectAll_eq_foldl, collectAll_eq_foldl, List.foldl_append]
  rfl

theorem fates_append (replies later : List Reply) :
    fates (replies ++ later) = fates replies ++
      later.mapIdx fun k reply => reply.fate (ofReplies (replies ++ later.take k)).sum := by
  rw [fates, List.mapIdx_append]
  congr 1
  · refine List.mapIdx_eq_mapIdx_iff.2 fun k hk => ?_
    rw [List.take_append_of_le_length (Nat.le_of_lt hk)]
  · refine List.mapIdx_eq_mapIdx_iff.2 fun k hk => ?_
    rw [Nat.add_comm, List.take_length_add_append]

theorem fates_concat (replies : List Reply) (reply : Reply) :
    fates (replies ++ [reply]) = fates replies ++ [reply.fate (ofReplies replies).sum] := by
  rw [fates_append]
  simp

theorem merged_concat (replies : List Reply) (reply : Reply) :
    merged (replies ++ [reply]) =
      merged replies ++ (reply.fate (ofReplies replies).sum).merged?.toList := by
  rw [merged, fates_concat, List.filterMap_append, ← merged]
  cases h : (reply.fate (ofReplies replies).sum).merged? with
  | none => rw [List.filterMap_cons_none h]; rfl
  | some s => rw [List.filterMap_cons_some h]; rfl

/-! ### The whole row -/

/-- The fold of a row is that of what is merged; the others are only counted. -/
theorem ofReplies_eq (replies : List Reply) :
    ofReplies replies = ⟨(merged replies).sum, replies.length, (merged replies).length,
      replies.countP Reply.isUnreachable⟩ := by
  induction replies using List.reverseRecOn with
  | nil => rfl
  | append_singleton replies reply ih =>
    rw [ofReplies_concat, merged_concat, List.length_append, List.countP_append, ih]
    cases reply with
    | value n s =>
      by_cases h : ((merged replies).sum + s).InRange
      · simp [Reply.fate, Fate.merged?, h, collect, Snapshot.add, Reply.isUnreachable]
      · simp [Reply.fate, Fate.merged?, h, collect, Snapshot.add, Reply.isUnreachable]
    | absent n => simp [Reply.fate, Fate.merged?, collect, Reply.isUnreachable]
    | unreachable n reason => simp [Reply.fate, Fate.merged?, collect, Reply.isUnreachable]

theorem sum_ofReplies (replies : List Reply) : (ofReplies replies).sum = (merged replies).sum := by
  rw [ofReplies_eq]

theorem inRange_sum_merged (replies : List Reply) : (merged replies).sum.InRange := by
  induction replies using List.reverseRecOn with
  | nil => exact ⟨fits_zero, fits_zero⟩
  | append_singleton replies reply ih =>
    rw [merged_concat, sum_ofReplies]
    cases reply with
    | value n s =>
      by_cases h : ((merged replies).sum + s).InRange
      · simp [Reply.fate, Fate.merged?, h]
      · simpa [Reply.fate, Fate.merged?, h] using ih
    | absent n => simpa [Reply.fate, Fate.merged?] using ih
    | unreachable n reason => simpa [Reply.fate, Fate.merged?] using ih

/-- Every reply has one fate, and only values are merged or skipped. -/
theorem count_fates (replies : List Reply) :
    (merged replies).length + (fates replies).count .skipped = replies.countP Reply.isValue ∧
      (fates replies).count .absent = replies.countP Reply.isAbsent ∧
      (fates replies).count .unreachable = replies.countP Reply.isUnreachable := by
  induction replies using List.reverseRecOn with
  | nil => exact ⟨rfl, rfl, rfl⟩
  | append_singleton replies reply ih =>
    obtain ⟨hvalues, habsent, hunreachable⟩ := ih
    simp only [merged_concat, fates_concat, List.length_append, List.count_append,
      List.countP_append, ← hvalues, habsent, hunreachable]
    cases reply with
    | value n s =>
      by_cases h : ((ofReplies replies).sum + s).InRange
      · simp [Reply.fate, Fate.merged?, h, Reply.isValue, Reply.isAbsent, Reply.isUnreachable]
        omega
      · simp [Reply.fate, Fate.merged?, h, Reply.isValue, Reply.isAbsent, Reply.isUnreachable]
        omega
    | absent n =>
      simp [Reply.fate, Fate.merged?, Reply.isValue, Reply.isAbsent, Reply.isUnreachable]
    | unreachable n reason =>
      simp [Reply.fate, Fate.merged?, Reply.isValue, Reply.isAbsent, Reply.isUnreachable]

theorem countP_kinds (replies : List Reply) :
    replies.countP Reply.isValue + replies.countP Reply.isAbsent +
      replies.countP Reply.isUnreachable = replies.length := by
  induction replies with
  | nil => rfl
  | cons reply later ih =>
    simp only [List.countP_cons, List.length_cons, ← ih]
    cases reply <;> simp [Reply.isValue, Reply.isAbsent, Reply.isUnreachable] <;> omega

/-! ### What makes no difference -/

/-- A reply that is not merged makes no difference to what is merged later. -/
theorem merged_insert (h : (reply.fate (ofReplies before).sum).merged? = none)
    (after : List Reply) : merged (before ++ reply :: after) = merged (before ++ after) := by
  induction after using List.reverseRecOn with
  | nil =>
    rw [merged_concat, h, List.append_nil]
    exact List.append_nil _
  | append_singleton after last ih =>
    rw [← List.cons_append, ← List.append_assoc, ← List.append_assoc, merged_concat, merged_concat,
      sum_ofReplies, sum_ofReplies, ih]

theorem fates_insert (h : (reply.fate (ofReplies before).sum).merged? = none)
    (after : List Reply) :
    ∃ later, fates (before ++ reply :: after) =
        fates before ++ reply.fate (ofReplies before).sum :: later ∧
      fates (before ++ after) = fates before ++ later := by
  refine ⟨_, ?_, fates_append before after⟩
  rw [fates_append, List.mapIdx_cons]
  congr 2
  · rw [List.take_zero, List.append_nil]
  · refine List.mapIdx_eq_mapIdx_iff.2 fun k _ => ?_
    rw [List.take_succ_cons, sum_ofReplies, merged_insert h, ← sum_ofReplies]

/-- What is merged are values, and no other reply makes a difference to them. -/
theorem merged_filter (replies : List Reply) :
    merged (replies.filter Reply.isValue) = merged replies := by
  induction replies using List.reverseRecOn with
  | nil => rfl
  | append_singleton replies reply ih =>
    rw [List.filter_append, merged_concat]
    cases reply with
    | value n s =>
      rw [List.filter_cons_of_pos rfl, List.filter_nil, merged_concat, sum_ofReplies,
        sum_ofReplies, ih]
    | _ =>
      rw [List.filter_cons_of_neg Bool.false_ne_true, List.filter_nil, List.append_nil, ih]
      exact (List.append_nil _).symm

/-- Rows that differ in replies of one kind only have the same replies of any other kind. -/
theorem filter_eq_of_kind {p q : Reply → Bool} (hq : ∀ reply, p reply = true → q reply = false)
    (h : more.filter (!p ·) = replies.filter (!p ·)) : more.filter q = replies.filter q := by
  have hothers (row : List Reply) : (row.filter (!p ·)).filter q = row.filter q := by
    rw [List.filter_filter]
    refine List.filter_congr fun reply _ => ?_
    cases hreply : p reply with
    | false => rw [Bool.not_false, Bool.and_true]
    | true => rw [hq reply hreply, Bool.false_and]
  rw [← hothers, h, hothers]

theorem not_value_of_absent (h : reply.isAbsent = true) :
    reply.isValue = false ∧ reply.isUnreachable = false := by
  cases reply with
  | absent n => exact ⟨rfl, rfl⟩
  | _ => cases h

theorem not_value_of_unreachable (h : reply.isUnreachable = true) : reply.isValue = false := by
  cases reply with
  | unreachable n reason => rfl
  | _ => cases h

/-- Rows that differ in replies of one kind only, which is no value, have the same merged in them. -/
theorem merged_eq_of_kind {p : Reply → Bool} (hp : ∀ reply, p reply = true → reply.isValue = false)
    (h : more.filter (!p ·) = replies.filter (!p ·)) : merged more = merged replies := by
  rw [← merged_filter more, filter_eq_of_kind hp h, merged_filter]

/-! ### What a fold owes to its replies -/

/-- The result of a fold, read off what is merged. -/
theorem result_ofReplies (replies : List Reply) :
    (ofReplies replies).result =
      if ((merged replies).map (·.count)).sum = 0 then
        .error (.noData replies.length (replies.countP Reply.isUnreachable))
      else .ok {
        average := Float.ofInt ((merged replies).map (·.total)).sum /
          Float.ofInt ((merged replies).map (·.count)).sum
        total := ((merged replies).map (·.total)).sum
        count := ((merged replies).map (·.count)).sum
        contributing := (merged replies).length
        unreachable := replies.countP Reply.isUnreachable } := by
  rw [ofReplies_eq, result_eq]
  simp only [Snapshot.total_sum, Snapshot.count_sum]

/-- All replies of a row are accounted for. -/
structure Accounted (replies : List Reply) : Prop where
  /-- Every reply is merged, skipped, absent or unreachable. -/
  length_eq : (merged replies).length + (fates replies).count .skipped +
    (fates replies).count .absent + (fates replies).count .unreachable = replies.length
  kinds : (merged replies).length + (fates replies).count .skipped = replies.countP Reply.isValue ∧
    (fates replies).count .absent = replies.countP Reply.isAbsent ∧
    (fates replies).count .unreachable = replies.countP Reply.isUnreachable
  fold_eq : replies.foldl (fun r reply => (r.collect reply).2) empty =
    ⟨(merged replies).sum, replies.length, (merged replies).length,
      replies.countP Reply.isUnreachable⟩
  inRange : (merged replies).sum.InRange
  /-- A value is merged if the sum of those merged before it allows that. If not, what comes later
      becomes what it would without it, and so does the fold, but for the number of nodes. -/
  value : ∀ before node s after, replies = before ++ .value node s :: after →
    if ((merged before).sum + s).InRange then
      ∃ later, fates replies = fates before ++ .merged s :: later
    else
      (∃ later, fates replies = fates before ++ .skipped :: later ∧
        fates (before ++ after) = fates before ++ later) ∧
      ofReplies replies = { ofReplies (before ++ after) with nodes := replies.length }
  result_eq : (ofReplies replies).result =
    if ((merged replies).map (·.count)).sum = 0 then
      .error (.noData replies.length (replies.countP Reply.isUnreachable))
    else .ok {
      average := Float.ofInt ((merged replies).map (·.total)).sum /
        Float.ofInt ((merged replies).map (·.count)).sum
      total := ((merged replies).map (·.total)).sum
      count := ((merged replies).map (·.count)).sum
      contributing := (merged replies).length
      unreachable := replies.countP Reply.isUnreachable }
  /-- Where absent replies are put in or taken out, an average stays what it is. -/
  absent_neutral : ∀ more : List Reply,
    more.filter (!·.isAbsent) = replies.filter (!·.isAbsent) →
    (ofReplies more).result =
      match (ofReplies replies).result with
      | .ok g => .ok g
      | .error (.noData _ unreachable) => .error (.noData more.length unreachable)
  /-- Where unreachable replies are put in or taken out, they are counted. -/
  unreachable_neutral : ∀ more : List Reply,
    more.filter (!·.isUnreachable) = replies.filter (!·.isUnreachable) →
    (ofReplies more).result =
      match (ofReplies replies).result with
      | .ok g => .ok { g with unreachable := more.countP Reply.isUnreachable }
      | .error (.noData _ _) => .error (.noData more.length (more.countP Reply.isUnreachable))

theorem accounted_value {node : Nat} {s : Snapshot} (after : List Reply) :
    if ((merged before).sum + s).InRange then
      ∃ later, fates (before ++ .value node s :: after) = fates before ++ .merged s :: later
    else
      (∃ later, fates (before ++ .value node s :: after) = fates before ++ .skipped :: later ∧
        fates (before ++ after) = fates before ++ later) ∧
      ofReplies (before ++ .value node s :: after) =
        { ofReplies (before ++ after) with
          nodes := (before ++ .value node s :: after).length } := by
  by_cases h : ((merged before).sum + s).InRange
  · rw [if_pos h, fates_append, List.mapIdx_cons, List.take_zero, List.append_nil, sum_ofReplies,
      Reply.fate, if_pos h]
    exact ⟨_, rfl⟩
  · rw [if_neg h]
    have hfate : (Reply.value node s).fate (ofReplies before).sum = .skipped := by
      rw [sum_ofReplies, Reply.fate, if_neg h]
    have hnone : ((Reply.value node s).fate (ofReplies before).sum).merged? = none := by
      rw [hfate]
      rfl
    obtain ⟨later, hwith, hwithout⟩ := fates_insert hnone after
    rw [hfate] at hwith
    refine ⟨⟨later, hwith, hwithout⟩, ?_⟩
    have hcount : (before ++ .value node s :: after).countP Reply.isUnreachable =
        (before ++ after).countP Reply.isUnreachable := by
      rw [List.countP_append, List.countP_append]
      rfl
    rw [ofReplies_eq, ofReplies_eq, merged_insert hnone, hcount]

theorem accounted (replies : List Reply) : Accounted replies where
  length_eq := by
    obtain ⟨hvalues, habsent, hunreachable⟩ := count_fates replies
    rw [hvalues, habsent, hunreachable, countP_kinds]
  kinds := count_fates replies
  fold_eq := by rw [← collectAll_eq_foldl, ← ofReplies_eq, ofReplies]
  inRange := inRange_sum_merged replies
  value := by
    rintro before node s after rfl
    exact accounted_value after
  result_eq := result_ofReplies replies
  absent_neutral := by
    intro more h
    have hunreachable : more.countP Reply.isUnreachable = replies.countP Reply.isUnreachable := by
      rw [List.countP_eq_length_filter, List.countP_eq_length_filter,
        filter_eq_of_kind (fun _ ha => (not_value_of_absent ha).2) h]
    rw [result_ofReplies, result_ofReplies, hunreachable,
      merged_eq_of_kind (fun _ ha => (not_value_of_absent ha).1) h]
    by_cases hzero : ((merged replies).map (·.count)).sum = 0
    · rw [if_pos hzero, if_pos hzero]
    · rw [if_neg hzero, if_neg hzero]
  unreachable_neutral := by
    intro more h
    rw [result_ofReplies, result_ofReplies,
      merged_eq_of_kind (fun _ hu => not_value_of_unreachable hu) h]
    by_cases hzero : ((merged replies).map (·.count)).sum = 0
    · rw [if_pos hzero, if_pos hzero]
    · rw [if_neg hzero, if_neg hzero]

end Reduction

/-- A reduction is the fold of all replies it is given, each of which is accounted for. It counts one
    fan-out and those who did not answer, and nothing else. -/
theorem ReduceCounters.reduce_accounted (rc : ReduceCounters) (replies : List Reply) :
    Reduction.Accounted replies ∧
      rc.reduce replies =
        ((replies.foldl (fun r reply => (r.collect reply).2) Reduction.empty).result,
          { rc with
            fanOuts := rc.fanOuts.bump 1
            unreachable := rc.unreachable.bump (replies.countP Reply.isUnreachable) }) := by
  refine ⟨Reduction.accounted replies, ?_⟩
  have hunreachable : (Reduction.ofReplies replies).unreachable =
      replies.countP Reply.isUnreachable := by rw [Reduction.ofReplies_eq]
  rw [← Reduction.collectAll_eq_foldl, ← hunreachable]
  rfl

/-- The second value does not fit. Without it the last one would be merged all the same. -/
example : Reduction.fates [.value 0 ⟨greatest, 1⟩, .value 1 ⟨1, 1⟩, .absent 2,
    .unreachable 3 "partitioned", .value 4 ⟨-1, -2⟩] =
    [.merged ⟨greatest, 1⟩, .skipped, .absent, .unreachable, .merged ⟨-1, -2⟩] := by decide

end WindowedMean
