import WindowedMean.Proofs.Weights

/-! The net change of a batch, worked out in words.

    Over the exact integers a net change is a difference of two sums. In words there is an end to the
    room, and what goes over it comes back from the other side. On the way to a net change there are
    three places where that might happen, and no check at any of them:

        the sums, from the left       128 bits     2^60 events, each within 2^63
        the difference of the sums    128 bits     each within 2^123
        the difference of the numbers  64 bits     each between 0 and 2^60

    Lists that fit into memory stay clear of all three. So the one check there is, when the difference
    of the sums goes into a word of 64 bits, decides as it would over the exact integers. -/

namespace WindowedMean

/-- There is room for the integer in a word of a number of bits, one of them for the sign. -/
def FitsWord (bits : Nat) (n : Int) : Prop := -2 ^ bits ≤ 2 * n ∧ 2 * n < 2 ^ bits

/-- What a word keeps of an integer. -/
def word (bits : Nat) (n : Int) : Int := (BitVec.ofInt bits n).toInt

/-- The sum of a list from the left, in words of 128 bits. -/
def wideSum (vs : List Int) : Int := vs.foldl (fun s v => word 128 (s + v)) 0

/-- The net change of a batch as words have it. -/
def wordChange (added evicted : List Int) : Option Snapshot :=
  match narrow (word 128 (wideSum added - wideSum evicted)), narrow added.length,
    narrow evicted.length with
  | some total, some entered, some left => some ⟨total, word 64 (entered - left)⟩
  | _, _, _ => none

/-- The number of integers of 64 bits that fit into half of the address space. -/
def listLimit : Nat := 2 ^ 60

theorem word_of_fitsWord {bits : Nat} {n : Int} (h : FitsWord bits n) : word bits n = n := by
  rw [word, BitVec.toInt_ofInt]
  obtain ⟨hlow, hhigh⟩ := h
  refine Int.bmod_eq_of_le_mul_two ?_ ?_ <;> push_cast <;> omega

theorem natAbs_le_of_fits {n : Int} (h : Fits n) : n.natAbs ≤ 2 ^ 63 := by
  simp only [Fits, least, greatest] at h
  omega

theorem weight_le {vs : List Int} (h : ∀ v ∈ vs, Fits v) : weight vs ≤ vs.length * 2 ^ 63 := by
  induction vs with
  | nil => exact Nat.le_refl 0
  | cons v vs ih =>
    have hv := natAbs_le_of_fits (h v (List.mem_cons_self ..))
    have hvs := ih fun w hw => h w (List.mem_cons_of_mem v hw)
    rw [weight_cons, List.length_cons]
    omega

/-- The sum of a list that fits into memory leaves much of a wide word unused. -/
theorem natAbs_sum_le {vs : List Int} (h : ∀ v ∈ vs, Fits v) (hl : vs.length ≤ listLimit) :
    vs.sum.natAbs ≤ 2 ^ 123 := by
  have hsum := natAbs_sum_le_weight vs
  have hweight := weight_le h
  rw [listLimit] at hl
  omega

theorem fitsWord_sum {vs : List Int} (h : ∀ v ∈ vs, Fits v) (hl : vs.length ≤ listLimit) :
    FitsWord 128 vs.sum := by
  have hsum := natAbs_sum_le h hl
  rw [FitsWord]
  omega

/-- As long as no sum from the left leaves the word, the word has the sum. -/
theorem wideSum_eq {vs : List Int} (h : ∀ part, part <+: vs → FitsWord 128 part.sum) :
    wideSum vs = vs.sum := by
  induction vs using List.reverseRecOn with
  | nil => rfl
  | append_singleton vs v ih =>
    have hvs : wideSum vs = vs.sum := ih fun part hp => h part (hp.trans (List.prefix_append ..))
    have hall := h _ (List.prefix_refl _)
    rw [List.sum_append, List.sum_singleton] at hall ⊢
    rw [wideSum, List.foldl_concat]
    change word 128 (wideSum vs + v) = _
    rw [hvs, word_of_fitsWord hall]

theorem narrow_of_fits {n : Int} (h : Fits n) : narrow n = some n := narrow_eq_some_iff.2 ⟨h, rfl⟩

/-- The number of events in memory is an integer of 64 bits. -/
theorem fits_length {vs : List Int} (hl : vs.length ≤ listLimit) : Fits vs.length := by
  simp only [listLimit] at hl
  simp only [Fits, least, greatest]
  omega

/-- Where nothing comes back from the other side, words have the net change itself. -/
theorem wordChange_eq {added evicted : List Int} (hadded : wideSum added = added.sum)
    (hevicted : wideSum evicted = evicted.sum) (htotal : FitsWord 128 (added.sum - evicted.sum))
    (hentered : Fits added.length) (hleft : Fits evicted.length)
    (hcount : FitsWord 64 (added.length - evicted.length)) :
    wordChange added evicted =
      (narrow (added.sum - evicted.sum)).map fun total =>
        ⟨total, added.length - evicted.length⟩ := by
  rw [wordChange, hadded, hevicted, word_of_fitsWord htotal, narrow_of_fits hentered,
    narrow_of_fits hleft]
  cases narrow (added.sum - evicted.sum) with
  | none => rfl
  | some total =>
    simp only [word_of_fitsWord hcount, Option.map_some]

theorem netChange_eq_map {added evicted : List Int}
    (hcount : Fits (added.length - evicted.length)) :
    netChange added evicted =
      (narrow (added.sum - evicted.sum)).map fun total =>
        ⟨total, added.length - evicted.length⟩ := by
  have htotal : (exactChange added evicted).total = added.sum - evicted.sum := rfl
  have hnumber : (exactChange added evicted).count = added.length - evicted.length := rfl
  rw [netChange, htotal, hnumber, narrow_of_fits hcount]
  cases narrow (added.sum - evicted.sum) <;> rfl

/-- The net change of lists in memory is exact. On the way to it no sum of the first events of either
    list leaves its word, nor does the difference of the sums or that of the numbers, so words have
    the net change that the exact integers have. It is the difference of the sums with the difference
    of the numbers wherever the former fits, and nothing in all other cases. -/
theorem netChange_exact (added evicted : List Int) (hadded : ∀ v ∈ added, Fits v)
    (hevicted : ∀ v ∈ evicted, Fits v) (hentered : added.length ≤ listLimit)
    (hleft : evicted.length ≤ listLimit) :
    (∀ part, part <+: added ∨ part <+: evicted →
      FitsWord 128 part.sum ∧ wideSum part = part.sum) ∧
    FitsWord 128 (added.sum - evicted.sum) ∧
    (Fits added.length ∧ Fits evicted.length ∧ Fits (added.length - evicted.length)) ∧
    wordChange added evicted = netChange added evicted ∧
    (∀ t c, netChange added evicted = some ⟨t, c⟩ ↔
      Fits (added.sum - evicted.sum) ∧ t = added.sum - evicted.sum ∧
        c = added.length - evicted.length) ∧
    (netChange added evicted = none ↔ ¬ Fits (added.sum - evicted.sum)) := by
  have hprefix {vs : List Int} (h : ∀ v ∈ vs, Fits v) (hl : vs.length ≤ listLimit) (part : List Int)
      (hp : part <+: vs) : FitsWord 128 part.sum :=
    fitsWord_sum (fun v hv => h v (hp.subset hv)) (Nat.le_trans hp.length_le hl)
  have hparts : ∀ part, part <+: added ∨ part <+: evicted → FitsWord 128 part.sum := by
    rintro part (hp | hp)
    · exact hprefix hadded hentered part hp
    · exact hprefix hevicted hleft part hp
  have hwide : ∀ part, part <+: added ∨ part <+: evicted → wideSum part = part.sum := by
    rintro part (hp | hp)
    · exact wideSum_eq fun first hf => hparts first (.inl (hf.trans hp))
    · exact wideSum_eq fun first hf => hparts first (.inr (hf.trans hp))
  have htotal : FitsWord 128 (added.sum - evicted.sum) := by
    have h₁ := natAbs_sum_le hadded hentered
    have h₂ := natAbs_sum_le hevicted hleft
    rw [FitsWord]
    omega
  have hcount : FitsWord 64 (added.length - evicted.length) ∧
      Fits (added.length - evicted.length) := by
    simp only [listLimit] at hentered hleft
    simp only [FitsWord, Fits, least, greatest]
    omega
  have hword := wordChange_eq (hwide added (.inl (List.prefix_refl _)))
    (hwide evicted (.inr (List.prefix_refl _))) htotal (fits_length hentered) (fits_length hleft)
    hcount.1
  have hnet := netChange_eq_map hcount.2
  refine ⟨fun part hp => ⟨hparts part hp, hwide part hp⟩, htotal,
    ⟨fits_length hentered, fits_length hleft, hcount.2⟩, hword.trans hnet.symm, ?_, ?_⟩
  · intro t c
    rw [hnet]
    constructor
    · intro h
      obtain ⟨total, hn, hpair⟩ := Option.map_eq_some_iff.1 h
      obtain ⟨hfits, rfl⟩ := narrow_eq_some_iff.1 hn
      cases hpair
      exact ⟨hfits, rfl, rfl⟩
    · rintro ⟨hfits, rfl, rfl⟩
      rw [narrow_of_fits hfits]
      rfl
  · rw [hnet, Option.map_eq_none_iff, narrow]
    split <;> simp_all

/-- The sums leave 64 bits at the second event and come back at the last. Without that event the
    change is refused, and in words it is the same. -/
theorem netChange_exact_of_greatest :
    netChange [greatest, greatest, greatest, -greatest, -greatest] [least, greatest, 8] =
      some ⟨greatest - 7, 2⟩ ∧
    wordChange [greatest, greatest, greatest, -greatest] [least, greatest, 8] = none := by
  obtain ⟨-, -, -, -, hsome, -⟩ :=
    netChange_exact [greatest, greatest, greatest, -greatest, -greatest] [least, greatest, 8]
      (by decide) (by decide) (by decide) (by decide)
  obtain ⟨-, -, -, heq, -, hnone⟩ :=
    netChange_exact [greatest, greatest, greatest, -greatest] [least, greatest, 8] (by decide)
      (by decide) (by decide) (by decide)
  exact ⟨(hsome _ _).2 (by decide), heq.trans (hnone.2 (by decide))⟩

end WindowedMean
