/-! Numbers below a bound, drawn from a stream of words of 64 bits.

    A word is taken as a fraction of one and multiplied by the bound; the whole part is the number.
    Where the rest of the product is so large that one more word behind the point could carry into
    the whole part, that word is drawn too, and the carry counts:

        word · bound                 number , rest
        next word · bound / 2 ^ 64           + more

    Main statement: the number is below the bound. -/

namespace WindowedMean.Random

/-- The number of different words. -/
def wordCount : Nat := 0x10000000000000000

/-- A number below the bound, drawn at a position of the stream, and the position behind what was
    drawn. -/
def below (stream : Nat → UInt64) (bound position : Nat) : Nat × Nat :=
  let product := (stream position).toNat * bound
  let number := product / wordCount
  let rest := product % wordCount
  if rest ≤ wordCount - bound then (number, position + 1)
  else
    let more := (stream (position + 1)).toNat * bound / wordCount
    (if wordCount ≤ rest + more then number + 1 else number, position + 2)

theorem below_lt (stream : Nat → UInt64) {bound : Nat} (h : 0 < bound) (position : Nat) :
    (below stream bound position).1 < bound := by
  have hx : (stream position).toNat < wordCount := (stream position).toNat_lt
  have hy : (stream (position + 1)).toNat < wordCount := (stream (position + 1)).toNat_lt
  have hfirst : (stream position).toNat * bound / wordCount < bound := by
    rw [Nat.div_lt_iff_lt_mul (by decide), Nat.mul_comm bound]
    exact Nat.mul_lt_mul_of_pos_right hx h
  have hmore : (stream (position + 1)).toNat * bound / wordCount < bound := by
    rw [Nat.div_lt_iff_lt_mul (by decide), Nat.mul_comm bound]
    exact Nat.mul_lt_mul_of_pos_right hy h
  have hsplit := Nat.div_add_mod ((stream position).toNat * bound) wordCount
  have hle : (stream position).toNat * bound ≤ (wordCount - 1) * bound :=
    Nat.mul_le_mul_right bound (by omega)
  have hmul : (wordCount - 1) * bound = wordCount * bound - bound := by
    rw [Nat.sub_mul, Nat.one_mul]
  simp only [below]
  split
  · exact hfirst
  · split
    · next hcarry =>
      refine Nat.lt_of_not_le fun hge => ?_
      have heq : (stream position).toNat * bound / wordCount = bound - 1 := by omega
      rw [heq, Nat.mul_sub, Nat.mul_one] at hsplit
      have : wordCount ≤ wordCount * bound := Nat.le_mul_of_pos_right _ h
      have : bound ≤ wordCount * bound := Nat.le_mul_of_pos_left _ (by decide)
      omega
    · exact hfirst

end WindowedMean.Random
