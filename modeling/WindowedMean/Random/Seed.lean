import WindowedMean.Random.Keystream

/-! A key from a *seed* of 64 bits.

    A linear recurrence steps the seed on, and each state gives one word of the key: its upper bits,
    folded and then moved around by as many places as its topmost five bits say. -/

namespace WindowedMean.Random

/-- The next state of a seed. -/
def nextState (state : UInt64) : UInt64 := state * 6364136223846793005 + 11634580027462260723

/-- The word that a state gives. -/
def stateWord (state : UInt64) : UInt32 :=
  let folded := (((state >>> 18) ^^^ state) >>> 27).toUInt32
  let k := (state >>> 59).toUInt32
  (folded >>> k) ||| (folded <<< ((32 - k) % 32))

/-- The row of the next four states, and the last of them. -/
def seedRow (state : UInt64) : Row × UInt64 :=
  let s₁ := nextState state
  let s₂ := nextState s₁
  let s₃ := nextState s₂
  let s₄ := nextState s₃
  (⟨stateWord s₁, stateWord s₂, stateWord s₃, stateWord s₄⟩, s₄)

/-- The key of a seed. -/
def Key.ofSeed (seed : UInt64) : Key :=
  let (upper, state) := seedRow seed
  ⟨upper, (seedRow state).1⟩

/-- The stream of words of a seed. -/
def stream (seed : Nat) : Nat → UInt64 := (Key.ofSeed seed.toUInt64).word

end WindowedMean.Random
