/-! A *keystream*: a stream of words that looks random and is fixed by a key.

    The key has eight words of 32 bits. The stream comes in blocks of sixteen such words, each mixed
    from a square of four constants, the key and the number of the block:

        c c c c
        k k k k        12 rounds, by columns and by diagonals in turn,
        k k k k        and then the square is added to what it became
        n n 0 0

    A word of the stream has 64 bits: two neighbours of a block, the lower half first. -/

namespace WindowedMean.Random

/-- A row of a square. -/
structure Row where
  a : UInt32
  b : UInt32
  c : UInt32
  d : UInt32
  deriving DecidableEq, Repr

namespace Row

/-- Two rows, word by word. -/
def zip (f : UInt32 → UInt32 → UInt32) (r s : Row) : Row := ⟨f r.a s.a, f r.b s.b, f r.c s.c, f r.d s.d⟩

/-- The row moved to the left by one place, around its end. -/
def turn (r : Row) : Row := ⟨r.b, r.c, r.d, r.a⟩

/-- The words of a row. -/
def words (r : Row) : List UInt32 := [r.a, r.b, r.c, r.d]

end Row

/-- The bits of a word moved to the left, around its end. -/
def rotateLeft (k : UInt32) (x : UInt32) : UInt32 := (x <<< k) ||| (x >>> (32 - k))

/-- The sum of two rows. -/
def plus : Row → Row → Row := Row.zip (· + ·)

/-- The first row with the bits of the second one flipped in it, then moved. -/
def flip (k : UInt32) : Row → Row → Row := Row.zip fun x y => rotateLeft k (x ^^^ y)

/-- Four rows. -/
structure Square where
  r₀ : Row
  r₁ : Row
  r₂ : Row
  r₃ : Row
  deriving DecidableEq, Repr

namespace Square

/-- Half a round by columns: every row changes once, each with the help of its neighbours. -/
def halfRound (j k : UInt32) (s : Square) : Square :=
  let r₀ := plus s.r₀ s.r₁
  let r₃ := flip j s.r₃ r₀
  let r₂ := plus s.r₂ r₃
  let r₁ := flip k s.r₁ r₂
  ⟨r₀, r₁, r₂, r₃⟩

/-- A round by columns. -/
def columns (s : Square) : Square := (s.halfRound 16 12).halfRound 8 7

/-- The square with its diagonals upright. -/
def skew (s : Square) : Square := ⟨s.r₀, s.r₁.turn, s.r₂.turn.turn, s.r₃.turn.turn.turn⟩

/-- The square with its upright diagonals put back. -/
def unskew (s : Square) : Square := ⟨s.r₀, s.r₁.turn.turn.turn, s.r₂.turn.turn, s.r₃.turn⟩

/-- A round by columns and one by diagonals. -/
def doubleRound (s : Square) : Square := s.columns.skew.columns.unskew

/-- A number of double rounds. -/
def mix : Nat → Square → Square
  | 0, s => s
  | n + 1, s => mix n s.doubleRound

/-- The sum of two squares. -/
def add (s t : Square) : Square := ⟨plus s.r₀ t.r₀, plus s.r₁ t.r₁, plus s.r₂ t.r₂, plus s.r₃ t.r₃⟩

/-- The words of a square, row by row. -/
def words (s : Square) : List UInt32 := s.r₀.words ++ s.r₁.words ++ s.r₂.words ++ s.r₃.words

end Square

/-- Two rows of words. -/
structure Key where
  upper : Row
  lower : Row
  deriving DecidableEq, Repr

namespace Key

/-- The square that a block is mixed from. -/
def square (k : Key) (block : Nat) : Square where
  r₀ := ⟨0x61707865, 0x3320646e, 0x79622d32, 0x6b206574⟩
  r₁ := k.upper
  r₂ := k.lower
  r₃ := ⟨block.toUInt32, (block / 0x100000000).toUInt32, 0, 0⟩

/-- The words of a block. -/
def block (k : Key) (n : Nat) : List UInt32 := ((k.square n).add (.mix 6 (k.square n))).words

/-- The word of the stream at a position. -/
def word (k : Key) (position : Nat) : UInt64 :=
  let ws := k.block (position / 8)
  let j := position % 8 * 2
  (ws.getD j 0).toUInt64 ||| ((ws.getD (j + 1) 0).toUInt64 <<< 32)

end Key

end WindowedMean.Random
