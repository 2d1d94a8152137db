import AlgorithmPortfolio.Bits

/-!
# Seeded random numbers

A stream of 64-bit words (xoshiro256++) whose start state is stretched from one seed word by a
linear congruential step with a permuted output, and even choices among the first numbers.

- `Generator`: the state of the stream.
- `Generator.ofSeed`, `Generator.nextWord`: its start and its next word.
- `Generator.below`: an even choice below a bound; words that would make it uneven are passed
  over.
- `Generator.below_lt`: a choice below a positive bound is below it.
- `RandomStream`: what a user of random numbers relies on.
-/

namespace AlgorithmPortfolio

/-- The state of a stream of random words. -/
structure Generator where
  s0 : UInt64
  s1 : UInt64
  s2 : UInt64
  s3 : UInt64
  deriving DecidableEq, Repr, Inhabited

namespace Generator

/-! ## Seeding -/

/-- One step of the seeding sequence. -/
def seedStep (state : UInt64) : UInt64 := state * 6364136223846793005 + 11634580027462260723

/-- The 32 bits that the seeding sequence gives at a state. -/
def seedBits (state : UInt64) : UInt64 :=
  -- the high bits are folded onto the low ones, and the top five bits say how far to turn the
  -- result
  let folded := ((((state >>> 18) ^^^ state) >>> 27) &&& 0xffffffff).toUInt32
  let turn := (state >>> 59).toUInt32
  ((folded >>> turn) ||| (folded <<< ((32 - turn) &&& 31))).toUInt64

/-- The word made of the next two outputs of the seeding sequence, low half first, and the state
after them. -/
def seedWord (state : UInt64) : UInt64 × UInt64 :=
  let first := seedStep state
  let second := seedStep first
  (seedBits first ||| (seedBits second <<< 32), second)

/-- The stream of a seed. -/
def ofSeed (seed : UInt64) : Generator :=
  let w0 := seedWord seed
  let w1 := seedWord w0.2
  let w2 := seedWord w1.2
  let w3 := seedWord w2.2
  ⟨w0.1, w1.1, w2.1, w3.1⟩

/-! ## Words -/

/-- The bits of a word, turned to the left. -/
def rotate (word amount : UInt64) : UInt64 := (word <<< amount) ||| (word >>> (64 - amount))

/-- The next word and the state after it. -/
def nextWord (g : Generator) : UInt64 × Generator :=
  let word := rotate (g.s0 + g.s3) 23 + g.s0
  let shifted := g.s1 <<< 17
  let s2 := g.s2 ^^^ g.s0
  let s3 := g.s3 ^^^ g.s1
  let s1 := g.s1 ^^^ s2
  let s0 := g.s0 ^^^ s3
  (word, ⟨s0, s1, s2 ^^^ shifted, rotate s3 45⟩)

/-! ## Choices -/

/-- The greatest low half that a word times `bound` may have: as many low halves are allowed for
every choice. -/
def fairLimit (bound : Nat) : Nat := bound <<< (63 - Nat.log2 bound) - 1

/-- The number of words. -/
def wordCount : Nat := maxOfBits 64 + 1

/-- How many words a choice passes over at most; each is passed over with a chance below one
half. -/
def retries : Nat := 1024

/-- The high half of the first word times `bound` whose low half is at most `limit`; of the last
of `tries` words the high half is taken anyway. -/
def choose (bound limit : Nat) : Nat → Generator → Nat × Generator
  | 0, g =>
    let (word, g) := g.nextWord
    (word.toNat * bound / wordCount, g)
  | tries + 1, g =>
    let (word, g) := g.nextWord
    let product := word.toNat * bound
    -- beyond the limit some choices would have one more word than others
    if product % wordCount ≤ limit then (product / wordCount, g) else choose bound limit tries g

/-- An even choice among the numbers below `bound`. -/
def below (bound : Nat) (g : Generator) : Nat × Generator :=
  choose bound (fairLimit bound) retries g

theorem mul_div_lt {bound : Nat} (h : 0 < bound) (word : UInt64) :
    word.toNat * bound / wordCount < bound := by
  rw [Nat.div_lt_iff_lt_mul (by decide)]
  rw [Nat.mul_comm bound]
  exact Nat.mul_lt_mul_of_lt_of_le (UInt64.toNat_lt word) (Nat.le_refl _) h

theorem choose_lt {bound : Nat} (h : 0 < bound) (limit tries : Nat) (g : Generator) :
    (choose bound limit tries g).1 < bound := by
  induction tries generalizing g with
  | zero => exact mul_div_lt h _
  | succ tries ih =>
    simp only [choose]
    split
    · exact mul_div_lt h _
    · exact ih _

theorem below_lt {bound : Nat} (h : 0 < bound) (g : Generator) : (below bound g).1 < bound :=
  choose_lt h _ _ g

end Generator

/-- A stream of random numbers with states `γ`. -/
class RandomStream (γ : Type) where
  /-- A number below a bound, and the stream after it. -/
  below : Nat → γ → Nat × γ
  below_lt : ∀ {bound : Nat}, 0 < bound → ∀ stream, (below bound stream).1 < bound

instance : RandomStream Generator := ⟨Generator.below, Generator.below_lt⟩

end AlgorithmPortfolio
