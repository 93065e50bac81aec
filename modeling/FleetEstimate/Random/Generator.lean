/-!
# The random stream

A generator is a key, the number of the next block and the words of the current
block that are still unread. Each block of sixteen words is the key and the
block's number, scrambled by twelve rounds of additions, exclusive ors and
rotations, so that the stream is a function of the key alone.
-/

namespace FleetEstimate.Random

/-- The words of a block. -/
abbrev Block := Vector UInt32 16

def rotateLeft (w n : UInt32) : UInt32 := (w <<< n) ||| (w >>> (32 - n))

def rotateRight (w n : UInt32) : UInt32 := (w >>> n) ||| (w <<< (32 - n))

/-- Scrambles four words of a block. -/
def quarterRound (s : Block) (a b c d : Fin 16) : Block :=
  let wa := s[a] + s[b]
  let wd := rotateLeft (s[d] ^^^ wa) 16
  let wc := s[c] + wd
  let wb := rotateLeft (s[b] ^^^ wc) 12
  let wa := wa + wb
  let wd := rotateLeft (wd ^^^ wa) 8
  let wc := wc + wd
  let wb := rotateLeft (wb ^^^ wc) 7
  (((s.set a wa).set b wb).set c wc).set d wd

/-- One round over the columns and one over the diagonals. -/
def doubleRound (s : Block) : Block :=
  let s := quarterRound s 0 4 8 12
  let s := quarterRound s 1 5 9 13
  let s := quarterRound s 2 6 10 14
  let s := quarterRound s 3 7 11 15
  let s := quarterRound s 0 5 10 15
  let s := quarterRound s 1 6 11 12
  let s := quarterRound s 2 7 8 13
  quarterRound s 3 4 9 14

/-- The block with the given number under a key. -/
def block (key : Vector UInt32 8) (number : UInt64) : Block :=
  let start : Block := #v[
    0x61707865, 0x3320646e, 0x79622d32, 0x6b206574,
    key[0], key[1], key[2], key[3], key[4], key[5], key[6], key[7],
    number.toUInt32, (number >>> 32).toUInt32, 0, 0]
  (Nat.repeat doubleRound 6 start).zipWith (· + ·) start

/-- A random stream, read up to some point. -/
structure Generator where
  key : Vector UInt32 8
  next : UInt64
  unread : List UInt32
deriving DecidableEq

namespace Generator

/-- The generator at the start of the stream of a key. -/
def ofKey (key : Vector UInt32 8) : Generator := ⟨key, 0, []⟩

/-- One word of the expansion of a seed, and the state for the next. -/
def expansionStep (state : UInt64) : UInt32 × UInt64 :=
  let state := state * 6364136223846793005 + 11634580027462260723
  let mixed := (((state >>> 18) ^^^ state) >>> 27).toUInt32
  let turn := (state >>> 59).toUInt32
  (rotateRight mixed turn, state)

/-- The key that a seed expands to. -/
def keyOfSeed (seed : UInt64) : Vector UInt32 8 :=
  let (w₀, s) := expansionStep seed
  let (w₁, s) := expansionStep s
  let (w₂, s) := expansionStep s
  let (w₃, s) := expansionStep s
  let (w₄, s) := expansionStep s
  let (w₅, s) := expansionStep s
  let (w₆, s) := expansionStep s
  let (w₇, _) := expansionStep s
  #v[w₀, w₁, w₂, w₃, w₄, w₅, w₆, w₇]

/-- The generator at the start of the stream of a seed. -/
def ofSeed (seed : UInt64) : Generator := ofKey (keyOfSeed seed)

/-- The next word. -/
def word (g : Generator) : UInt32 × Generator :=
  match g.unread with
  | w :: ws => (w, { g with unread := ws })
  | [] =>
    let b := block g.key g.next
    (b[0], { g with next := g.next + 1, unread := b.toList.tail })

/-- The next two words as one number, the first word the lower half. -/
def doubleWord (g : Generator) : UInt64 × Generator :=
  let (low, g) := g.word
  let (high, g) := g.word
  (high.toUInt64 <<< 32 ||| low.toUInt64, g)

/-- A fair coin: the highest bit of a word. -/
def coin (g : Generator) : Bool × Generator :=
  let (w, g) := g.word
  (w >>> 31 == 1, g)

/-- A number from zero to below one, in steps of `2 ^ (-53)`. -/
def unit (g : Generator) : Float × Generator :=
  let (w, g) := g.doubleWord
  ((w >>> 11).toFloat * (1.0 / 9007199254740992.0), g)

/-- The float with the given upper bits of a number as its fraction and one of the
exponents 0 and 1. -/
def fractionFloat (w : UInt64) (exponent : UInt64) : Float :=
  Float.ofBits (w >>> 12 ||| ((exponent + 1023) <<< 52))

/-- A number strictly between zero and one. -/
def openUnit (g : Generator) : Float × Generator :=
  let (w, g) := g.doubleWord
  (fractionFloat w 0 - (1.0 - 2.220446049250313e-16 / 2.0), g)

end Generator

end FleetEstimate.Random
