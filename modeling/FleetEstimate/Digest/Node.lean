import FleetEstimate.Text.Bytes

/-!
# The nodes of a hash tree

A leaf of the tree is a chunk of up to 1024 bytes, worked into eight words block
by block; an inner node is the words of two nodes as one block. `Node` holds what
the last compression of a node takes, because the root is compressed with another
flag than all other nodes.
-/

namespace FleetEstimate.Digest

/-- Eight words that stand for all bytes below a node. -/
abbrev Chain := Vector UInt32 8

/-- The words that one compression takes in or gives out. -/
abbrev Words := Vector UInt32 16

/-- The chain that every chunk and inner node starts from. -/
def startChain : Chain := #v[
  0x6a09e667, 0xbb67ae85, 0x3c6ef372, 0xa54ff53a,
  0x510e527f, 0x9b05688c, 0x1f83d9ab, 0x5be0cd19]

def chunkStart : UInt32 := 1
def chunkEnd : UInt32 := 2
def innerNode : UInt32 := 4
def rootNode : UInt32 := 8

def rotateRight (w n : UInt32) : UInt32 := (w >>> n) ||| (w <<< (32 - n))

/-- A word by its place. -/
def word (s : Words) (place : Nat) : UInt32 := s.getD place 0

/-- Mixes two message words into four words of the state. -/
def mix (s : Words) (a b c d : Nat) (x y : UInt32) : Words :=
  let wa := word s a + word s b + x
  let wd := rotateRight (word s d ^^^ wa) 16
  let wc := word s c + wd
  let wb := rotateRight (word s b ^^^ wc) 12
  let wa := wa + wb + y
  let wd := rotateRight (wd ^^^ wa) 8
  let wc := wc + wd
  let wb := rotateRight (wb ^^^ wc) 7
  (((s.setIfInBounds a wa).setIfInBounds b wb).setIfInBounds c wc).setIfInBounds d wd

/-- Mixes all message words into the columns, then into the diagonals. -/
def mixRound (s m : Words) : Words :=
  let s := mix s 0 4 8 12 (word m 0) (word m 1)
  let s := mix s 1 5 9 13 (word m 2) (word m 3)
  let s := mix s 2 6 10 14 (word m 4) (word m 5)
  let s := mix s 3 7 11 15 (word m 6) (word m 7)
  let s := mix s 0 5 10 15 (word m 8) (word m 9)
  let s := mix s 1 6 11 12 (word m 10) (word m 11)
  let s := mix s 2 7 8 13 (word m 12) (word m 13)
  mix s 3 4 9 14 (word m 14) (word m 15)

/-- The order of the message words in the next round. -/
def permuted (m : Words) : Words := #v[
  word m 2, word m 6, word m 3, word m 10, word m 7, word m 0, word m 4, word m 13,
  word m 1, word m 11, word m 12, word m 5, word m 9, word m 14, word m 15, word m 8]

/-- So many rounds, each with its own order of the message words. -/
def mixRounds : (rounds : Nat) → (state message : Words) → Words
  | 0, s, _ => s
  | rounds + 1, s, m => mixRounds rounds (mixRound s m) (permuted m)

/-- What the last compression of a node takes. -/
structure Node where
  chain : Chain
  message : Words
  /-- The number of the chunk, zero for an inner node. -/
  counter : UInt64
  /-- The number of bytes in the message. -/
  length : UInt32
  flags : UInt32
deriving DecidableEq

/-- The state of a node after seven rounds. -/
def Node.mixed (n : Node) : Words :=
  let tail : Vector UInt32 4 :=
    #v[n.counter.toUInt32, (n.counter >>> 32).toUInt32, n.length, n.flags]
  mixRounds 7 (n.chain ++ startChain.take 4 ++ tail) n.message

/-- The chain that stands for all bytes below a node. -/
def Node.result (n : Node) : Chain :=
  let s := n.mixed
  Vector.ofFn fun i : Fin 8 => s[i.val] ^^^ s[i.val + 8]

/-- The words of a block, with zeros for the bytes that it lacks. -/
def wordsOf (bs : Bytes) : Words :=
  Vector.ofFn fun i : Fin 16 => UInt32.ofNat (Bytes.ofLittleEndian ((bs.drop (4 * i.val)).take 4))

/-- Works the blocks of a chunk into a chain. -/
def chunkNode (counter : UInt64) : (chain : Chain) → (flags : UInt32) → List Bytes → Node
  | chain, flags, [] => ⟨chain, wordsOf [], counter, 0, flags ||| chunkEnd⟩
  | chain, flags, [b] => ⟨chain, wordsOf b, counter, b.length.toUInt32, flags ||| chunkEnd⟩
  | chain, flags, b :: bs =>
    chunkNode counter (Node.result ⟨chain, wordsOf b, counter, b.length.toUInt32, flags⟩) 0 bs

/-- The leaf of a chunk. -/
def leaf (counter : Nat) (chunk : Bytes) : Node :=
  chunkNode (UInt64.ofNat counter) startChain chunkStart (chunk.pieces 64)

/-- The node above two nodes. -/
def parent (left right : Node) : Node :=
  ⟨startChain, left.result ++ right.result, 0, 64, innerNode⟩

/-- The next level of the tree: neighbours in pairs, a last one without a neighbour as
it is. -/
def level : List Node → List Node
  | left :: right :: nodes => parent left right :: level nodes
  | nodes => nodes

/-- The root above a level, after at most so many levels. -/
def rootOf : (levels : Nat) → List Node → Option Node
  | _, [] => none
  | _, [n] => some n
  | 0, _ => none
  | levels + 1, nodes => rootOf levels (level nodes)

/-- The leaves of the tree over some bytes; there is at least one. -/
def leaves (bs : Bytes) : List Node :=
  match bs.pieces 1024 with
  | [] => [leaf 0 []]
  | chunks => chunks.mapIdx leaf

end FleetEstimate.Digest
