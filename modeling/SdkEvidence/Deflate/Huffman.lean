/-!
# The code of compressed blocks

The symbols that a block is made of, and the prefix codes that they are written in.
-/
namespace SdkEvidence.Deflate

/-! ## The symbols of compressed blocks

A symbol below 256 is a literal byte, 256 ends the block, and higher ones announce the length of
a copy. Lengths and distances are a base and a number of further bits.
-/

/-- The symbol that ends a block. -/
def endOfBlock : Nat := 256

/-- Base length and number of further bits of the symbols from 257 on. -/
def lengthCodes : List (Nat × Nat) := [
  (3, 0), (4, 0), (5, 0), (6, 0), (7, 0), (8, 0), (9, 0), (10, 0), (11, 1), (13, 1), (15, 1),
  (17, 1), (19, 2), (23, 2), (27, 2), (31, 2), (35, 3), (43, 3), (51, 3), (59, 3), (67, 4),
  (83, 4), (99, 4), (115, 4), (131, 5), (163, 5), (195, 5), (227, 5), (258, 0)]

/-- Base distance and number of further bits of the distance symbols. -/
def distanceCodes : List (Nat × Nat) := [
  (1, 0), (2, 0), (3, 0), (4, 0), (5, 1), (7, 1), (9, 2), (13, 2), (17, 3), (25, 3), (33, 4),
  (49, 4), (65, 5), (97, 5), (129, 6), (193, 6), (257, 7), (385, 7), (513, 8), (769, 8),
  (1025, 9), (1537, 9), (2049, 10), (3073, 10), (4097, 11), (6145, 11), (8193, 12), (12289, 12),
  (16385, 13), (24577, 13)]

/-- The order in which a block states the lengths of the code-length code. -/
def codeLengthOrder : List Nat :=
  [16, 17, 18, 0, 8, 7, 9, 6, 10, 5, 11, 4, 12, 3, 13, 2, 14, 1, 15]

/-- Word lengths of the fixed code for literals and lengths. -/
def fixedLiteralLengths : List Nat :=
  List.replicate 144 8 ++ List.replicate 112 9 ++ List.replicate 24 7 ++ List.replicate 8 8

/-- Word lengths of the fixed code for distances. -/
def fixedDistanceLengths : List Nat :=
  List.replicate 32 5

/-! ## Prefix codes

A prefix code is a binary tree with symbols at its leaves. A code is given by the length of each
symbol's word; the words themselves are assigned in order of length, then of symbol.
-/

/-- The words of a prefix code as paths from the root. -/
inductive CodeTree where
  | empty
  | leaf (symbol : Nat)
  | fork (zero one : CodeTree)
  deriving DecidableEq, Repr

/-- The tree with one more word, unless it is the start of another or another is its start. -/
def CodeTree.insert (symbol : Nat) : List Bool → CodeTree → Option CodeTree
  | [], .empty => some (.leaf symbol)
  | b :: word, .empty => do
      let below ← CodeTree.insert symbol word .empty
      some (if b then .fork .empty below else .fork below .empty)
  | false :: word, .fork zero one => do
      let below ← zero.insert symbol word
      some (.fork below one)
  | true :: word, .fork zero one => do
      let below ← one.insert symbol word
      some (.fork zero below)
  | _, _ => none

/-- The symbol whose word the bits start with, and the bits after it. -/
def CodeTree.decode : CodeTree → List Bool → Option (Nat × List Bool)
  | .empty, _ => none
  | .leaf symbol, bits => some (symbol, bits)
  | .fork _ _, [] => none
  | .fork zero one, b :: bits => if b then one.decode bits else zero.decode bits

/-- A code word: `width` bits of a number, most significant first. -/
def codeWord (width n : Nat) : List Bool :=
  (List.range width).reverse.map fun i => n / Nat.pow 2 i % 2 == 1

/-- The symbols in use with their lengths, in order of length, then of symbol. -/
def byLength (lengths : List Nat) : List (Nat × Nat) :=
  (List.range 15).flatMap fun i =>
    (lengths.zipIdx.filter fun (length, _) => length == i + 1)

/-- Assigns words to symbols in order. `next` is the number of the next word of `width` bits. -/
def assignWords (next width : Nat) : List (Nat × Nat) → List (Nat × List Bool)
  | [] => []
  | (length, symbol) :: rest =>
      let number := next * Nat.pow 2 (length - width)
      (symbol, codeWord length number) :: assignWords (number + 1) length rest

/-- The word of each symbol in use, for the given lengths. -/
def wordsOfLengths (lengths : List Nat) : List (Nat × List Bool) :=
  assignWords 0 0 (byLength lengths)

/-- How much of the space of fifteen-bit words the lengths take up. -/
def spaceTaken (lengths : List Nat) : Nat :=
  (lengths.filter (0 < ·)).foldl (fun sum length => sum + Nat.pow 2 (15 - length)) 0

/-- The code for the given lengths. The words fill the whole space, unless at most one symbol
is in use. -/
def CodeTree.ofLengths? (lengths : List Nat) : Option CodeTree :=
  if spaceTaken lengths = Nat.pow 2 15 ∨ (lengths.filter (0 < ·)).length ≤ 1 then
    (wordsOfLengths lengths).foldlM (fun tree (symbol, word) => tree.insert symbol word) .empty
  else none

end SdkEvidence.Deflate
