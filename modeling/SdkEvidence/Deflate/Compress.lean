import Std.Data.HashMap
import SdkEvidence.Bytes.Access
import SdkEvidence.Bytes.Bits
import SdkEvidence.Deflate.Huffman

/-!
# Compression

The data are cut into literal bytes and copies of what came before, which are written in one block
with the fixed codes. Where to look for a copy is a guess that every use checks against the data.
-/
namespace SdkEvidence.Deflate

/-- A piece of the data: a byte, or `length` bytes that repeat what stands `distance` before. -/
inductive Piece where
  | literal (b : UInt8)
  | copy (length distance : Nat)
  deriving DecidableEq, Repr

/-- How many bytes from `here` on repeat those from `there` on, up to `bound`. -/
def agreement (data : ByteArray) (here there : Nat) : Nat → Nat
  | 0 => 0
  | bound + 1 =>
      if here < data.size ∧ byteAt data here = byteAt data there then
        agreement data (here + 1) (there + 1) bound + 1
      else 0

/-- The longest copy and the farthest distance that can be written. -/
def longestCopy : Nat := 258
def farthestCopy : Nat := 32768

/-- A key for the three bytes at a position. -/
def keyAt (data : ByteArray) (position : Nat) : UInt32 :=
  let byte (i : Nat) := ((byteAt data (position + i)).toUInt32)
  byte 0 ||| (byte 1 <<< 8) ||| (byte 2 <<< 16)

/-- The piece that stands at `here`, given a guess at an earlier occurrence. -/
def pieceAt (data : ByteArray) (here : Nat) (guess : Option Nat) : Piece :=
  let literal := Piece.literal (byteAt data here)
  match guess with
  | none => literal
  | some there =>
      let length := agreement data here there longestCopy
      if there < here ∧ here - there ≤ farthestCopy ∧ 3 ≤ length then .copy length (here - there)
      else literal

/-- How many bytes a piece stands for. -/
def Piece.size : Piece → Nat
  | .literal _ => 1
  | .copy length _ => length

/-- Cuts the data from `here` on into pieces, onto those cut before, which stand backwards.
`seen` holds the last position of each key. Every piece takes at least one byte. -/
def cutOnto (data : ByteArray) :
    Nat → Nat → Std.HashMap UInt32 Nat → List Piece → List Piece
  | 0, _, _, done => done.reverse
  | fuel + 1, here, seen, done =>
      if data.size ≤ here then done.reverse
      else
        let key := keyAt data here
        let piece := pieceAt data here seen[key]?
        cutOnto data fuel (here + piece.size) (seen.insert key here) (piece :: done)

/-- The pieces of the data. -/
def pieces (data : ByteArray) : List Piece :=
  cutOnto data (data.size + 1) 0 ∅ []

/-- The symbol, number of further bits and their value for a length or a distance. -/
def extended (codes : List (Nat × Nat)) (n : Nat) : Nat × Nat × Nat :=
  let symbol := (codes.takeWhile fun (base, _) => base ≤ n).length - 1
  let (base, width) := codes.getD symbol (0, 0)
  (symbol, width, n - base)

/-- The words of the fixed codes, by symbol. -/
def fixedLiteralWords : Array (List Bool) :=
  ((wordsOfLengths fixedLiteralLengths).mergeSort fun a b => a.1 ≤ b.1).map Prod.snd |>.toArray

/-- The bits of a piece. -/
def Piece.bits (words : Array (List Bool)) : Piece → List Bool
  | .literal b => words.getD b.toNat []
  | .copy length distance =>
      let (symbol, width, extra) := extended lengthCodes length
      let (far, farWidth, farExtra) := extended distanceCodes distance
      words.getD (257 + symbol) [] ++ Bits.ofNumber width extra
        ++ codeWord 5 far ++ Bits.ofNumber farWidth farExtra

/-- The compressed stream of the data: one last block with the fixed codes. -/
def compress (data : ByteArray) : ByteArray :=
  let words := fixedLiteralWords
  Bits.toBytes ([true, true, false]
    ++ (pieces data).flatMap (Piece.bits words) ++ words.getD endOfBlock [])

end SdkEvidence.Deflate
