import SdkEvidence.Bytes.Access
import SdkEvidence.Bytes.Bits
import SdkEvidence.Deflate.Huffman

/-!
# Decompression

Reads compressed blocks. A stream that ends early, uses a word outside its code, or copies from
before its start has no content.
-/
namespace SdkEvidence.Deflate

/-- Appends `length` bytes that repeat what stands `distance` before them. -/
def copyBack (distance : Nat) : Nat → ByteArray → ByteArray
  | 0, out => out
  | length + 1, out =>
      copyBack distance length (out.push (byteAt out (out.size - distance)))

/-- The number that a symbol stands for: a base and further bits. -/
def readExtended (codes : List (Nat × Nat)) (symbol : Nat) (bits : List Bool) :
    Option (Nat × List Bool) := do
  let (base, width) ← codes[symbol]?
  let (extra, rest) ← Bits.takeNumber width bits
  some (base + extra, rest)

/-- Reads symbols up to the end of the block. Each takes at least one bit, so the number of bits
is fuel enough. -/
def readSymbols (literals distances : CodeTree) :
    Nat → ByteArray → List Bool → Option (ByteArray × List Bool)
  | 0, _, _ => none
  | fuel + 1, out, bits =>
      match literals.decode bits with
      | none => none
      | some (symbol, rest) =>
          if symbol < endOfBlock then
            readSymbols literals distances fuel (out.push (UInt8.ofNat symbol)) rest
          else if symbol = endOfBlock then some (out, rest)
          else
            match readExtended lengthCodes (symbol - 257) rest with
            | none => none
            | some (length, rest) =>
                match distances.decode rest with
                | none => none
                | some (symbol, rest) =>
                    match readExtended distanceCodes symbol rest with
                    | none => none
                    | some (distance, rest) =>
                        if distance ≤ out.size then
                          readSymbols literals distances fuel (copyBack distance length out) rest
                        else none

/-- The least number of lengths that a repeating symbol stands for, and how many bits say how many
more there are. -/
def repeatRange (symbol : Nat) : Nat × Nat :=
  if symbol = 16 then (3, 2) else if symbol = 17 then (3, 3) else (11, 7)

/-- Reads `wanted` word lengths onto those read before, which stand backwards. -/
def readLengths (code : CodeTree) (wanted : Nat) :
    Nat → List Nat → List Bool → Option (List Nat × List Bool)
  | 0, _, _ => none
  | fuel + 1, done, bits =>
      if done.length = wanted then some (done.reverse, bits)
      else if wanted < done.length then none
      else
        match code.decode bits with
        | none => none
        | some (symbol, rest) =>
            if symbol < 16 then readLengths code wanted fuel (symbol :: done) rest
            else
              let (least, width) := repeatRange symbol
              match Bits.takeNumber width rest with
              | none => none
              | some (extra, rest) =>
                  let times := least + extra
                  if symbol = 16 then
                    match done with
                    | [] => none
                    | last :: _ =>
                        readLengths code wanted fuel (List.replicate times last ++ done) rest
                  else readLengths code wanted fuel (List.replicate times 0 ++ done) rest

/-- Reads `count` three-bit lengths of the code-length code. -/
def readCodeLengthLengths : Nat → List Bool → Option (List Nat × List Bool)
  | 0, bits => some ([], bits)
  | count + 1, bits => do
      let (length, rest) ← Bits.takeNumber 3 bits
      let (more, rest) ← readCodeLengthLengths count rest
      some (length :: more, rest)

/-- The code-length code: the stated lengths belong to symbols in an order of their own. -/
def codeLengthCode? (stated : List Nat) : Option CodeTree :=
  let table := codeLengthOrder.zip stated
  CodeTree.ofLengths? ((List.range 19).map fun symbol => (table.lookup symbol).getD 0)

/-- Reads the codes that a block states for itself. -/
def readCodes (bits : List Bool) : Option (CodeTree × CodeTree × List Bool) := do
  let (literalCount, rest) ← Bits.takeNumber 5 bits
  let (distanceCount, rest) ← Bits.takeNumber 5 rest
  let (lengthCount, rest) ← Bits.takeNumber 4 rest
  let (stated, rest) ← readCodeLengthLengths (lengthCount + 4) rest
  let code ← codeLengthCode? stated
  let wanted := literalCount + 257 + (distanceCount + 1)
  let (lengths, rest) ← readLengths code wanted (wanted + 1) [] rest
  let literals ← CodeTree.ofLengths? (lengths.take (literalCount + 257))
  let distances ← CodeTree.ofLengths? (lengths.drop (literalCount + 257))
  some (literals, distances, rest)

/-- Appends `count` whole bytes from the bits. -/
def readBytes : Nat → ByteArray → List Bool → Option (ByteArray × List Bool)
  | 0, out, bits => some (out, bits)
  | count + 1, out, bits =>
      match Bits.takeNumber 8 bits with
      | none => none
      | some (n, rest) => readBytes count (out.push (UInt8.ofNat n)) rest

/-- Reads a block of plain bytes, which starts at a byte boundary and states its length twice. -/
def readStored (out : ByteArray) (bits : List Bool) : Option (ByteArray × List Bool) := do
  let (length, rest) ← Bits.takeNumber 16 (bits.drop (bits.length % 8))
  let (check, rest) ← Bits.takeNumber 16 rest
  if length + check = 0xFFFF then readBytes length out rest else none

/-- Reads blocks up to the last one. Each takes at least three bits. -/
def readBlocks : Nat → ByteArray → List Bool → Option ByteArray
  | 0, _, _ => none
  | fuel + 1, out, bits =>
      match Bits.takeNumber 1 bits with
      | none => none
      | some (isLast, rest) =>
          match Bits.takeNumber 2 rest with
          | none => none
          | some (kind, rest) =>
              let content :=
                if kind = 0 then readStored out rest
                else if kind = 1 then do
                  let literals ← CodeTree.ofLengths? fixedLiteralLengths
                  let distances ← CodeTree.ofLengths? fixedDistanceLengths
                  readSymbols literals distances (rest.length + 1) out rest
                else if kind = 2 then do
                  let (literals, distances, rest) ← readCodes rest
                  readSymbols literals distances (rest.length + 1) out rest
                else none
              match content with
              | none => none
              | some (out, rest) => if isLast = 1 then some out else readBlocks fuel out rest

/-- The content of a compressed stream; what follows its last block is not looked at. -/
def inflate (data : ByteArray) : Option ByteArray :=
  let bits := Bits.ofBytes data.toList
  readBlocks (bits.length + 1) ByteArray.empty bits

end SdkEvidence.Deflate
