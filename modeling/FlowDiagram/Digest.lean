/-!
# Digests

SHA-256 of a text, written in hexadecimal.  The message is padded to whole blocks of 64 bytes; each
block is spread into 64 words, which are stirred one by one into a state of eight words.
-/

namespace FlowDiagram.Digest

/-- The words that the rounds add: fractions of the cube roots of the first 64 primes. -/
def roundWords : List UInt32 := [
  0x428a2f98, 0x71374491, 0xb5c0fbcf, 0xe9b5dba5, 0x3956c25b, 0x59f111f1, 0x923f82a4, 0xab1c5ed5,
  0xd807aa98, 0x12835b01, 0x243185be, 0x550c7dc3, 0x72be5d74, 0x80deb1fe, 0x9bdc06a7, 0xc19bf174,
  0xe49b69c1, 0xefbe4786, 0x0fc19dc6, 0x240ca1cc, 0x2de92c6f, 0x4a7484aa, 0x5cb0a9dc, 0x76f988da,
  0x983e5152, 0xa831c66d, 0xb00327c8, 0xbf597fc7, 0xc6e00bf3, 0xd5a79147, 0x06ca6351, 0x14292967,
  0x27b70a85, 0x2e1b2138, 0x4d2c6dfc, 0x53380d13, 0x650a7354, 0x766a0abb, 0x81c2c92e, 0x92722c85,
  0xa2bfe8a1, 0xa81a664b, 0xc24b8b70, 0xc76c51a3, 0xd192e819, 0xd6990624, 0xf40e3585, 0x106aa070,
  0x19a4c116, 0x1e376c08, 0x2748774c, 0x34b0bcb5, 0x391c0cb3, 0x4ed8aa4a, 0x5b9cca4f, 0x682e6ff3,
  0x748f82ee, 0x78a5636f, 0x84c87814, 0x8cc70208, 0x90befffa, 0xa4506ceb, 0xbef9a3f7, 0xc67178f2]

/-- Eight words of state. -/
structure State where
  a : UInt32
  b : UInt32
  c : UInt32
  d : UInt32
  e : UInt32
  f : UInt32
  g : UInt32
  h : UInt32
  deriving DecidableEq

/-- The state before the first block: fractions of the square roots of the first eight primes. -/
def State.initial : State :=
  ⟨0x6a09e667, 0xbb67ae85, 0x3c6ef372, 0xa54ff53a, 0x510e527f, 0x9b05688c, 0x1f83d9ab, 0x5be0cd19⟩

def rotateRight (word : UInt32) (places : UInt32) : UInt32 :=
  (word >>> places) ||| (word <<< (32 - places))

/-- One round: stir a word of the block and a word of the table into the state. -/
def State.round (state : State) (word constant : UInt32) : State :=
  let ⟨a, b, c, d, e, f, g, h⟩ := state
  let mixE := rotateRight e 6 ^^^ rotateRight e 11 ^^^ rotateRight e 25
  let choice := (e &&& f) ^^^ (~~~e &&& g)
  let first := h + mixE + choice + constant + word
  let mixA := rotateRight a 2 ^^^ rotateRight a 13 ^^^ rotateRight a 22
  let majority := (a &&& b) ^^^ (a &&& c) ^^^ (b &&& c)
  ⟨first + (mixA + majority), a, b, c, d + first, e, f, g⟩

/-- The state after a block that was stirred into it. -/
def State.add (old new : State) : State :=
  ⟨old.a + new.a, old.b + new.b, old.c + new.c, old.d + new.d,
    old.e + new.e, old.f + new.f, old.g + new.g, old.h + new.h⟩

def State.words (state : State) : List UInt32 :=
  [state.a, state.b, state.c, state.d, state.e, state.f, state.g, state.h]

/-! ## Blocks -/

/-- Bytes in fours, the first of each four most significant. -/
def wordsOf : List UInt8 → List UInt32
  | a :: b :: c :: d :: rest =>
    ((a.toUInt32 <<< 24) ||| (b.toUInt32 <<< 16) ||| (c.toUInt32 <<< 8) ||| d.toUInt32) ::
      wordsOf rest
  | _ => []

/-- The next word of a spread block, from the words before it, latest first. -/
def nextWord (latest : List UInt32) : UInt32 :=
  let word (back : Nat) : UInt32 := (latest[back - 1]?).getD 0
  let near := rotateRight (word 2) 17 ^^^ rotateRight (word 2) 19 ^^^ (word 2 >>> 10)
  let far := rotateRight (word 15) 7 ^^^ rotateRight (word 15) 18 ^^^ (word 15 >>> 3)
  near + word 7 + far + word 16

/-- Put so many further words in front of words, latest first. -/
def spread : Nat → List UInt32 → List UInt32
  | 0, latest => latest
  | count + 1, latest => spread count (nextWord latest :: latest)

/-- Stir a block of 16 words into the state. -/
def State.block (state : State) (block : List UInt32) : State :=
  let words := (spread 48 block.reverse).reverse
  state.add ((words.zip roundWords).foldl (fun state (word, constant) => state.round word constant)
    state)

/-- Stir the first `count` blocks of a list of words into the state. -/
def State.blocks : Nat → State → List UInt32 → State
  | 0, state, _ => state
  | count + 1, state, words => State.blocks count (state.block (words.take 16)) (words.drop 16)

/-! ## Messages -/

/-- A number as eight bytes, most significant first. -/
def lengthBytes (number : Nat) : List UInt8 :=
  (List.range 8).reverse.map fun place => UInt8.ofNat (number >>> (8 * place))

/-- A message with a one bit, zeros and its length in bits behind it, up to a whole block. -/
def padded (message : List UInt8) : List UInt8 :=
  let zeros := (119 - message.length % 64) % 64
  message ++ 0x80 :: (List.replicate zeros 0 ++ lengthBytes (8 * message.length))

def sha256 (message : List UInt8) : List UInt32 :=
  let words := wordsOf (padded message)
  (State.blocks (words.length / 16) .initial words).words

/-- A word as eight hexadecimal digits. -/
def hexWord (word : UInt32) : String :=
  let digits := Nat.toDigits 16 word.toNat
  String.ofList (List.replicate (8 - digits.length) '0' ++ digits)

/-- The digest of the UTF-8 form of a text. -/
def ofText (text : String) : String :=
  (sha256 text.toUTF8.toList).foldl (fun digits word => digits ++ hexWord word) ""

end FlowDiagram.Digest
