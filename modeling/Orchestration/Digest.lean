/-!
# A digest of bytes

The digest of 160 bits that names are made of: bytes are filled up to blocks of sixteen words, and each block
stirs a state of five words in eighty rounds.
-/

namespace Orchestration.Digest

/-- The state between blocks. -/
structure State where
  a : UInt32
  b : UInt32
  c : UInt32
  d : UInt32
  e : UInt32
  deriving DecidableEq

/-- The state before the first block. -/
def start : State := ⟨0x67452301, 0xEFCDAB89, 0x98BADCFE, 0x10325476, 0xC3D2E1F0⟩

/-- A word turned to the left. -/
def turn (x : UInt32) (bits : UInt32) : UInt32 := x <<< bits ||| x >>> (32 - bits)

/-- The bytes of a number, the least significant last. -/
def numberBytes : Nat → Nat → List UInt8
  | 0, _ => []
  | count + 1, n => numberBytes count (n / 256) ++ [.ofNat (n % 256)]

/-- The bytes filled up to whole blocks: a mark, zeros, and the number of bits. -/
def padded (bytes : List UInt8) : List UInt8 :=
  let filled := (bytes.length + 9) % 64
  let zeros := if filled = 0 then 0 else 64 - filled
  bytes ++ 0x80 :: List.replicate zeros 0 ++ numberBytes 8 (8 * bytes.length)

/-- Bytes as words, the most significant byte first. -/
def wordsOf : List UInt8 → List UInt32
  | a :: b :: c :: d :: rest =>
    (a.toUInt32 <<< 24 ||| b.toUInt32 <<< 16 ||| c.toUInt32 <<< 8 ||| d.toUInt32) :: wordsOf rest
  | _ => []

/-- So many further words of a schedule, given the last sixteen. -/
def furtherWords : Nat → List UInt32 → List UInt32
  | 0, _ => []
  | count + 1, last =>
    let next := turn (last.getD 13 0 ^^^ last.getD 8 0 ^^^ last.getD 2 0 ^^^ last.getD 0 0) 1
    next :: furtherWords count (last.drop 1 ++ [next])

/-- The words of the eighty rounds of a block. -/
def schedule (block : List UInt32) : List UInt32 := block ++ furtherWords 64 block

/-- How a round mixes three words, and its constant. -/
def mix (round : Nat) (b c d : UInt32) : UInt32 × UInt32 :=
  if round < 20 then ((b &&& c) ||| (~~~b &&& d), 0x5A827999)
  else if round < 40 then (b ^^^ c ^^^ d, 0x6ED9EBA1)
  else if round < 60 then ((b &&& c) ||| (b &&& d) ||| (c &&& d), 0x8F1BBCDC)
  else (b ^^^ c ^^^ d, 0xCA62C1D6)

/-- The state after further rounds. -/
def rounds : Nat → List UInt32 → State → State
  | _, [], s => s
  | round, word :: words, s =>
    let (mixed, constant) := mix round s.b s.c s.d
    rounds (round + 1) words
      ⟨turn s.a 5 + mixed + s.e + constant + word, s.a, turn s.b 30, s.c, s.d⟩

/-- The state after a block. -/
def absorb (s : State) (block : List UInt32) : State :=
  let t := rounds 0 (schedule block) s
  ⟨s.a + t.a, s.b + t.b, s.c + t.c, s.d + t.d, s.e + t.e⟩

/-- The state after so many blocks. -/
def absorbAll : Nat → List UInt32 → State → State
  | 0, _, s => s
  | blocks + 1, words, s => absorbAll blocks (words.drop 16) (absorb s (words.take 16))

/-- The bytes of a word. -/
def wordBytes (x : UInt32) : List UInt8 := numberBytes 4 x.toNat

/-- The digest of some bytes. -/
def ofBytes (bytes : List UInt8) : List UInt8 :=
  let words := wordsOf (padded bytes)
  let s := absorbAll (words.length / 16) words start
  [s.a, s.b, s.c, s.d, s.e].flatMap wordBytes

end Orchestration.Digest
