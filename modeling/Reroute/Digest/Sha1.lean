import Reroute.Text.Numeral

/-!
# SHA-1

The 160-bit digest that names chunks, rules and cached results.  The message is padded
to whole blocks of sixteen big-endian words; every block is stretched to eighty words
and folded into five chaining words by four runs of twenty rounds.
-/

namespace Reroute

/-- A 160-bit digest. -/
structure Digest where
  value : BitVec 160
  deriving DecidableEq, Repr

namespace Digest

/-- Digests are ordered as the big-endian numbers they are, which is also the
lexicographic order of their bytes and of their hexadecimal forms. -/
def notAfter (left right : Digest) : Bool :=
  decide (left.value.toNat ≤ right.value.toNat)

/-- The forty-digit hexadecimal form, in lower case. -/
def hex (digest : Digest) : Bytes :=
  Numeral.hexPadded Numeral.digit 40 digest.value.toNat

end Digest

namespace Sha1

/-- The five chaining words. -/
structure Chain where
  a : UInt32
  b : UInt32
  c : UInt32
  d : UInt32
  e : UInt32
  deriving Repr

def start : Chain :=
  ⟨0x67452301, 0xEFCDAB89, 0x98BADCFE, 0x10325476, 0xC3D2E1F0⟩

def rotateLeft (word : UInt32) (count : UInt32) : UInt32 :=
  (word <<< count) ||| (word >>> (32 - count))

/-- Extend a schedule held latest word first by `count` words. -/
def extend : Nat → List UInt32 → List UInt32
  | 0, words => words
  | count + 1, words =>
      let word :=
        words.getD 2 0 ^^^ words.getD 7 0 ^^^ words.getD 13 0 ^^^ words.getD 15 0
      extend count (rotateLeft word 1 :: words)

/-- The eighty words of a block of sixteen. -/
def schedule (block : List UInt32) : List UInt32 :=
  (extend 64 block.reverse).reverse

/-- The mixing function and the constant of a round. -/
def mix (round : Nat) (chain : Chain) : UInt32 × UInt32 :=
  if round < 20 then
    ((chain.b &&& chain.c) ||| ((~~~chain.b) &&& chain.d), 0x5A827999)
  else if round < 40 then (chain.b ^^^ chain.c ^^^ chain.d, 0x6ED9EBA1)
  else if round < 60 then
    ((chain.b &&& chain.c) ||| (chain.b &&& chain.d) ||| (chain.c &&& chain.d), 0x8F1BBCDC)
  else (chain.b ^^^ chain.c ^^^ chain.d, 0xCA62C1D6)

/-- Run the rounds for the words of a schedule. -/
def rounds (round : Nat) (chain : Chain) : List UInt32 → Chain
  | [] => chain
  | word :: words =>
      let (mixed, constant) := mix round chain
      let head := rotateLeft chain.a 5 + mixed + chain.e + constant + word
      rounds (round + 1)
        ⟨head, chain.a, rotateLeft chain.b 30, chain.c, chain.d⟩ words

/-- Fold one block into the chaining words. -/
def absorb (chain : Chain) (block : List UInt32) : Chain :=
  let mixed := rounds 0 chain (schedule block)
  ⟨chain.a + mixed.a, chain.b + mixed.b, chain.c + mixed.c, chain.d + mixed.d,
    chain.e + mixed.e⟩

/-- Big-endian words of a text, in front of those already collected. -/
def wordsOnto (done : List UInt32) : Bytes → List UInt32
  | a :: b :: c :: d :: rest =>
      let word :=
        (a.toUInt32 <<< 24) ||| (b.toUInt32 <<< 16) ||| (c.toUInt32 <<< 8) ||| d.toUInt32
      wordsOnto (word :: done) rest
  | _ => done.reverse

/-- A number below `2 ^ 64` as eight bytes, most significant first. -/
def lengthBytes (bits : Nat) : Bytes :=
  (List.range 8).map fun index => (bits >>> (8 * (7 - index))).toUInt8

/-- The padding of a message: a one bit, zeros, and the length in bits. -/
def paddingFor (length : Nat) : Bytes :=
  [0x80] ++ List.replicate ((119 - length % 64) % 64) 0 ++ lengthBytes (length * 8)

/-- Fold the blocks of a padded message into the chaining words, sixteen words each. -/
def absorbAll (chain : Chain) : List UInt32 → Chain
  | [] => chain
  | word :: words => absorbAll (absorb chain (word :: words.take 15)) (words.drop 15)
termination_by words => words.length
decreasing_by
  simp only [List.length_drop, List.length_cons]
  omega

end Sha1

/-- The SHA-1 digest of a message. -/
def sha1 (message : Bytes) : Digest :=
  let words := Sha1.wordsOnto [] (message ++ Sha1.paddingFor message.length)
  let chain := Sha1.absorbAll Sha1.start words
  ⟨chain.a.toBitVec ++ chain.b.toBitVec ++ chain.c.toBitVec ++ chain.d.toBitVec
    ++ chain.e.toBitVec⟩

end Reroute
