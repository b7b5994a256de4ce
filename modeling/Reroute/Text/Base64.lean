import Reroute.Bytes

/-!
# Base64

The alphabet that inline maps and encoded mappings share, and the padded encoding of
byte texts.  Reading ignores line breaks inside the payload and the unused low bits of
the last digit, but the padding has to be there and nothing may follow it.
-/

namespace Reroute.Base64

/-- The digit for a value below 64. -/
def digit (value : Nat) : UInt8 :=
  if value < 26 then (65 + value).toUInt8
  else if value < 52 then (71 + value).toUInt8
  else if value < 62 then (value - 4).toUInt8
  else if value = 62 then 43
  else 47

/-- The value of a digit. -/
def value? (byte : UInt8) : Option Nat :=
  let code := byte.toNat
  if 65 ≤ code && code ≤ 90 then some (code - 65)
  else if 97 ≤ code && code ≤ 122 then some (code - 71)
  else if 48 ≤ code && code ≤ 57 then some (code + 4)
  else if code == 43 then some 62
  else if code == 47 then some 63
  else none

def padding : UInt8 := 61

/-- Groups of three bytes become four digits; a shorter last group is padded. -/
def encodeOnto (done : Bytes) : Bytes → Bytes
  | [] => done.reverse
  | [a] =>
      let word := a.toNat * 65536
      (padding :: padding :: digit (word / 4096 % 64) :: digit (word / 262144) :: done).reverse
  | [a, b] =>
      let word := a.toNat * 65536 + b.toNat * 256
      (padding :: digit (word / 64 % 64) :: digit (word / 4096 % 64)
        :: digit (word / 262144) :: done).reverse
  | a :: b :: c :: rest =>
      let word := a.toNat * 65536 + b.toNat * 256 + c.toNat
      encodeOnto
        (digit (word % 64) :: digit (word / 64 % 64) :: digit (word / 4096 % 64)
          :: digit (word / 262144) :: done) rest

/-- The padded encoding of a text. -/
def encode (text : Bytes) : Bytes :=
  encodeOnto [] text

/-- Read groups of four digits, the last of which may be padded. -/
def decodeOnto (done : Bytes) : Bytes → Option Bytes
  | [] => some done.reverse
  | a :: b :: c :: d :: rest =>
      match value? a, value? b with
      | some first, some second =>
          let high := (first * 4 + second / 16).toUInt8
          if c == padding then
            if d == padding && rest.isEmpty then some (high :: done).reverse else none
          else
            match value? c with
            | none => none
            | some third =>
                let middle := (second % 16 * 16 + third / 4).toUInt8
                if d == padding then
                  if rest.isEmpty then some (middle :: high :: done).reverse else none
                else
                  match value? d with
                  | none => none
                  | some fourth =>
                      decodeOnto
                        ((third % 4 * 64 + fourth).toUInt8 :: middle :: high :: done) rest
      | _, _ => none
  | _ => none

/-- Read a padded payload, passing over line breaks. -/
def decode? (payload : Bytes) : Option Bytes :=
  decodeOnto [] (payload.filter fun byte => byte != 10 && byte != 13)

end Reroute.Base64
