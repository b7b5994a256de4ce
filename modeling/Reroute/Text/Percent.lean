import Reroute.Text.Numeral

/-!
# Percent escapes

A percent sign followed by two hexadecimal digits stands for the byte they name; every
other byte stands for itself, except that in a form a plus sign stands for a space.

A strict reader turns down a percent sign without its digits.  A lenient one takes it for
itself, and lets an escaped zero end the text.
-/

namespace Reroute.Percent

/-- Replace every escape by its byte, and every other byte by what it stands for.  The
error is the malformed escape itself: the percent sign and up to two bytes after it. -/
def decodeOnto (plain : UInt8 → UInt8) (done : Bytes) : Bytes → Except Bytes Bytes
  | [] => .ok done.reverse
  | 37 :: high :: low :: rest =>
      match Numeral.hexDigit? high, Numeral.hexDigit? low with
      | some upper, some lower =>
          decodeOnto plain ((upper * 16 + lower).toUInt8 :: done) rest
      | _, _ => .error [37, high, low]
  | 37 :: rest => .error (37 :: rest)
  | byte :: rest => decodeOnto plain (plain byte :: done) rest

def decode (text : Bytes) : Except Bytes Bytes :=
  decodeOnto id [] text

/-- Read a percent-escaped part of a form. -/
def decodeForm (text : Bytes) : Except Bytes Bytes :=
  decodeOnto (fun byte => if byte == 43 then 32 else byte) [] text

/-- Read a percent-escaped text leniently. -/
def decodeLeniently : Bytes → Bytes
  | [] => []
  | 37 :: high :: low :: rest =>
      match Numeral.hexDigit? high, Numeral.hexDigit? low with
      | some 0, some 0 => []
      | some upper, some lower => (upper * 16 + lower).toUInt8 :: decodeLeniently rest
      | _, _ => 37 :: decodeLeniently (high :: low :: rest)
  | byte :: rest => byte :: decodeLeniently rest

end Reroute.Percent
