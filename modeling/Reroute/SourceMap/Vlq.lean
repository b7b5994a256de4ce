import Reroute.Text.Base64

/-!
# Variable-length numbers

Mappings write signed 64-bit numbers in base64 digits of five payload bits, least
significant first; the sixth bit says that more digits follow.  The sign is moved to the
lowest payload bit.

Doubling the magnitude to make room for the sign leaves the signed range for magnitudes
of 2^62 and above.  Such numbers have no finite representation, the least number apart:
its magnitude doubles to zero.
-/

namespace Reroute.Vlq

/-- Payload bits of one digit, as the number of values they tell apart. -/
def radix : Nat := 32

/-- The most digits a number may have. -/
def maxDigits : Nat := 13

/-- The magnitude, doubled, with the sign in the lowest bit. -/
def signed (value : Int64) : Int64 :=
  if value < 0 then ((-value) <<< 1) ||| 1 else value <<< 1

/-- The number that a magnitude with its sign in the lowest bit stands for. -/
def unsigned (code : Nat) : Int64 :=
  let word := Int64.ofNat code
  if word &&& 1 == 1 then -(word >>> 1) else word >>> 1

/-- The digits of a code. -/
def digits (code : Nat) : Bytes :=
  if code < radix then [Base64.digit code]
  else Base64.digit (code % radix + radix) :: digits (code / radix)
termination_by code
decreasing_by simp [radix] at *; omega

/-- The digits of a number that has a finite representation. -/
def encode? (value : Int64) : Option Bytes :=
  let code := signed value
  if code < 0 then none else some (digits code.toNatClampNeg)

end Reroute.Vlq
