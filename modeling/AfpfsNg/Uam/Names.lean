import AfpfsNg.Base.Bytes

/-!
# User authentication methods

The names of `lib/uams_def.c` and the bits that stand for them. A name is looked up without regard to case.
-/

namespace AfpfsNg.Uam
open AfpfsNg.Base

/-- The methods that have a name, in the order of `afp_strings`. -/
inductive Method where
  | noUserAuthent
  | cleartxtPasswrd
  | randnumExchange
  | twoWayRandnum
  | dhcast128
  | clientKrb
  | dhx2
  | recon1
  deriving DecidableEq, Repr

def Method.name : Method → Bytes
  -- "No User Authent"
  | .noUserAuthent => [78, 111, 32, 85, 115, 101, 114, 32, 65, 117, 116, 104, 101, 110, 116]
  -- "Cleartxt Passwrd"
  | .cleartxtPasswrd => [67, 108, 101, 97, 114, 116, 120, 116, 32, 80, 97, 115, 115, 119, 114, 100]
  -- "Randnum Exchange"
  | .randnumExchange => [82, 97, 110, 100, 110, 117, 109, 32, 69, 120, 99, 104, 97, 110, 103, 101]
  -- "2-Way Randnum Exchange"
  | .twoWayRandnum => [50, 45, 87, 97, 121, 32, 82, 97, 110, 100, 110, 117, 109, 32, 69, 120, 99, 104, 97, 110, 103, 101]
  -- "DHCAST128"
  | .dhcast128 => [68, 72, 67, 65, 83, 84, 49, 50, 56]
  -- "Client Krb v2"
  | .clientKrb => [67, 108, 105, 101, 110, 116, 32, 75, 114, 98, 32, 118, 50]
  -- "DHX2"
  | .dhx2 => [68, 72, 88, 50]
  -- "Recon1"
  | .recon1 => [82, 101, 99, 111, 110, 49]

/-- C `afp_strings`, without the empty string at its end. -/
def afpStrings : List Method :=
  [.noUserAuthent, .cleartxtPasswrd, .randnumExchange, .twoWayRandnum, .dhcast128, .clientKrb, .dhx2, .recon1]

def tolower (c : UInt8) : UInt8 := if 65 ≤ c ∧ c ≤ 90 then c + 32 else c

/-- C `strcasecmp(..)==0`. -/
def strcaseeq (s t : Bytes) : Bool := s.map tolower = t.map tolower

/-- The loop of `uam_string_to_bitmap` from index `i` on. -/
def stringLoop (name : Bytes) : Nat → List Method → Nat
  | _, [] => 0
  | i, m :: ms => if strcaseeq name m.name then 1 <<< i else stringLoop name (i + 1) ms

def uamStringToBitmap (name : Bytes) : Nat := stringLoop name 0 afpStrings

/-- C `uam_bitmap_to_string`: the name of the highest bit. The names end with that of bit 7. -/
def uamBitmapToString (bitmap : Nat) : Option Bytes :=
  ((List.range 16).reverse.find? bitmap.testBit).bind fun i => afpStrings[i]?.map Method.name

end AfpfsNg.Uam
