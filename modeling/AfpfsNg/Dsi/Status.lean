import AfpfsNg.Base.Arrays
import AfpfsNg.Proto.Replies
import AfpfsNg.Uam.Names
import AfpfsNg.Unicode.Codepage

/-!
# The status of a server

`dsi_getstatus_reply` (`lib/dsi.c`): the reply to DSIGetStatus. The fixed part of the reply has offsets from its start, behind
the DSI header; some of the fields are behind the name of the server, at an even address, and are there only with
their flag. The strings go to arrays of `struct afp_server` that lie one behind the other. `machine_type` has 17 bytes,
but the length given for it is 33. `none` is a read behind the end of the packet or a write behind the arrays.
-/

namespace AfpfsNg.Dsi
open AfpfsNg.Base AfpfsNg.Afp AfpfsNg.Proto AfpfsNg.Uam AfpfsNg.Unicode

structure StatusInfo where
  /-- The arrays, from `server_name` to `signature`. -/
  names : Block 832
  flags : Nat
  supportedUams : Nat
  versions : Bytes

def StatusInfo.serverName (s : StatusInfo) : Bytes := s.names.array 0 33

def StatusInfo.serverNameUtf8 (s : StatusInfo) : Bytes := s.names.array 33 255

def StatusInfo.serverNamePrintable (s : StatusInfo) : Bytes := s.names.array 288 255

def StatusInfo.machineType (s : StatusInfo) : Bytes := s.names.array 543 17

def StatusInfo.icon (s : StatusInfo) : Bytes := s.names.array 560 256

def StatusInfo.signature (s : StatusInfo) : Bytes := s.names.array 816 16

def afpVersions : List (Bytes × UInt8) :=
  [
    -- "AFPVersion 1.1"
    ([65, 70, 80, 86, 101, 114, 115, 105, 111, 110, 32, 49, 46, 49], 11),
    -- "AFPVersion 2.0"
    ([65, 70, 80, 86, 101, 114, 115, 105, 111, 110, 32, 50, 46, 48], 20),
    -- "AFPVersion 2.1"
    ([65, 70, 80, 86, 101, 114, 115, 105, 111, 110, 32, 50, 46, 49], 21),
    -- "AFP2.2"
    ([65, 70, 80, 50, 46, 50], 22),
    -- "AFPX03"
    ([65, 70, 80, 88, 48, 51], 30),
    -- "AFP3.1"
    ([65, 70, 80, 51, 46, 49], 31),
    -- "AFP3.2"
    ([65, 70, 80, 51, 46, 50], 32)]

def versionNumber (name : Bytes) : Option UInt8 := (afpVersions.find? fun v => v.1 = name).map Prod.snd

/-- The strings that a loop over `copy_from_pascal` finds one behind the other. -/
def pascalStrings (buf : Bytes) (maxLen : Nat) : Nat → Nat → Option (List Bytes)
  | 0, _ => some []
  | i + 1, p => do
    let name ← copyFromPascal buf p maxLen
    let names ← pascalStrings buf maxLen i (p + (name.length + 1))
    return name :: names

def dsiParseVersions (buf : Bytes) (p : Nat) : Option Bytes := do
  let numVersions ← buf[p]?
  let names ← pascalStrings buf 33 (min 10 numVersions.toNat) (p + 1)
  return padded 10 (names.filterMap fun name => versionNumber (cString name))

def dsiParseUams (buf : Bytes) (p : Nat) : Option Nat := do
  let numUams ← buf[p]?
  let names ← pascalStrings buf 24 (min 10 numUams.toNat) (p + 1)
  return names.foldl (fun uams name => uams ||| uamStringToBitmap (cString name)) 0

def copyToArray (names : Block 832) (dest : Nat) (buf : Bytes) (p maxLen : Nat) : Option (Bytes × Block 832) := do
  let name ← copyFromPascal buf p maxLen
  let names ← names.put dest (padded maxLen name)
  return (name, names)

/-- C `convert_utf8dec_to_utf8pre` from `server_name_utf8` to `server_name_printable`. -/
def printName (names : Block 832) : Option (Block 832) := do
  let name ← decToPre (names.bytes.drop 33) 544
  names.put 288 (name ++ [0])

/-- The UTF-8 name of the server at `p2`. The first byte of its length is passed over. -/
def utf8Name (names : Block 832) (buf : Bytes) (p2 : Nat) : Option (Block 832) := do
  let (name, names) ← copyToArray names 33 buf (p2 + 1) 255
  -- a workaround for servers that are off by one character
  let (_, names) ← if name = [] then copyToArray names 33 buf (p2 + 2) 255 else some (name, names)
  printName names

def copyIcon (names : Block 832) (buf : Bytes) (offset : Nat) : Option (Block 832) :=
  if 0 < offset then (fetch buf (16 + offset) 256).bind (names.put 560) else some names

/-- The name that is printed: from the UTF-8 name, if there is one, else from the other. -/
def printableName (iconv : Bytes → Bytes) (flags : Nat) (names : Block 832) (buf : Bytes) (p : Nat) :
    Option (Block 832) :=
  -- kSupportsUTF8SrvrName
  if flags &&& 0x200 ≠ 0 then (fetch buf p 2).bind fun o => utf8Name names buf (16 + beNat o)
  else names.put 288 ((iconv (cString names.bytes)).take 255)

/-- C `dsi_getstatus_reply`. `iconv` is the conversion of the C library. -/
def dsiGetstatusReply (iconv : Bytes → Bytes) (server : StatusInfo) (buf : Bytes) : Option StatusInfo :=
  if buf.length < 34 then some server
  else do
    let offset (i : Nat) : Nat := beNat (slice buf i 2)
    let (_, names) ← copyToArray server.names 543 buf (16 + offset 16) 33
    let versions ← dsiParseVersions buf (16 + offset 18)
    let supportedUams ← dsiParseUams buf (16 + offset 20)
    let names ← copyIcon names buf (offset 22)
    let flags := offset 24
    let (name, names) ← copyToArray names 0 buf 26 33
    let p := 26 + (name.length + 1)
    let p := p + p % 2
    let signature ← (fetch buf p 2).bind fun o => fetch buf (16 + beNat o) 16
    let names ← names.put 816 signature
    let p := p + 2
    -- kSupportsTCP, kSupportsDirServices
    let p := if flags &&& 0x20 ≠ 0 then p + 2 else p
    let p := if flags &&& 0x100 ≠ 0 then p + 2 else p
    let names ← printableName iconv flags names buf p
    return ⟨names, flags, supportedUams, versions⟩

end AfpfsNg.Dsi
