import Gatehouse.Text.Blank
import Gatehouse.Text.Decimal
import Gatehouse.Text.Bytes

/-!
Addresses of the Internet protocol.

An address of version 4 is four bytes in decimal. One of version 6 is eight
groups in hexadecimal, of which the first longest run of two or more zero
groups is left out; an address that stands for one of version 4 ends like it.
-/

namespace Gatehouse

/-- An address of version 4, as one number. -/
structure Ipv4 where
  value : Nat
  deriving DecidableEq, Repr

/-- An address of version 6, as eight numbers of 16 bits. -/
structure Ipv6 where
  groups : List Nat
  deriving DecidableEq, Repr

/-- An address. -/
inductive Ip where
  | v4 (address : Ipv4)
  | v6 (address : Ipv6)
  deriving DecidableEq, Repr

namespace Ipv4

/-- Write the four bytes in decimal. -/
def write (a : Ipv4) : String :=
  ".".intercalate ((List.range 4).map fun i => Text.Decimal.ofNat (a.value >>> (8 * (3 - i)) % 256))

/-- A byte in decimal without a leading zero. -/
def byte? (cs : List Char) : Option Nat :=
  match cs with
  | '0' :: _ :: _ | '+' :: _ => none
  | _ => (Text.Decimal.readNat 255 (String.ofList cs)).toOption

/-- Read four bytes in decimal. -/
def readChars? (cs : List Char) : Option Ipv4 := do
  let bytes ← (Text.pieces '.' cs).mapM byte?
  if bytes.length = 4 then some ⟨bytes.foldl (fun n b => 256 * n + b) 0⟩ else none

end Ipv4

namespace Ipv6

/-- A group in hexadecimal: one to four digits. -/
def group? (cs : List Char) : Option Nat := do
  if cs.length = 0 ∨ 4 < cs.length then none
  let digits ← cs.mapM fun c => if c.toNat < 0x80 then Bytes.hexValue? c.toUInt8 else none
  some (digits.foldl (fun n d => 16 * n + d.toNat) 0)

/-- Groups between colons, the last of which may be an address of version 4 in
the place of two. -/
def groups? (pieces : List (List Char)) : Option (List Nat) :=
  match pieces.reverse with
  | [] => some []
  | last :: before =>
      if last.contains '.' then do
        let front ← before.reverse.mapM group?
        let v4 ← Ipv4.readChars? last
        some (front ++ [v4.value / 65536, v4.value % 65536])
      else pieces.mapM group?

/-- The pieces of one side of a `::`. -/
def side (cs : List Char) : List (List Char) :=
  if cs = [] then [] else Text.pieces ':' cs

/-- The parts before and after the first `::`. -/
def gap? : List Char → Option (List Char × List Char)
  | ':' :: ':' :: rest => some ([], rest)
  | c :: rest => (gap? rest).map fun parts => (c :: parts.1, parts.2)
  | [] => none

/-- Read an address. A `::` stands for one or more zero groups. -/
def readChars? (cs : List Char) : Option Ipv6 :=
  match gap? cs with
  | none => do
      let groups ← groups? (Text.pieces ':' cs)
      if groups.length = 8 then some ⟨groups⟩ else none
  | some (left, right) => do
      let front ← (side left).mapM group?
      let back ← groups? (side right)
      if front.length + back.length < 8 then
        some ⟨front ++ List.replicate (8 - front.length - back.length) 0 ++ back⟩
      else none

/-- A number in hexadecimal without leading zeros. -/
def hex (n : Nat) : String :=
  String.ofList (Nat.toDigits 16 n)

/-- The lengths of the runs of zero groups that begin at each group. -/
def zeroRuns : List Nat → List Nat
  | [] => []
  | g :: rest =>
      let runs := zeroRuns rest
      (if g = 0 then runs.headD 0 + 1 else 0) :: runs

def writeGroups (groups : List Nat) : String :=
  ":".intercalate (groups.map hex)

/-- Write an address, with `::` for the first longest run of two or more zero
groups. -/
def write (a : Ipv6) : String :=
  let runs := zeroRuns a.groups
  let longest := runs.foldl max 0
  if longest < 2 then writeGroups a.groups
  else
    let start := runs.idxOf longest
    writeGroups (a.groups.take start) ++ "::" ++ writeGroups (a.groups.drop (start + longest))

/-- The address of version 4 that an address stands for. -/
def mapped? (a : Ipv6) : Option Ipv4 :=
  match a.groups with
  | [0, 0, 0, 0, 0, 0xFFFF, high, low] => some ⟨high * 65536 + low⟩
  | _ => none

end Ipv6

namespace Ip

/-- Write an address. -/
def write : Ip → String
  | .v4 a => a.write
  | .v6 a =>
      match a.mapped? with
      | some inner => "::ffff:" ++ inner.write
      | none => a.write

/-- Read the address of a peer, which stands before its port: `a.b.c.d:port` or
`[group:…:group]:port`. -/
def ofPeer? (peer : String) : Option Ip :=
  match peer.toList with
  | '[' :: rest => (Ipv6.readChars? (rest.takeWhile (· ≠ ']'))).map .v6
  | cs => (Ipv4.readChars? (cs.takeWhile (· ≠ ':'))).map .v4

end Ip

end Gatehouse
