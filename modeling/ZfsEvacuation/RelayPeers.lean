import ZfsEvacuation.ApiServer
import ZfsEvacuation.Quantity

/-!
# Addresses the relay accepts

Parsing of IP addresses and CIDR ranges, and the peers a relay is pinned to for a node.
-/
namespace ZfsEvacuation

/-- Up to `max` digits of a base, read greedily. -/
def readNumber (base maxDigits limit : Nat) (zeroPrefix : Bool) (s : List Char) :
    Option (Nat × List Char) :=
  let digit : Char → Option Nat := fun c =>
    let n := c.toNat
    let v := if 48 ≤ n ∧ n ≤ 57 then n - 48
      else if 97 ≤ n ∧ n ≤ 122 then n - 87
      else if 65 ≤ n ∧ n ≤ 90 then n - 55 else base
    if v < base then some v else none
  let digits := s.takeWhile fun c => (digit c).isSome
  let value := digits.foldl (fun n c => base * n + (digit c).getD 0) 0
  if digits = [] ∨ digits.length > maxDigits ∨ value ≥ limit ∨
      (¬ zeroPrefix ∧ digits.length > 1 ∧ digits.head? = some '0') then none
  else some (value, s.drop digits.length)

/-- A part after its separator; the first part of a sequence has none. -/
def readSeparated {α : Type} (sep : Char) (index : Nat)
    (read : List Char → Option (α × List Char)) (s : List Char) : Option (α × List Char) :=
  if index = 0 then read s else
  match s with
  | c :: rest => if c = sep then read rest else none
  | [] => none

def readIpv4 (s : List Char) : Option (Nat × List Char) := do
  let octet := readNumber 10 3 256 false
  let (a, s) ← readSeparated '.' 0 octet s
  let (b, s) ← readSeparated '.' 1 octet s
  let (c, s) ← readSeparated '.' 2 octet s
  let (d, s) ← readSeparated '.' 3 octet s
  return (((a * 256 + b) * 256 + c) * 256 + d, s)

/-- Read up to `limit` groups; the flag says that they end in an embedded IPv4 address. -/
def readGroups (limit : Nat) : Nat → List Nat → List Char → List Nat × Bool × List Char
  | 0, groups, s => (groups, false, s)
  | fuel + 1, groups, s =>
    if groups.length ≥ limit then (groups, false, s) else
    match if groups.length + 1 < limit then readSeparated ':' groups.length readIpv4 s
      else none with
    | some (v4, rest) => (groups ++ [v4 / 65536, v4 % 65536], true, rest)
    | none =>
      match readSeparated ':' groups.length (readNumber 16 4 65536 true) s with
      | some (g, rest) => readGroups limit fuel (groups ++ [g]) rest
      | none => (groups, false, s)

def readIpv6 (s : List Char) : Option (Nat × List Char) :=
  let value : List Nat → Nat := fun groups => groups.foldl (fun n g => n * 65536 + g) 0
  match readGroups 8 8 [] s with
  | (head, headV4, s) =>
    if head.length = 8 then some (value head, s)
    else if headV4 then none
    else match s with
      | ':' :: ':' :: rest =>
        match readGroups (7 - head.length) 8 [] rest with
        | (tail, _, s) =>
          some (value (head ++ List.replicate (8 - head.length - tail.length) 0 ++ tail), s)
      | _ => none

def parseIpAddr (text : List Char) : Option IpAddr :=
  match readIpv4 text with
  | some (n, []) => some (.v4 (BitVec.ofNat 32 n))
  | _ =>
    match readIpv6 text with
    | some (n, []) => some (.v6 (BitVec.ofNat 128 n))
    | _ => none

def IpAddr.bits : IpAddr → Nat
  | .v4 _ => 32
  | .v6 _ => 128

def IpNet.host (addr : IpAddr) : IpNet := ⟨addr, addr.bits⟩

/-- The mask of the leading bits of an address; a prefix is not longer than the address. -/
def prefixMask (width prefixLength : Nat) : BitVec width :=
  if prefixLength = 0 then 0 else BitVec.allOnes width <<< (width - prefixLength)

def IpNet.contains (net : IpNet) (ip : IpAddr) : Bool :=
  match net.addr, ip with
  | .v4 a, .v4 b => a &&& prefixMask 32 net.prefixLength == b &&& prefixMask 32 net.prefixLength
  | .v6 a, .v6 b => a &&& prefixMask 128 net.prefixLength == b &&& prefixMask 128 net.prefixLength
  | _, _ => false

theorem and_prefixMask {width : Nat} (h : width ≠ 0) (a : BitVec width) :
    a &&& prefixMask width width = a := by
  rw [prefixMask, if_neg h, Nat.sub_self, BitVec.shiftLeft_zero, BitVec.and_allOnes]

/-- The network of a host has no other address. -/
theorem IpNet.host_contains (addr ip : IpAddr) :
    (IpNet.host addr).contains ip = true ↔ addr = ip := by
  cases addr <;> cases ip <;>
    simp [IpNet.host, IpNet.contains, IpAddr.bits, and_prefixMask, -BitVec.reduceShiftLeft]

/-- "address/length"; a length the family does not have is refused. -/
def parseCidr (s : String) : Option IpNet :=
  let text := s.toList
  match text.dropWhile (· ≠ '/') with
  | [] => none
  | _ :: len => do
    let addr ← parseIpAddr (trim (text.takeWhile (· ≠ '/')))
    let prefixLength ← parseUnsigned 255 (trim len)
    if prefixLength ≤ addr.bits then some ⟨addr, prefixLength⟩ else none

def nodeIps (node : Obj .node) : List IpAddr :=
  let node : Node := node.data
  (node.addresses.filter fun a => a.type_ == "InternalIP" || a.type_ == "ExternalIP").filterMap
    fun a => parseIpAddr a.address.toList

/-- The node's own addresses and its pod networks. -/
def relayPeerNets (node : Obj .node) : List IpNet :=
  let data : Node := node.data
  let cidrs := match data.podCidr with
    | some c => if data.podCidrs.contains c then data.podCidrs else data.podCidrs ++ [c]
    | none => data.podCidrs
  (nodeIps node).map IpNet.host ++ cidrs.filterMap parseCidr

end ZfsEvacuation
