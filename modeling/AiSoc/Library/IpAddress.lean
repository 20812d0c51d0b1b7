import AiSoc.Library.PyStr
import Mathlib.Data.Nat.Digits.Lemmas

namespace IpAddress

inductive Address where
  | v4 (ip : Nat)
  | v6 (ip : Nat) (scopeId : Option (List Char))
  deriving DecidableEq, Repr

def splitOn (sep : Char) : List Char → List (List Char)
  | [] => [[]]
  | c :: cs =>
      if c = sep then [] :: splitOn sep cs
      else
        match splitOn sep cs with
        | [] => [[c]]
        | part :: parts => (c :: part) :: parts

def isDigit (c : Char) : Bool :=
  48 ≤ c.toNat && c.toNat ≤ 57

def decimalValue (cs : List Char) : Nat :=
  cs.foldl (fun n c => n * 10 + (c.toNat - 48)) 0

def parseOctet (cs : List Char) : Option Nat :=
  if cs = [] ∨ !cs.all isDigit ∨ cs.length > 3 then none
  else if cs ≠ ['0'] ∧ cs.head? = some '0' then none
  else if decimalValue cs > 255 then none
  else some (decimalValue cs)

def ipv4Address (cs : List Char) : Option Nat :=
  match splitOn '.' cs with
  | [a, b, c, d] => do
      let a ← parseOctet a
      let b ← parseOctet b
      let c ← parseOctet c
      let d ← parseOctet d
      return ((a * 256 + b) * 256 + c) * 256 + d
  | _ => none

def parseHextet (cs : List Char) : Option Nat :=
  if cs = [] ∨ cs.length > 4 then none
  else
    cs.foldl (fun n c => n.bind fun n => (PyStr.asciiHexValue c).map fun d => n * 16 + d) (some 0)

def hexText (n : Nat) : List Char :=
  if n = 0 then ['0']
  else (Nat.digits 16 n).reverse.map fun d => Char.ofNat (if d < 10 then 48 + d else 87 + d)

def parseHextets (parts : List (List Char)) : Option Nat :=
  parts.foldl (fun n part => n.bind fun n => (parseHextet part).map fun d => n * 65536 + d)
    (some 0)

-- an IPv4-style suffix becomes two hextets
def expandSuffix (parts : List (List Char)) : Option (List (List Char)) :=
  match parts.getLast? with
  | none => none
  | some last =>
      if last.contains '.' then
        (ipv4Address last).map fun ip =>
          parts.dropLast ++ [hexText (ip / 65536), hexText (ip % 65536)]
      else some parts

def skipIndices (parts : List (List Char)) : List Nat :=
  (List.range parts.length).filter fun i =>
    0 < i && i + 1 < parts.length && parts[i]? == some []

def hextetsToInt (parts : List (List Char)) : Option Nat :=
  let emptyFirst := parts.head? = some []
  let emptyLast := parts.getLast? = some []
  match skipIndices parts with
  | [] =>
      if parts.length ≠ 8 ∨ emptyFirst ∨ emptyLast then none else parseHextets parts
  | [skip] =>
      let hi := if emptyFirst then skip - 1 else skip
      let lo := if emptyLast then parts.length - skip - 2 else parts.length - skip - 1
      if (emptyFirst ∧ hi ≠ 0) ∨ (emptyLast ∧ lo ≠ 0) ∨ hi + lo > 7 then none
      else do
        let high ← parseHextets (parts.take hi)
        let low ← parseHextets (parts.drop (parts.length - lo))
        return high * 65536 ^ (8 - hi) + low
  | _ => none

def ipv6FromString (cs : List Char) : Option Nat :=
  let parts := splitOn ':' cs
  if parts.length < 3 then none
  else do
    let parts ← expandSuffix parts
    if parts.length > 9 then none else hextetsToInt parts

def splitScopeId (cs : List Char) : Option (List Char × Option (List Char)) :=
  match splitOn '%' cs with
  | [addr] => some (addr, none)
  | [addr, scopeId] => if scopeId = [] then none else some (addr, some scopeId)
  | _ => none

def ipv6Address (cs : List Char) : Option Address := do
  let (addr, scopeId) ← splitScopeId cs
  let ip ← ipv6FromString addr
  return .v6 ip scopeId

-- ipaddress.ip_address; none is the ValueError
def ipAddress (s : String) : Option Address :=
  let cs := s.toList
  if cs.contains '/' then none
  else
    match ipv4Address cs with
    | some ip => some (.v4 ip)
    | none => ipv6Address cs

structure Network where
  ip : Nat
  prefixlen : Nat
  text : String
  deriving DecidableEq, Repr

-- an address of the other version is in no network
def Network.contains (net : Network) : Address → Bool
  | .v4 ip => ip / 2 ^ (32 - net.prefixlen) == net.ip / 2 ^ (32 - net.prefixlen)
  | .v6 _ _ => false

-- the IPv4 address that an IPv4-mapped IPv6 address stands for, and no zone
def Address.entity : Address → Address
  | .v4 ip => .v4 ip
  | .v6 ip _ => if ip / 2 ^ 32 = 65535 then .v4 (ip % 2 ^ 32) else .v6 ip none

end IpAddress
