import FlowDiagram.Text.Joined
import FlowDiagram.Uuid

/-!
# Socket addresses

A socket address is an internet address of version 4 or 6 with a port.  Addresses of version 6 stand
in brackets; in them the longest run of zero groups is left out.
-/

namespace FlowDiagram

/-- An internet address of version 4. -/
structure Ipv4 where
  first : UInt8
  second : UInt8
  third : UInt8
  fourth : UInt8
  deriving DecidableEq

/-- An internet address of version 6. -/
structure Ipv6 where
  groups : Vector UInt16 8
  deriving DecidableEq

inductive SocketAddress where
  | v4 (address : Ipv4) (port : UInt16)
  | v6 (address : Ipv6) (scope : UInt32) (port : UInt16)
  deriving DecidableEq

/-! ## Writing -/

def Ipv4.text (address : Ipv4) : String :=
  ".".intercalate
    ([address.first, address.second, address.third, address.fourth].map fun byte =>
      toString byte.toNat)

namespace Ipv6

/-- The first longest run of zeros, as its start and its length. -/
def longestRun (groups : List UInt16) : Nat × Nat :=
  let starts := List.range groups.length
  let runs := starts.map fun start => (start, ((groups.drop start).takeWhile (· = 0)).length)
  runs.foldl (fun best run => if best.2 < run.2 then run else best) (0, 0)

def groupsText (groups : List UInt16) : String :=
  ":".intercalate (groups.map fun group => String.ofList (Nat.toDigits 16 group.toNat))

/-- The version 4 address that stands for the same host, if that is how the address is made. -/
def mapped? (address : Ipv6) : Option Ipv4 :=
  match address.groups.toList with
  | [0, 0, 0, 0, 0, 0xffff, high, low] =>
    some ⟨(high >>> 8).toUInt8, high.toUInt8, (low >>> 8).toUInt8, low.toUInt8⟩
  | _ => none

def text (address : Ipv6) : String :=
  let groups := address.groups.toList
  match address.mapped?, longestRun groups with
  | some ipv4, _ => "::ffff:" ++ ipv4.text
  | none, (start, length) =>
    if 1 < length then
      groupsText (groups.take start) ++ "::" ++ groupsText (groups.drop (start + length))
    else groupsText groups

end Ipv6

def SocketAddress.text : SocketAddress → String
  | .v4 address port => address.text ++ ":" ++ toString port.toNat
  | .v6 address scope port =>
    let scope := if scope = 0 then "" else "%" ++ toString scope.toNat
    "[" ++ address.text ++ scope ++ "]:" ++ toString port.toNat

/-! ## Reading -/

namespace SocketAddress

/-- The value of a digit in a base of at most sixteen. -/
def digitIn? (base : Nat) (c : Char) : Option Nat :=
  (Uuid.digitValue? c).filter (· < base)

/-- Read a number below the limit, and what follows it. -/
def readNumber (base limit : Nat) (text : List Char) : Option (Nat × List Char) :=
  let digits := text.takeWhile fun c => (digitIn? base c).isSome
  let value := (digits.filterMap (digitIn? base)).foldl (fun total digit => base * total + digit) 0
  if digits.isEmpty || limit ≤ value then none else some (value, text.drop digits.length)

/-- Read a given character. -/
def skip (c : Char) : List Char → Option (List Char)
  | d :: rest => if d = c then some rest else none
  | [] => none

/-- Read one part of a version 4 address: at most three digits, none of them a leading zero. -/
def readByte (text : List Char) : Option (Nat × List Char) := do
  let (value, rest) ← readNumber 10 256 text
  let length := text.length - rest.length
  if 3 < length || (text.head? == some '0' && 1 < length) then none else some (value, rest)

def readIpv4 (text : List Char) : Option (Ipv4 × List Char) := do
  let (first, rest) ← readByte text
  let (second, rest) ← readByte (← skip '.' rest)
  let (third, rest) ← readByte (← skip '.' rest)
  let (fourth, rest) ← readByte (← skip '.' rest)
  return (⟨.ofNat first, .ofNat second, .ofNat third, .ofNat fourth⟩, rest)

/-- Read one group of a version 6 address: at most four hexadecimal digits. -/
def readGroup (text : List Char) : Option (Nat × List Char) := do
  let (value, rest) ← readNumber 16 65536 text
  if 4 < text.length - rest.length then none else some (value, rest)

/-- The two groups that a version 4 address takes. -/
def groupsOf (address : Ipv4) : List Nat :=
  [256 * address.first.toNat + address.second.toNat,
    256 * address.third.toNat + address.fourth.toNat]

/-- Groups of a version 6 address. -/
structure Groups where
  values : List Nat
  /-- Whether the last two are written as a version 4 address. -/
  embedded : Bool
  rest : List Char

/-- Read as many groups as there are, but no more than there is room for. -/
def readGroups (first : Bool) (text : List Char) : Nat → Groups
  | 0 => ⟨[], false, text⟩
  | room + 1 =>
    let next := if first then some text else skip ':' text
    match (if 0 < room then next.bind readIpv4 else none) with
    | some (address, rest) => ⟨groupsOf address, true, rest⟩
    | none =>
      match next.bind readGroup with
      | none => ⟨[], false, text⟩
      | some (group, rest) =>
        let more := readGroups false rest room
        { more with values := group :: more.values }

/-- Read a version 6 address, in which two colons stand for at least one zero group. -/
def readIpv6 (text : List Char) : Option (Ipv6 × List Char) :=
  let head := readGroups true text 8
  if head.values.length = 8 then some (⟨address head.values⟩, head.rest)
  else if head.embedded then none
  else do
    let rest ← skip ':' (← skip ':' head.rest)
    let tail := readGroups true rest (7 - head.values.length)
    let zeros := List.replicate (8 - head.values.length - tail.values.length) 0
    return (⟨address (head.values ++ zeros ++ tail.values)⟩, tail.rest)
where
  address (values : List Nat) : Vector UInt16 8 :=
    .ofFn fun place => UInt16.ofNat (values.getD place.val 0)

/-- Read a port after a colon. -/
def readPort (text : List Char) : Option (Nat × List Char) := do
  readNumber 10 65536 (← skip ':' text)

/-- Read the scope of an address after a percent sign. -/
def readScope (text : List Char) : Option (Nat × List Char) := do
  readNumber 10 4294967296 (← skip '%' text)

def readV4 (text : List Char) : Option (SocketAddress × List Char) := do
  let (address, rest) ← readIpv4 text
  let (port, rest) ← readPort rest
  return (.v4 address (.ofNat port), rest)

def readV6 (text : List Char) : Option (SocketAddress × List Char) := do
  let (address, rest) ← readIpv6 (← skip '[' text)
  let (scope, rest) := (readScope rest).getD (0, rest)
  let (port, rest) ← readPort (← skip ']' rest)
  return (.v6 address (.ofNat scope) (.ofNat port), rest)

/-- Read a socket address. -/
def read? (text : String) : Option SocketAddress :=
  match (readV4 text.toList).or (readV6 text.toList) with
  | some (address, []) => some address
  | _ => none

end SocketAddress

end FlowDiagram
