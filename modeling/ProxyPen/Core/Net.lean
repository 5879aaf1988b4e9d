import ProxyPen.Core.Protocol
import Mathlib.Data.Vector.Basic

/-!
# Network Addresses

IP and socket addresses, and the text parser of the standard library's
`IpAddr::from_str`. The parser works on the bytes of the text. Each of its
functions returns what it has read together with the bytes it has left, or
nothing where the source restores its position and reports none.

A host name is text to the rest of the program, and whether it is an address
is decided by this parser alone, `parseIpAddr`.

## Main definitions

* `IpAddr`, `SocketAddr`: Addresses.
* `readNumber`: A number with a bound on its digits.
* `readIpv4Addr`, `readIpv6Addr`: The two text forms.
* `parseIpAddr`: A text that is an address from its first byte to its last.
* `ipv4Text`: The text of an IPv4 address.
-/

namespace ProxyPen

namespace Net

open Protocol

inductive IpAddr where
  | v4 (octets : List.Vector UInt8 4)
  | v6 (octets : List.Vector UInt8 16)
  deriving DecidableEq

structure SocketAddr where
  ip : IpAddr
  port : UInt16
  deriving DecidableEq

/-- `char::to_digit` of a byte taken for a character. -/
def toDigit (radix : Nat) (b : UInt8) : Option Nat :=
  let digit :=
    if 48 ≤ b.toNat ∧ b.toNat ≤ 57 then some (b.toNat - 48)
    else if 97 ≤ b.toNat ∧ b.toNat ≤ 122 then some (b.toNat - 87)
    else if 65 ≤ b.toNat ∧ b.toNat ≤ 90 then some (b.toNat - 55)
    else none
  digit.filter (fun d => d < radix)

/-- Read digits while there are any: the number so far, how many there were,
    and the bytes behind them. One digit too many is an error. -/
def readDigits (radix maxDigits : Nat) : Nat → Nat → Bytes → Option (Nat × Nat × Bytes)
  | result, count, [] => some (result, count, [])
  | result, count, b :: bs => match toDigit radix b with
    | none => some (result, count, b :: bs)
    | some d =>
        if count + 1 > maxDigits then none
        else readDigits radix maxDigits (result * radix + d) (count + 1) bs

/-- `read_number` for an integer type with the given number of values. -/
def readNumber (radix maxDigits values : Nat) (allowZeroPrefix : Bool) (input : Bytes) :
    Option (Nat × Bytes) := do
  let (result, count, rest) ← readDigits radix maxDigits 0 0 input
  if count = 0 then none
  else if allowZeroPrefix = false ∧ input.head? = some 48 ∧ count > 1 then none
  else if result < values then some (result, rest)
  else none

/-- `read_separator`: the separator stands in front of all but the first. -/
def readSeparator {α : Type} (sep : UInt8) (index : Nat) (inner : Bytes → Option (α × Bytes))
    (input : Bytes) : Option (α × Bytes) :=
  if index > 0 then
    match input with
    | [] => none
    | b :: bs => if b = sep then inner bs else none
  else inner input

/-! ## Version 4 -/

def readOctet (input : Bytes) : Option (UInt8 × Bytes) := do
  -- An octal number would start with a zero.
  let (n, rest) ← readNumber 10 3 256 false input
  some (UInt8.ofNat n, rest)

def readIpv4Addr (input : Bytes) : Option (List.Vector UInt8 4 × Bytes) := do
  let (a, input) ← readSeparator 46 0 readOctet input
  let (b, input) ← readSeparator 46 1 readOctet input
  let (c, input) ← readSeparator 46 2 readOctet input
  let (d, input) ← readSeparator 46 3 readOctet input
  some (.cons a (.cons b (.cons c (.cons d .nil))), input)

/-! ## Version 6 -/

def readGroup (input : Bytes) : Option (Nat × Bytes) := readNumber 16 4 65536 true input

/-- `read_groups`: up to `left` groups behind `i` earlier ones, and whether an
    embedded IPv4 address ended them. -/
def readGroups : Nat → Nat → Bytes → List Nat × Bool × Bytes
  | 0, _, input => ([], false, input)
  | left + 1, i, input =>
      -- An embedded address stands for two groups, so there must be room for them.
      match if 0 < left then readSeparator 58 i readIpv4Addr input else none with
      | some (ip, rest) => ([beNat (ip.toList.take 2), beNat (ip.toList.drop 2)], true, rest)
      | none => match readSeparator 58 i readGroup input with
        | none => ([], false, input)
        | some (group, rest) =>
            let (groups, ipv4, rest) := readGroups left (i + 1) rest
            (group :: groups, ipv4, rest)

/-- `read_given_char` -/
def readGiven (b : UInt8) : Bytes → Option Bytes
  | [] => none
  | c :: rest => if c = b then some rest else none

/-- The octets of eight groups. -/
def octetsOf (groups : List Nat) : List.Vector UInt8 16 :=
  List.Vector.ofFn (fun i => (beBytes 2 (groups.getD (i.val / 2) 0)).getD (i.val % 2) 0)

def readIpv6Addr (input : Bytes) : Option (List.Vector UInt8 16 × Bytes) :=
  let (head, ipv4, input) := readGroups 8 0 input
  if head.length = 8 then some (octetsOf head, input)
  -- An embedded address is not allowed in front of `::`.
  else if ipv4 then none
  else do
    let input ← readGiven 58 input
    let input ← readGiven 58 input
    -- `::` stands for at least one group.
    let (tail, _, input) := readGroups (8 - (head.length + 1)) 0 input
    let zeros := List.replicate (8 - head.length - tail.length) 0
    some (octetsOf (head ++ zeros ++ tail), input)

/-! ## Either -/

def readIpAddr (input : Bytes) : Option (IpAddr × Bytes) :=
  match readIpv4Addr input with
  | some (ip, rest) => some (.v4 ip, rest)
  | none => match readIpv6Addr input with
    | some (ip, rest) => some (.v6 ip, rest)
    | none => none

/-- `parse::<IpAddr>()`: the whole text is one address. -/
def parseIpAddr (text : String) : Option IpAddr :=
  match readIpAddr (strBytes text) with
  | some (ip, []) => some ip
  | _ => none

/-- The dotted form of an address, four decimal numbers. -/
def ipv4Text (ip : List.Vector UInt8 4) : String :=
  let octet (i : Fin 4) : String := toString (ip.get i).toNat
  octet 0 ++ "." ++ octet 1 ++ "." ++ octet 2 ++ "." ++ octet 3

end Net

end ProxyPen
