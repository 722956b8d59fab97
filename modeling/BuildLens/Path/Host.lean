import BuildLens.Text.Split

/-!
# Hosts in URIs

The authority of a URI names a host, perhaps after a user and before a port. Numeric hosts stand
between brackets, and what stands there has to be an IPv6 address or an address of a later version.
An authority that holds brackets has to name its host by such an address. Characters whose
compatibility form would end the authority may not occur in it.

Main definitions:

- `Host.namesAddress`: whether a host and its port name the host by an address.
- `Host.isValidAuthority`: whether the text between `//` and the path can be an authority.
-/

namespace BuildLens.Host

open Text (splitAt cutAt cutAfterLast)

/-- Whether the character is a hexadecimal digit. -/
def isHex (c : Char) : Bool :=
  c.isDigit || (decide ('a' ≤ c) && decide (c ≤ 'f')) || (decide ('A' ≤ c) && decide (c ≤ 'F'))

/-- Whether the text is a number from 0 to 255 without needless zeros. -/
def isOctet (cs : List Char) : Bool :=
  !cs.isEmpty && cs.all Char.isDigit && decide (cs.length ≤ 3) &&
    (cs.length == 1 || cs.head? != some '0') &&
    decide (cs.foldl (fun n c => 10 * n + (c.toNat - 48)) 0 ≤ 255)

/-- Whether the text is an IPv4 address. -/
def isIPv4 (cs : List Char) : Bool :=
  let parts := splitAt '.' cs
  parts.length == 4 && parts.all isOctet

/-- Whether the text is one group of an IPv6 address. -/
def isGroup (cs : List Char) : Bool :=
  !cs.isEmpty && cs.all isHex && decide (cs.length ≤ 4)

/-- Whether the groups, some of them perhaps empty, form an IPv6 address. At most one run of groups
is left out, which shows as one empty group inside, or two at an end. -/
def isGroups (groups : List (List Char)) : Bool :=
  let n := groups.length
  let inner := (groups.drop 1).dropLast
  match (inner.zipIdx.filter (·.1.isEmpty)).map (·.2) with
  | [] => n == 8 && groups.all isGroup
  | [i] =>
    let high := groups.take (i + 1)
    let low := groups.drop (i + 2)
    let high' := if high.head? == some [] then high.drop 1 else high
    let low' := if low.getLast? == some [] then low.dropLast else low
    (high'.length == high.length || high'.isEmpty) && (low'.length == low.length || low'.isEmpty) &&
      decide (high'.length + low'.length < 8) && high'.all isGroup && low'.all isGroup
  | _ => false

/-- Whether the text is an IPv6 address, perhaps with a zone after a percent sign. -/
def isIPv6 (cs : List Char) : Bool :=
  let (address, zone) := cutAt '%' cs
  let zoneOk := zone.all fun z => !z.isEmpty && !z.contains '%'
  let groups := splitAt ':' address
  let tail := groups.getLastD []
  let groups? :=
    if tail.contains '.' then
      if isIPv4 tail then some (groups.dropLast ++ [['0'], ['0']]) else none
    else some groups
  zoneOk && decide (3 ≤ (splitAt ':' address).length) && match groups? with
    | some groups => decide (groups.length ≤ 9) && isGroups groups
    | none => false

/-- Whether the text is an address of a later version: `v`, hexadecimal digits, a dot, and more. -/
def isLaterVersion : List Char → Bool
  | 'v' :: rest =>
    let digits := rest.takeWhile isHex
    match rest.dropWhile isHex with
    | '.' :: c :: more => !digits.isEmpty && (c :: more).all (· != '\n')
    | _ => false
  | _ => false

/-- Whether the text is an address of a kind that stands between brackets. -/
def isAddress (cs : List Char) : Bool :=
  if cs.head? == some 'v' then isLaterVersion cs else isIPv6 cs

/-- Whether a host and its port name the host by an address. Nothing stands before the brackets
around it, and nothing but a port after them. Without brackets the address ends before the port. -/
def namesAddress (cs : List Char) : Bool :=
  match cutAt '[' cs with
  | (before, some inside) =>
    let (address, after) := cutAt ']' inside
    before.isEmpty && isAddress address && (after.getD []).head?.all (· == ':')
  | (_, none) => isAddress (cutAt ':' cs).1

/-- Characters whose compatibility form holds one of the characters that end an authority. -/
def breaksAuthority (c : Char) : Bool :=
  [0x2047, 0x2048, 0x2049, 0x2100, 0x2101, 0x2105, 0x2106, 0x2A74, 0xFE13, 0xFE16, 0xFE55, 0xFE56,
    0xFE5F, 0xFE6B, 0xFF03, 0xFF0F, 0xFF1A, 0xFF1F, 0xFF20].contains c.toNat

/-- Whether the text can be the authority of a URI. Its host and port follow the last at sign. -/
def isValidAuthority (cs : List Char) : Bool :=
  (cs.contains '[' == cs.contains ']') &&
    (!cs.contains '[' || namesAddress (cutAfterLast (· == '@') cs).2) &&
    !cs.any breaksAuthority

end BuildLens.Host
