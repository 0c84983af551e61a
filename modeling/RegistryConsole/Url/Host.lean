import RegistryConsole.Text.Printable
import RegistryConsole.Url.Escape
import RegistryConsole.Url.Punycode

/-! # Hosts

The host of a web address: a name in ASCII, an address of four numbers, or an address of eight
numbers in brackets. Every spelling of a host has one text, by which hosts are compared. -/

namespace RegistryConsole

/-- Why a text is no URL. -/
inductive UrlFault where
  | noBase
  | emptyHost
  | badName
  | badCharacter
  | badPort
  | badIpv4
  | badIpv6
  deriving DecidableEq

/-- The text of a fault. -/
def UrlFault.message : UrlFault → String
  | .noBase => "relative URL without a base"
  | .emptyHost => "empty host"
  | .badName => "invalid international domain name"
  | .badCharacter => "invalid domain character"
  | .badPort => "invalid port number"
  | .badIpv4 => "invalid IPv4 address"
  | .badIpv6 => "invalid IPv6 address"

namespace Host

/-! ## Addresses of four numbers -/

/-- The number of a text in a base below 17, if all its characters are digits. -/
def numberIn? (base : Nat) (cs : List Char) : Option Nat :=
  cs.foldl (fun acc c =>
    let d := (Escape.hexValue? (UInt8.ofNat c.toNat)).filter fun d =>
      decide (d < base) && decide (c.toNat < 0x80)
    acc.bind fun n => d.map fun d => n * base + d) (some 0)

/-- The number of a part of an address: in base 16 after `0x`, in base 8 after `0`, else in
base 10. -/
def part? (cs : List Char) : Option Nat :=
  match cs with
  | [] => none
  | '0' :: 'x' :: rest | '0' :: 'X' :: rest => numberIn? 16 rest
  | '0' :: d :: rest => numberIn? 8 (d :: rest)
  | cs => numberIn? 10 cs

/-- The parts of a text between points; one point at the end does not count. -/
def parts (cs : List Char) : List (List Char) :=
  let all := cs.splitOnP (· == '.')
  if all.getLast? = some [] then all.dropLast else all

/-- Whether a name ends in a number and so must be an address. -/
def endsInNumber (cs : List Char) : Bool :=
  match (parts cs).getLast? with
  | none => false
  | some last => (!last.isEmpty && last.all Char.isDigit) || (part? last).isSome

/-- The number of an address of one to four parts. The last part fills what the others leave. -/
def ipv4? (cs : List Char) : Option Nat :=
  match (parts cs).mapM part? with
  | none => none
  | some numbers =>
    let last := numbers.getLastD 0
    let above := numbers.dropLast
    if numbers.length ≤ 4 ∧ above.all (· ≤ 255) ∧ last < Nat.pow 256 (4 - above.length) then
      some (above.foldr (fun n acc => n * 0x1000000 + acc / 256) 0 + last)
    else none

/-- The text of an address of four numbers. -/
def ipv4Text (n : Nat) : List Char :=
  let part (k : Nat) : List Char := Nat.toDigits 10 (n / Nat.pow 256 k % 256)
  part 3 ++ '.' :: part 2 ++ '.' :: part 1 ++ '.' :: part 0

/-! ## Addresses of eight numbers -/

/-- The number of one to four digits in base 16. -/
def piece? (cs : List Char) : Option Nat :=
  if cs = [] ∨ 4 < cs.length then none else numberIn? 16 cs

/-- The two numbers of four decimal numbers with points between them, none with a leading zero. -/
def embedded? (cs : List Char) : Option (List Nat) :=
  let number? (p : List Char) : Option Nat :=
    if p = [] ∨ 3 < p.length ∨ (p.head? = some '0' ∧ 1 < p.length) then none
    else (numberIn? 10 p).filter (· ≤ 255)
  match (cs.splitOnP (· == '.')).mapM number? with
  | some [a, b, c, d] => some [a * 256 + b, c * 256 + d]
  | _ => none

/-- The numbers of pieces with colons between them; the last may be an embedded address. -/
def pieces? (cs : List Char) : Option (List Nat) :=
  if cs = [] then some []
  else
    let texts := cs.splitOnP (· == ':')
    let last := texts.getLastD []
    let lastNumbers := if last.contains '.' then embedded? last else (piece? last).map ([·])
    match texts.dropLast.mapM piece?, lastNumbers with
    | some front, some back => some (front ++ back)
    | _, _ => none

/-- The text before the first two colons and the text after them. -/
def splitDouble? : List Char → Option (List Char × List Char)
  | ':' :: ':' :: rest => some ([], rest)
  | c :: rest => (splitDouble? rest).map fun (a, b) => (c :: a, b)
  | [] => none

/-- The eight numbers of an address. Two colons stand for as many zeros as are missing. -/
def ipv6? (cs : List Char) : Option (List Nat) :=
  match splitDouble? cs with
  | none => (pieces? cs).filter (·.length == 8)
  | some (front, back) =>
    if (splitDouble? (':' :: back)).isSome ∨ front.contains '.' then none
    else match pieces? front, pieces? back with
      | some a, some b =>
        if a.length + b.length < 8 then some (a ++ List.replicate (8 - a.length - b.length) 0 ++ b)
        else none
      | _, _ => none

/-- The longest run of zeros, the first of several: where it starts and how long it is. -/
def zeroRun (numbers : List Nat) : Nat × Nat :=
  (List.range numbers.length).foldl (fun best start =>
    let length := ((numbers.drop start).takeWhile (· == 0)).length
    if best.2 < length then (start, length) else best) (0, 0)

/-- Numbers in base 16 with colons between them. -/
def colonText (numbers : List Nat) : List Char :=
  List.intercalate [':'] (numbers.map (Nat.toDigits 16))

/-- The text of an address of eight numbers: two colons for the longest run of zeros. -/
def ipv6Text (numbers : List Nat) : List Char :=
  let (start, length) := zeroRun numbers
  if length < 2 then '[' :: colonText numbers ++ [']']
  else
    '[' :: colonText (numbers.take start) ++ [':', ':'] ++
      colonText (numbers.drop (start + length)) ++ [']']

/-! ## Names -/

/-- Capitals with the same distance between them, each as far from its small letter as any other. -/
structure Capitals where
  first : Nat
  last : Nat
  step : Nat
  distance : Int

/-- Whether the character with a code is one of the capitals. -/
def Capitals.has (r : Capitals) (code : Nat) : Bool :=
  r.first ≤ code && code ≤ r.last && (code - r.first) % r.step == 0

/-- The capitals outside ASCII that have one small letter, in the order of their codes. -/
def capitals : List Capitals :=
  [⟨0xC0, 0xD6, 1, 32⟩, ⟨0xD8, 0xDE, 1, 32⟩, ⟨0x100, 0x12E, 2, 1⟩, ⟨0x134, 0x136, 2, 1⟩,
    ⟨0x139, 0x13D, 2, 1⟩, ⟨0x141, 0x147, 2, 1⟩, ⟨0x14A, 0x176, 2, 1⟩, ⟨0x178, 0x178, 1, -121⟩,
    ⟨0x179, 0x17D, 2, 1⟩, ⟨0x181, 0x181, 1, 210⟩, ⟨0x182, 0x184, 2, 1⟩, ⟨0x186, 0x186, 1, 206⟩,
    ⟨0x187, 0x187, 1, 1⟩, ⟨0x189, 0x18A, 1, 205⟩, ⟨0x18B, 0x18B, 1, 1⟩, ⟨0x18E, 0x18E, 1, 79⟩,
    ⟨0x18F, 0x18F, 1, 202⟩, ⟨0x190, 0x190, 1, 203⟩, ⟨0x191, 0x191, 1, 1⟩, ⟨0x193, 0x193, 1, 205⟩,
    ⟨0x194, 0x194, 1, 207⟩, ⟨0x196, 0x196, 1, 211⟩, ⟨0x197, 0x197, 1, 209⟩, ⟨0x198, 0x198, 1, 1⟩,
    ⟨0x19C, 0x19C, 1, 211⟩, ⟨0x19D, 0x19D, 1, 213⟩, ⟨0x19F, 0x19F, 1, 214⟩, ⟨0x1A0, 0x1A4, 2, 1⟩,
    ⟨0x1A6, 0x1A6, 1, 218⟩, ⟨0x1A7, 0x1A7, 1, 1⟩, ⟨0x1A9, 0x1A9, 1, 218⟩, ⟨0x1AC, 0x1AC, 1, 1⟩,
    ⟨0x1AE, 0x1AE, 1, 218⟩, ⟨0x1AF, 0x1AF, 1, 1⟩, ⟨0x1B1, 0x1B2, 1, 217⟩, ⟨0x1B3, 0x1B5, 2, 1⟩,
    ⟨0x1B7, 0x1B7, 1, 219⟩, ⟨0x1B8, 0x1B8, 1, 1⟩, ⟨0x1BC, 0x1BC, 1, 1⟩, ⟨0x1CD, 0x1DB, 2, 1⟩,
    ⟨0x1DE, 0x1EE, 2, 1⟩, ⟨0x1F4, 0x1F4, 1, 1⟩, ⟨0x1F6, 0x1F6, 1, -97⟩, ⟨0x1F7, 0x1F7, 1, -56⟩,
    ⟨0x1F8, 0x21E, 2, 1⟩, ⟨0x220, 0x220, 1, -130⟩, ⟨0x222, 0x232, 2, 1⟩, ⟨0x23A, 0x23A, 1, 10795⟩,
    ⟨0x23B, 0x23B, 1, 1⟩, ⟨0x23D, 0x23D, 1, -163⟩, ⟨0x23E, 0x23E, 1, 10792⟩, ⟨0x241, 0x241, 1, 1⟩,
    ⟨0x243, 0x243, 1, -195⟩, ⟨0x244, 0x244, 1, 69⟩, ⟨0x245, 0x245, 1, 71⟩, ⟨0x246, 0x24E, 2, 1⟩,
    ⟨0x370, 0x372, 2, 1⟩, ⟨0x376, 0x376, 1, 1⟩, ⟨0x37F, 0x37F, 1, 116⟩, ⟨0x386, 0x386, 1, 38⟩,
    ⟨0x388, 0x38A, 1, 37⟩, ⟨0x38C, 0x38C, 1, 64⟩, ⟨0x38E, 0x38F, 1, 63⟩, ⟨0x391, 0x3A1, 1, 32⟩,
    ⟨0x3A3, 0x3AB, 1, 32⟩, ⟨0x3CF, 0x3CF, 1, 8⟩, ⟨0x3D8, 0x3EE, 2, 1⟩, ⟨0x3F4, 0x3F4, 1, -60⟩,
    ⟨0x3F7, 0x3F7, 1, 1⟩, ⟨0x3FA, 0x3FA, 1, 1⟩, ⟨0x3FD, 0x3FF, 1, -130⟩, ⟨0x400, 0x40F, 1, 80⟩,
    ⟨0x410, 0x42F, 1, 32⟩, ⟨0x460, 0x480, 2, 1⟩, ⟨0x48A, 0x4BE, 2, 1⟩, ⟨0x4C0, 0x4C0, 1, 15⟩,
    ⟨0x4C1, 0x4CD, 2, 1⟩, ⟨0x4D0, 0x52E, 2, 1⟩, ⟨0x531, 0x556, 1, 48⟩, ⟨0x10A0, 0x10C5, 1, 7264⟩,
    ⟨0x10C7, 0x10C7, 1, 7264⟩, ⟨0x10CD, 0x10CD, 1, 7264⟩, ⟨0x1C90, 0x1CBA, 1, -3008⟩,
    ⟨0x1CBD, 0x1CBF, 1, -3008⟩, ⟨0x1E00, 0x1E94, 2, 1⟩, ⟨0x1EA0, 0x1EFE, 2, 1⟩,
    ⟨0x1F08, 0x1F0F, 1, -8⟩, ⟨0x1F18, 0x1F1D, 1, -8⟩, ⟨0x1F28, 0x1F2F, 1, -8⟩,
    ⟨0x1F38, 0x1F3F, 1, -8⟩, ⟨0x1F48, 0x1F4D, 1, -8⟩, ⟨0x1F59, 0x1F5F, 2, -8⟩,
    ⟨0x1F68, 0x1F6F, 1, -8⟩, ⟨0x1FB8, 0x1FB9, 1, -8⟩, ⟨0x1FBA, 0x1FBA, 1, -74⟩,
    ⟨0x1FC8, 0x1FCA, 2, -86⟩, ⟨0x1FD8, 0x1FD9, 1, -8⟩, ⟨0x1FDA, 0x1FDA, 1, -100⟩,
    ⟨0x1FE8, 0x1FE9, 1, -8⟩, ⟨0x1FEA, 0x1FEA, 1, -112⟩, ⟨0x1FEC, 0x1FEC, 1, -7⟩,
    ⟨0x1FF8, 0x1FF8, 1, -128⟩, ⟨0x1FFA, 0x1FFA, 1, -126⟩, ⟨0x2126, 0x2126, 1, -7517⟩,
    ⟨0x212A, 0x212A, 1, -8383⟩, ⟨0x212B, 0x212B, 1, -8262⟩, ⟨0x2132, 0x2132, 1, 28⟩,
    ⟨0x2183, 0x2183, 1, 1⟩, ⟨0x2C00, 0x2C2F, 1, 48⟩, ⟨0x2C60, 0x2C60, 1, 1⟩,
    ⟨0x2C62, 0x2C62, 1, -10743⟩, ⟨0x2C63, 0x2C63, 1, -3814⟩, ⟨0x2C64, 0x2C64, 1, -10727⟩,
    ⟨0x2C67, 0x2C6B, 2, 1⟩, ⟨0x2C6D, 0x2C6D, 1, -10780⟩, ⟨0x2C6E, 0x2C6E, 1, -10749⟩,
    ⟨0x2C6F, 0x2C6F, 1, -10783⟩, ⟨0x2C70, 0x2C70, 1, -10782⟩, ⟨0x2C72, 0x2C72, 1, 1⟩,
    ⟨0x2C75, 0x2C75, 1, 1⟩, ⟨0x2C7E, 0x2C7F, 1, -10815⟩, ⟨0x2C80, 0x2CE2, 2, 1⟩,
    ⟨0x2CEB, 0x2CED, 2, 1⟩, ⟨0x2CF2, 0x2CF2, 1, 1⟩, ⟨0xA640, 0xA66C, 2, 1⟩, ⟨0xA680, 0xA69A, 2, 1⟩,
    ⟨0xA722, 0xA72E, 2, 1⟩, ⟨0xA732, 0xA76E, 2, 1⟩, ⟨0xA779, 0xA77B, 2, 1⟩,
    ⟨0xA77D, 0xA77D, 1, -35332⟩, ⟨0xA77E, 0xA786, 2, 1⟩, ⟨0xA78B, 0xA78B, 1, 1⟩,
    ⟨0xA78D, 0xA78D, 1, -42280⟩, ⟨0xA790, 0xA792, 2, 1⟩, ⟨0xA796, 0xA7A8, 2, 1⟩,
    ⟨0xA7AA, 0xA7AA, 1, -42308⟩, ⟨0xA7AB, 0xA7AB, 1, -42319⟩, ⟨0xA7AC, 0xA7AC, 1, -42315⟩,
    ⟨0xA7AD, 0xA7AD, 1, -42305⟩, ⟨0xA7AE, 0xA7AE, 1, -42308⟩, ⟨0xA7B0, 0xA7B0, 1, -42258⟩,
    ⟨0xA7B1, 0xA7B1, 1, -42282⟩, ⟨0xA7B2, 0xA7B2, 1, -42261⟩, ⟨0xA7B3, 0xA7B3, 1, 928⟩,
    ⟨0xA7B4, 0xA7C2, 2, 1⟩, ⟨0xA7C4, 0xA7C4, 1, -48⟩, ⟨0xA7C5, 0xA7C5, 1, -42307⟩,
    ⟨0xA7C6, 0xA7C6, 1, -35384⟩, ⟨0xA7C7, 0xA7C9, 2, 1⟩, ⟨0xA7D0, 0xA7D0, 1, 1⟩,
    ⟨0xA7D6, 0xA7D8, 2, 1⟩, ⟨0xA7F5, 0xA7F5, 1, 1⟩, ⟨0x10400, 0x10427, 1, 40⟩,
    ⟨0x104B0, 0x104D3, 1, 40⟩, ⟨0x10570, 0x1057A, 1, 39⟩, ⟨0x1057C, 0x1058A, 1, 39⟩,
    ⟨0x1058C, 0x10592, 1, 39⟩, ⟨0x10594, 0x10595, 1, 39⟩, ⟨0x10C80, 0x10CB2, 1, 64⟩,
    ⟨0x118A0, 0x118BF, 1, 32⟩, ⟨0x16E40, 0x16E5F, 1, 32⟩, ⟨0x1E900, 0x1E921, 1, 34⟩]

/-- The code of the character of ASCII that a character is a wide form of. -/
def narrow? (code : Nat) : Option Nat :=
  if 0xFF01 ≤ code ∧ code ≤ 0xFF5E then some (code - 0xFEE0)
  else if code = 0x3002 ∨ code = 0xFF61 then some 0x2E
  else none

/-- What stands for a character in a name: capitals become small, and the wide forms and full stops
of other scripts become those of ASCII. -/
def lowerLetter (c : Char) : Char :=
  let n := c.toNat
  if n < 0x80 then c.toLower
  else match narrow? n, capitals.find? (·.has n) with
    | some k, _ => (Char.ofNat k).toLower
    | none, some r => Char.ofNat (n + r.distance).toNat
    | none, none => c

/-- What is assumed of the mapping of names in UTS #46: `m` stands for the character `c`. In ASCII
nothing is assumed. Outside, single letters and the wide forms are mapped as there, and every other
character is assumed to stand for itself: none stands for several, and none are composed. -/
structure AssumedMapping (c m : Char) : Prop where
  ascii : c.toNat < 0x80 → m = c.toLower
  wide : ∀ k, narrow? c.toNat = some k → m = (Char.ofNat k).toLower
  capital : ∀ r ∈ capitals, r.has c.toNat = true → m = Char.ofNat (c.toNat + r.distance).toNat
  other : 0x80 ≤ c.toNat → narrow? c.toNat = none → (∀ r ∈ capitals, r.has c.toNat = false) →
    m = c

/-- The visible ASCII characters that no name has, since they have a meaning elsewhere in a URL. -/
def reserved : List Char :=
  ['%', '#', '/', ':', '<', '>', '?', '@', '[', '\\', ']', '^', '|']

/-- Whether a character may stand in a name. -/
def isNameChar (c : Char) : Bool :=
  let n := c.toNat
  if n < 0x80 then 0x20 < n && n != 0x7F && !reserved.contains c
  else isPrintable c

/-- Whether a label in ASCII that says it stands for another one does so. -/
def isGoodMarked (rest : List Char) : Bool :=
  match Punycode.decode? rest with
  | none => false
  | some label =>
    label.any (fun c => 0x80 ≤ c.toNat) && label.all isNameChar && label.map lowerLetter == label &&
      Punycode.encode label == rest

/-- A label of a name in ASCII. -/
def label? (cs : List Char) : Option (List Char) :=
  let isAscii := cs.all fun c => c.toNat < 0x80
  match cs with
  | 'x' :: 'n' :: '-' :: '-' :: rest => if isAscii && isGoodMarked rest then some cs else none
  | cs => some (if isAscii then cs else ['x', 'n', '-', '-'] ++ Punycode.encode cs)

/-- A name in ASCII and lower case. -/
def name? (cs : List Char) : Option (List Char) :=
  let lower := (cs.filter (· ≠ '\u00ad')).map lowerLetter
  if lower.all isNameChar then
    ((lower.splitOnP (· == '.')).mapM label?).map (List.intercalate ['.'])
  else none

/-! ## Any host -/

/-- The text of the host that a text in a web address names. -/
def ofText (cs : List Char) : Except UrlFault (List Char) :=
  match cs with
  | '[' :: rest =>
    if rest.getLast? = some ']' then
      match ipv6? rest.dropLast with
      | some numbers => .ok (ipv6Text numbers)
      | none => .error .badIpv6
    else .error .badIpv6
  | cs =>
    match (Utf8.decode? (Escape.decode (Utf8.encode cs))).bind name? with
    | none => .error .badName
    | some [] => .error .emptyHost
    | some name =>
      if endsInNumber name then
        match ipv4? name with
        | some n => .ok (ipv4Text n)
        | none => .error .badIpv4
      else .ok name

end Host

end RegistryConsole
