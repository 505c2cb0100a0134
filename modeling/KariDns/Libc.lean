import KariDns.Name.Text

/-! The C library functions the record codecs rest on.

Each definition follows the documented behaviour of the function it is named after, in the
C locale and with 64-bit `long`. A C string is a list of octets; an end pointer is the part
of the string still to read.
-/

namespace KariDns

open Octets DomainName List

/-! ### Characters and comparison -/

def isSpace (c : UInt8) : Bool := c == 32 || (9 ≤ c && c ≤ 13)

def upper (c : UInt8) : UInt8 := if 97 ≤ c ∧ c ≤ 122 then c - 32 else c

/-- `strcasecmp (a, b) == 0`. -/
def strcaseeq (a b : Text) : Bool := a.map lower == b.map lower

/-- `strncasecmp (a, b, n) == 0`. -/
def strncaseeq (a b : Text) (n : Nat) : Bool := (a.take n).map lower == (b.take n).map lower

/-- `strchr`: the text from the first `c` on. -/
def strchr (c : UInt8) (t : Text) : Option Text :=
  match t.dropWhile (· != c) with
  | [] => none
  | r => some r

/-- The text before the first `c` and, when there is one, the text behind it. -/
def splitAt (c : UInt8) (t : Text) : Text × Option Text :=
  (t.takeWhile (· != c), (strchr c t).map List.tail)

/-! ### Numbers -/

/-- The digits at the front of a text, added to `acc`. -/
def scanDigits : Nat → Text → Nat × Text
  | acc, [] => (acc, [])
  | acc, c :: t => if isDigit c then scanDigits (acc * 10 + (c.toNat - 48)) t else (acc, c :: t)

/-- Blanks, a sign and digits, as every `strto` function reads them in base ten. `none` is a
text without a number, where the end pointer is the text itself. -/
def scanNumber (s : Text) : Option (Bool × Nat × Text) :=
  let s := s.dropWhile isSpace
  let (neg, s) :=
    match s with
    | c :: t => if c = 45 then (true, t) else if c = 43 then (false, t) else (false, c :: t)
    | [] => (false, [])
  match s with
  | c :: _ => if isDigit c then some (neg, scanDigits 0 s) else none
  | [] => none

/-- `strtol (s, &end, 10)`. -/
def strtol (s : Text) : Int × Text :=
  match scanNumber s with
  | none => (0, s)
  | some (neg, v, rest) => (if neg then max (-2 ^ 63) (-(v : Int)) else min (2 ^ 63 - 1) v, rest)

/-- `strtoull (s, &end, 10)`, which is also `strtoul`. -/
def strtoull (s : Text) : Nat × Text :=
  match scanNumber s with
  | none => (0, s)
  | some (neg, v, rest) =>
    (if v ≥ 2 ^ 64 then 2 ^ 64 - 1 else if neg then (2 ^ 64 - v) % 2 ^ 64 else v, rest)

/-- `snprintf ("%u", n)`. -/
def decimal (n : Nat) : Text := (Nat.toDigits 10 n).map Char.toUInt8

/-- One `%<width>d` conversion of `sscanf`: blanks are skipped and not counted, a sign is. -/
def scanInt (width : Nat) (s : Text) : Option (Int × Text) :=
  let s := s.dropWhile isSpace
  let (neg, signed, t) :=
    match s with
    | c :: t => if c = 45 then (true, 1, t) else if c = 43 then (false, 1, t) else (false, 0, s)
    | [] => (false, 0, [])
  let digits := (t.take (width - signed)).takeWhile isDigit
  if digits = [] then none
  else
    let v : Int := (scanDigits 0 digits).1
    some (if neg then -v else v, t.drop digits.length)

/-! ### Internet addresses -/

/-- One decimal octet of a dotted quad: no sign, no leading zero, at most 255. -/
def dottedOctet (t : Text) : Option UInt8 :=
  if t = [] ∨ ¬ t.all isDigit ∨ (t.length > 1 ∧ t.head? = some 48) then none
  else
    let v := (scanDigits 0 t).1
    if v > 255 then none else some (UInt8.ofNat v)

/-- The parts of a text between the dots. -/
def splitOn (c : UInt8) : Text → List Text
  | [] => [[]]
  | d :: t =>
    if d = c then [] :: splitOn c t
    else
      match splitOn c t with
      | [] => [[d]]
      | p :: ps => (d :: p) :: ps

lemma splitOn_none {c : UInt8} : ∀ {t : Text}, c ∉ t → splitOn c t = [t]
  | [], _ => rfl
  | d :: t, h => by
    rw [mem_cons, not_or] at h
    rw [splitOn, if_neg (Ne.symm h.1), splitOn_none h.2]

lemma splitOn_append {c : UInt8} (t : Text) :
    ∀ {p : Text}, c ∉ p → splitOn c (p ++ c :: t) = p :: splitOn c t
  | [], _ => by rw [nil_append, splitOn, if_pos rfl]
  | d :: p, h => by
    rw [mem_cons, not_or] at h
    rw [cons_append, splitOn, if_neg (Ne.symm h.1), splitOn_append t h.2]

/-- `inet_pton (AF_INET, t)`. -/
def inetPton4 (t : Text) : Option (List UInt8) :=
  match splitOn 46 t with
  | [a, b, c, d] => do return [← dottedOctet a, ← dottedOctet b, ← dottedOctet c, ← dottedOctet d]
  | _ => none

/-- `inet_ntop (AF_INET, a)`. -/
def inetNtop4 : List UInt8 → Text
  | [a, b, c, d] =>
    decimal a.toNat ++ 46 :: decimal b.toNat ++ 46 :: decimal c.toNat ++ 46 :: decimal d.toNat
  | _ => []

/-- `hex_char_to_val`, `none` for -1. -/
def hexCharToVal (c : UInt8) : Option Nat :=
  if 48 ≤ c ∧ c ≤ 57 then some (c.toNat - 48)
  else if 97 ≤ c ∧ c ≤ 102 then some (c.toNat - 97 + 10)
  else if 65 ≤ c ∧ c ≤ 70 then some (c.toNat - 65 + 10)
  else none

/-- A group of one to four hexadecimal digits. -/
def hexGroup (t : Text) : Option Nat :=
  if t = [] ∨ t.length > 4 then none
  else t.foldl (fun acc c => do return (← acc) * 16 + (← hexCharToVal c)) (some 0)

/-- The 16-bit groups of one side of an IPv6 text; the last one may be a dotted quad. -/
def hexGroups (allowQuad : Bool) : List Text → Option (List UInt8)
  | [] => some []
  | [t] =>
    match hexGroup t with
    | some g => some (be16 g)
    | none => if allowQuad then inetPton4 t else none
  | t :: ts => do return be16 (← hexGroup t) ++ (← hexGroups allowQuad ts)

/-- The text before the first `::` and the text behind it. -/
def splitDoubleColon : Text → Option (Text × Text)
  | 58 :: 58 :: t => some ([], t)
  | c :: t => (splitDoubleColon t).map fun (a, b) => (c :: a, b)
  | [] => none

/-- The groups of a text that has no `::`, none at all for the empty text. -/
def groupsOf (allowQuad : Bool) (t : Text) : Option (List UInt8) :=
  if t = [] then some [] else hexGroups allowQuad (splitOn 58 t)

/-- `inet_pton (AF_INET6, t)`: eight groups, or fewer with one `::` for the zeros left out. -/
def inetPton6 (t : Text) : Option (List UInt8) :=
  match splitDoubleColon t with
  | none => do
    let a ← groupsOf true t
    if a.length = 16 then some a else none
  | some (before, behind) => do
    let a ← groupsOf false before
    let b ← groupsOf true behind
    if a.length + b.length < 16 then
      some (a ++ List.replicate (16 - a.length - b.length) 0 ++ b)
    else none

/-- Lower-case hexadecimal without leading zeros, `%x`. -/
def hexText (n : Nat) : Text := (Nat.toDigits 16 n).map Char.toUInt8

/-- The 16-bit words of an address. -/
def wordsOf : List UInt8 → List Nat
  | a :: b :: t => (a.toNat * 256 + b.toNat) :: wordsOf t
  | _ => []

/-- Length of the run of zero words at the front. -/
def zeroRun : List Nat → Nat
  | 0 :: t => zeroRun t + 1
  | _ => 0

/-- The first longest run of zero words: its place and its length. -/
def bestRun : Nat → List Nat → Nat × Nat
  | _, [] => (0, 0)
  | i, w :: t =>
    let r := bestRun (i + 1) t
    if zeroRun (w :: t) ≥ r.2 ∧ zeroRun (w :: t) > 0 then (i, zeroRun (w :: t)) else r

/-- Words joined with colons. -/
def joinHex : List Nat → Text
  | [] => []
  | [w] => hexText w
  | w :: ws => hexText w ++ 58 :: joinHex ws

/-- `inet_ntop (AF_INET6, a)`: the first longest run of at least two zero words becomes `::`,
and an address that holds an IPv4 address ends in a dotted quad. -/
def inetNtop6 (a : List UInt8) : Text :=
  let ws := wordsOf a
  let (base, len) := bestRun 0 ws
  if len < 2 then joinHex ws
  else if base = 0 ∧ (len = 6 ∨ (len = 5 ∧ ws.getD 5 0 = 0xFFFF)) then
    (if len = 6 then [58, 58] else 58 :: 58 :: hexText 0xFFFF ++ [58]) ++ inetNtop4 (a.drop 12)
  else joinHex (ws.take base) ++ [58, 58] ++ joinHex (ws.drop (base + len))

/-! ### Base64 -/

/-- The value of a base64 character; `EVP_DecodeBlock` reads `=` as zero bits. -/
def base64Val (c : UInt8) : Option Nat :=
  if 65 ≤ c ∧ c ≤ 90 then some (c.toNat - 65)
  else if 97 ≤ c ∧ c ≤ 122 then some (c.toNat - 97 + 26)
  else if 48 ≤ c ∧ c ≤ 57 then some (c.toNat - 48 + 52)
  else if c = 43 then some 62
  else if c = 47 then some 63
  else if c = 61 then some 0
  else none

/-- Blanks that `EVP_DecodeBlock` skips at the start. -/
def isBase64Blank (c : UInt8) : Bool := c == 32 || c == 9

/-- Characters that `EVP_DecodeBlock` drops at the end. -/
def isBase64End (c : UInt8) : Bool := isBase64Blank c || c == 10 || c == 13 || c == 45

/-- Drop trailing characters while more than three are left. -/
def trimBase64End : Nat → Text → Text
  | 0, t => t
  | fuel + 1, t =>
    if t.length > 3 ∧ t.getLast?.any isBase64End then trimBase64End fuel t.dropLast else t

/-- Four characters are three octets. -/
def decodeQuads : Text → Option (List UInt8)
  | [] => some []
  | a :: b :: c :: d :: t => do
    let v := (← base64Val a) * 262144 + (← base64Val b) * 4096 +
      (← base64Val c) * 64 + (← base64Val d)
    return UInt8.ofNat (v / 65536) :: UInt8.ofNat (v / 256) :: UInt8.ofNat v :: (← decodeQuads t)
  | _ => none

/-- `EVP_DecodeBlock`: surrounding blanks are trimmed, then three octets for every four
characters; `none` is the return value -1. -/
def evpDecodeBlock (t : Text) : Option (List UInt8) :=
  let t := t.dropWhile isBase64Blank
  decodeQuads (trimBase64End t.length t)

end KariDns
