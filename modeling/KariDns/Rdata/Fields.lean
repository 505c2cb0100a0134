import Mathlib.Data.List.Sort
import KariDns.Libc
import KariDns.Wire.Script

/-! Fields of RDATA in presentation form.

The field readers of the record writer: integers, record type mnemonics, TTLs, DNSSEC times,
hexadecimal, base32hex and base64 data, character strings, type bitmaps, node identifiers and
geographical positions. A reader returns `none` where the source returns an error; the script
of a field is what the writer does with it.
-/

namespace KariDns

open Octets DomainName

/-! ### Integers -/

/-- `strtol` on a whole string, within `0 .. bound`. -/
def parseBounded (bound : Nat) (s : Text) : Option Nat :=
  if s = [] then none
  else
    let (v, rest) := strtol s
    if rest ≠ [] ∨ v < 0 ∨ v > bound then none else some v.toNat

/-- `parse_u8`. -/
def parseU8 (s : Text) : Option Nat := parseBounded 255 s

/-- `parse_u16`. -/
def parseU16 (s : Text) : Option Nat := parseBounded 65535 s

/-- `(uint32_t) strtoul (s, NULL, 10)`. -/
def strtoul32 (s : Text) : Nat := (strtoull s).1 % 2 ^ 32

/-- The factor of a TTL unit letter. -/
def ttlUnit (c : UInt8) : Option Nat :=
  let c := lower c
  if c = 115 then some 1
  else if c = 109 then some 60
  else if c = 104 then some 3600
  else if c = 100 then some 86400
  else if c = 119 then some 604800
  else none

/-- One number more in the sum of `parse_ttl_value`, in 64 bits. -/
def ttlAdd (total num mult : Nat) : Nat :=
  if num > 2147483647 / mult ∨ total > 2147483647 then 2147483648
  else (total + num * mult % 2 ^ 64) % 2 ^ 64

/-- The loop of `parse_ttl_value` over numbers with units. -/
def ttlLoop : Nat → Nat → Text → Nat
  | 0, _, _ => 3600
  | _ + 1, total, [] => min total 2147483647
  | fuel + 1, total, c :: p =>
    match scanNumber (c :: p) with
    | none => 3600
    | some _ =>
      let (num, rest) := strtoull (c :: p)
      match rest with
      | [] => ttlLoop fuel (ttlAdd total num 1) []
      | u :: rest =>
        match ttlUnit u with
        | none => 3600
        | some mult => ttlLoop fuel (ttlAdd total num mult) rest

/-- `parse_ttl_value`. -/
def parseTtlValue (s : Text) : Nat :=
  if s = [] then 3600
  else if s.all isDigit then min (strtoull s).1 2147483647
  else ttlLoop (s.length + 1) 0 s

/-! ### Record types -/

/-- The mnemonics `type_code_upper` knows. -/
def typeMnemonics : List (String × Nat) := [
  ("A", 1), ("AAAA", 28), ("AFSDB", 18), ("ATMA", 34), ("A6", 38), ("APL", 42), ("ANY", 255),
  ("AVC", 258), ("AMTRELAY", 260), ("AXFR", 252), ("BRID", 68), ("CNAME", 5), ("CERT", 37),
  ("CDS", 59), ("CDNSKEY", 60), ("CSYNC", 62), ("CAA", 257), ("DS", 43), ("DNAME", 39),
  ("DNSKEY", 48), ("DHCID", 49), ("DOA", 259), ("DLV", 32769), ("DSYNC", 66), ("EID", 31),
  ("EUI48", 108), ("EUI64", 109), ("GPOS", 27), ("GID", 102), ("HINFO", 13), ("HTTPS", 65),
  ("HIP", 55), ("HHIT", 67), ("ISDN", 20), ("IPSECKEY", 45), ("IXFR", 251), ("KEY", 25),
  ("KX", 36), ("LOC", 29), ("L32", 105), ("L64", 106), ("LP", 107), ("MX", 15), ("MD", 3),
  ("MF", 4), ("MB", 7), ("MG", 8), ("MR", 9), ("MINFO", 14), ("MAILB", 253), ("MAILA", 254),
  ("NS", 2), ("NULL", 10), ("NSAP", 22), ("NSAP-PTR", 23), ("NXT", 30), ("NIMLOC", 32),
  ("NXNAME", 128), ("NAPTR", 35), ("NSEC", 47), ("NSEC3", 50), ("NSEC3PARAM", 51),
  ("NINFO", 56), ("NID", 104), ("OPT", 41), ("OPENPGPKEY", 61), ("PTR", 12), ("PX", 26),
  ("RP", 17), ("RT", 21), ("RKEY", 57), ("RRSIG", 46), ("RESINFO", 261), ("SOA", 6),
  ("SRV", 33), ("SIG", 24), ("SINK", 40), ("SSHFP", 44), ("SMIMEA", 53), ("SVCB", 64),
  ("SPF", 99), ("TXT", 16), ("TLSA", 52), ("TALINK", 58), ("TKEY", 249), ("TSIG", 250),
  ("TA", 32768), ("URI", 256), ("UINFO", 100), ("UID", 101), ("UNSPEC", 103), ("WKS", 11),
  ("WALLET", 262), ("X25", 19), ("ZONEMD", 63)]

/-- `type_code_upper`: a mnemonic, else `TYPE` and a number (RFC 3597), else 0. -/
def typeCodeUpper (t : Text) : Nat :=
  match typeMnemonics.find? fun e => ascii e.1 == t with
  | some e => e.2
  | none =>
    if t.take 4 = ascii "TYPE" then
      let (v, rest) := strtol (t.drop 4)
      if rest = [] ∧ 0 < v ∧ v ≤ 65535 then v.toNat else 0
    else 0

/-- `get_type_code`: any letter case, at most 23 characters. -/
def getTypeCode (t : Text) : Nat := if t.length ≥ 24 then 0 else typeCodeUpper (t.map upper)

/-- `is_meta_rrtype`. -/
def isMetaRrtype (t : Nat) : Bool := t == 41 || t == 128 || (249 ≤ t && t ≤ 255)

/-- The certificate type mnemonics of RFC 4398. -/
def certMnemonics : List (String × Nat) := [("PKIX", 1), ("SPKI", 2), ("PGP", 3), ("IPKIX", 4),
  ("ISPKI", 5), ("IPGP", 6), ("ACPKIX", 7), ("IACPKIX", 8), ("URI", 253), ("OID", 254)]

/-- `cert_type_to_num`. -/
def certTypeToNum (s : Text) : Option Nat :=
  match certMnemonics.find? fun e => strcaseeq s (ascii e.1) with
  | some e => some e.2
  | none => parseU16 s

/-! ### Times -/

/-- `parse_dnssec_time`: `YYYYMMDDHHMMSS` as seconds since the epoch modulo 2^32, with the
32-bit unsigned intermediate results of the source; 0 when the text does not scan. -/
def parseDnssecTime (s : Text) : Nat :=
  let scanned := do
    let (year, s) ← scanInt 4 s
    let (month, s) ← scanInt 2 s
    let (day, s) ← scanInt 2 s
    let (hour, s) ← scanInt 2 s
    let (min, s) ← scanInt 2 s
    let (sec, _) ← scanInt 2 s
    return (year, month, day, hour, min, sec)
  match scanned with
  | none => 0
  | some (year, month, day, hour, min, sec) =>
    let y := if month ≤ 2 then year - 1 else year
    let era := y / 400
    let yoe := (y - era * 400) % 2 ^ 32
    let mp := ((month + 9).tmod 12) % 2 ^ 32
    let doy := ((153 * mp + 2) % 2 ^ 32 / 5 + day - 1) % 2 ^ 32
    let doe := (yoe * 365 + yoe / 4 - yoe / 100 + doy) % 2 ^ 32
    let days := era * 146097 + doe - 719468
    ((days * 86400 + hour * 3600 + min * 60 + sec) % 2 ^ 32).toNat

/-! ### Encoded data -/

/-- The hexadecimal digits of a text two by two; other characters are skipped and a last odd
digit is dropped. -/
def hexPairs : Option Nat → Text → List UInt8
  | _, [] => []
  | high, c :: t =>
    match hexCharToVal c, high with
    | none, _ => hexPairs high t
    | some v, none => hexPairs (some v) t
    | some v, some h => UInt8.ofNat (h * 16 + v) :: hexPairs none t

/-- `hex_decode` into a buffer of `cap` octets. -/
def hexDecode (cap : Nat) (s : Text) : Option (List UInt8) :=
  let bs := hexPairs none s
  if bs.length > cap then none else some bs

/-- The value of a base32hex character (RFC 4648 7), either letter case. -/
def base32Val (c : UInt8) : Option Nat :=
  if 48 ≤ c ∧ c ≤ 57 then some (c.toNat - 48)
  else if 65 ≤ c ∧ c ≤ 86 then some (c.toNat - 65 + 10)
  else if 97 ≤ c ∧ c ≤ 118 then some (c.toNat - 97 + 10)
  else none

/-- The loop of `base32hex_decode`: characters outside the alphabet are skipped, `=` ends it. -/
def base32Loop : Nat → Nat → Text → List UInt8
  | _, _, [] => []
  | buffer, bits, c :: t =>
    if c = 61 then []
    else
      match base32Val c with
      | none => base32Loop buffer bits t
      | some v =>
        let buffer := (buffer * 32 + v) % 2 ^ 32
        if bits + 5 ≥ 8 then
          UInt8.ofNat (buffer / 2 ^ (bits + 5 - 8)) :: base32Loop buffer (bits + 5 - 8) t
        else base32Loop buffer (bits + 5) t

/-- `base32hex_decode` into a buffer of `cap` octets. -/
def base32hexDecode (cap : Nat) (s : Text) : Option (List UInt8) :=
  let bs := base32Loop 0 0 s
  if bs.length > cap then none else some bs

/-- The number of octets that the padding of a base64 text stands for. -/
def base64Padding (t : Text) : Nat :=
  (if t.getLast? = some 61 then 1 else 0) + (if t.dropLast.getLast? = some 61 then 1 else 0)

/-- `decode_b64_buffer`, the octets to store: all quanta but the last, then the last without
its padding. A quantum that lost characters to trimming is refused. -/
def decodeB64Buffer (t : Text) : Option (List UInt8) :=
  if t.length = 0 ∨ t.length % 4 ≠ 0 then none
  else do
    let head ← evpDecodeBlock (t.take (t.length - 4))
    if head.length ≠ (t.length - 4) / 4 * 3 then none
    let tail ← evpDecodeBlock (t.drop (t.length - 4))
    if tail.length ≠ 3 then none
    return head ++ tail.take (3 - base64Padding t)

/-- Several fields read as one base64 text of at most 87384 characters. -/
def concatB64 (fields : List Text) : Option (List UInt8) :=
  if fields.flatten.length > 87384 then none else decodeB64Buffer fields.flatten

/-- `decode_concat_b64_rdata`. -/
def decodeConcatB64Rdata (fields : List Text) : Script :=
  orFail (concatB64 fields) fun bs => [.put bs]

/-- `decode_concat_hex_rdata`: several fields read as one hexadecimal text. -/
def decodeConcatHexRdata (fields : List Text) : Script :=
  if fields.flatten.length ≥ 2048 then [.fail] else [.put (hexPairs none fields.flatten)]

/-! ### Character strings -/

/-- `write_char_string`: a longer string is cut after 255 octets. -/
def writeCharString (s : Text) : Script :=
  [.put (UInt8.ofNat (min s.length 255) :: s.take 255)]

/-- The character strings of one TXT field: pieces of 255 octets, one empty string for an
empty field. -/
def txtChunks : Nat → Text → List UInt8
  | 0, _ => []
  | fuel + 1, s =>
    if s.length ≤ 255 then UInt8.ofNat s.length :: s
    else 255 :: s.take 255 ++ txtChunks fuel (s.drop 255)

/-- The RDATA of TXT and the types that look like it. -/
def txtWire (rdata : List Text) : List UInt8 := rdata.flatMap fun s => txtChunks (s.length + 1) s

/-! ### Bitmaps -/

/-- Octet `i` of the bitmap with the given bits set, bit 0 the most significant. -/
def bitmapOctet (bits : List Nat) (i : Nat) : UInt8 :=
  bits.foldl (fun b bit => if bit / 8 = i then b ||| (1 <<< UInt8.ofNat (7 - bit % 8)) else b) 0

/-- The shortest bitmap that holds the given bits. -/
def bitmapOctets (bits : List Nat) : List UInt8 :=
  match bits.max? with
  | none => []
  | some m => (List.range (m / 8 + 1)).map (bitmapOctet bits)

/-- One window block of a type bitmap (RFC 4034 4.1.2). -/
def windowBlock (window : Nat) (bits : List Nat) : List UInt8 :=
  UInt8.ofNat window :: UInt8.ofNat (bitmapOctets bits).length :: bitmapOctets bits

/-- The loop of `encode_type_bitmap` over the sorted type codes; code 0 is skipped. -/
def windowBlocks : Option (Nat × List Nat) → List Nat → List (List UInt8)
  | none, [] => []
  | some (window, bits), [] => [windowBlock window bits]
  | cur, code :: codes =>
    if code = 0 then windowBlocks cur codes
    else
      match cur with
      | none => windowBlocks (some (code / 256, [code % 256])) codes
      | some (window, bits) =>
        if code / 256 = window then windowBlocks (some (window, bits ++ [code % 256])) codes
        else windowBlock window bits :: windowBlocks (some (code / 256, [code % 256])) codes

/-- `MAX_RDATA`. -/
def maxRdata : Nat := 48

/-- `encode_type_bitmap`. -/
def encodeTypeBitmap (types : List Text) : Script :=
  if types.length > maxRdata then [.fail]
  else (windowBlocks none ((types.map getTypeCode).insertionSort (· ≤ ·))).map .put

/-! ### Identifiers and positions -/

/-- `parse_nid_identifier`: four groups of one to four hexadecimal digits (RFC 6742). -/
def parseNidIdentifier (s : Text) : Option (List UInt8) :=
  match splitOn 58 s with
  | [a, b, c, d] => do
    return be16 (← hexGroup a) ++ be16 (← hexGroup b) ++ be16 (← hexGroup c) ++ be16 (← hexGroup d)
  | _ => none

/-- The digits at the front of a text as a double. -/
def doubleDigits : Float → Float → Text → Float × Float × Text
  | acc, scale, c :: t =>
    if isDigit c then doubleDigits (acc * 10.0 + (c.toNat - 48).toFloat) (scale * 10.0) t
    else (acc, scale, c :: t)
  | acc, scale, [] => (acc, scale, [])

/-- `parse_double_c`: the value and the text behind it. -/
def parseDoubleC (s : Text) : Float × Text :=
  let s := s.dropWhile isSpace
  let (sign, s) : Float × Text :=
    match s with
    | c :: t => if c = 45 then (-1.0, t) else if c = 43 then (1.0, t) else (1.0, s)
    | [] => (1.0, s)
  let (intPart, _, rest) := doubleDigits 0.0 1.0 s
  let (fracPart, divisor, rest') : Float × Float × Text :=
    match rest with
    | c :: t => if c = 46 then doubleDigits 0.0 1.0 t else (0.0, 1.0, rest)
    | [] => (0.0, 1.0, rest)
  -- nothing but a dot between the two places means that no digit was read
  if s.length = rest'.length ∨ (rest ≠ rest' ∧ s.length = rest'.length + 1) then (0.0, rest')
  else
    let val := (intPart + fracPart / divisor) * sign
    match rest' with
    | c :: t => if c = 109 ∨ c = 77 then (val, t) else (val, rest')
    | [] => (val, rest')

/-- The numbers at the front of a coordinate: at most three, each a whole field. -/
def coordParts : Nat → List Text → List Float × List Text
  | 0, rdata => ([], rdata)
  | _ + 1, [] => ([], [])
  | n + 1, f :: rdata =>
    let (v, rest) := parseDoubleC f
    if rest.length = f.length ∨ rest ≠ [] then ([], f :: rdata)
    else
      let (vs, left) := coordParts n rdata
      (v :: vs, left)

/-- `loc_parse_coord`: seconds, direction letter and the fields left. -/
def locParseCoord (rdata : List Text) : Option (Float × UInt8 × List Text) :=
  match coordParts 3 rdata with
  | ([], _) => none
  | (_, []) => none
  | (parts, d :: left) =>
    let dir := upper (d.headD 0)
    if dir = 78 ∨ dir = 83 ∨ dir = 69 ∨ dir = 87 then
      some (parts.getD 0 0.0 * 3600.0 + parts.getD 1 0.0 * 60.0 + parts.getD 2 0.0, dir, left)
    else none

/-- `llround`. -/
def llround (x : Float) : Int := x.round.toInt64.toInt

/-- `loc_encode_precsize`: one digit and a power of ten, in centimetres. -/
def locEncodePrecsize (meters : Float) : UInt8 :=
  let meters := if meters < 0 then 0.0 else meters
  let cm := (llround (meters * 100.0) % 2 ^ 32).toNat
  let exponent := ((List.range 9).find? fun e => cm < 10 ^ (e + 1)).getD 9
  UInt8.ofNat (min (cm / 10 ^ exponent) 9 * 16 + exponent)

/-- The 16 octets of LOC (RFC 1876). -/
def locWire (rdata : List Text) : Option (List UInt8) := do
  let (latSec, latDir, rdata) ← locParseCoord rdata
  if latDir ≠ 78 ∧ latDir ≠ 83 then none
  let (lonSec, lonDir, rdata) ← locParseCoord rdata
  if lonDir ≠ 69 ∧ lonDir ≠ 87 then none
  if latSec < 0 || latSec > 324000.0 then none
  if lonSec < 0 || lonSec > 648000.0 then none
  let num (i : Nat) (default : Float) : Float :=
    match rdata[i]? with
    | some f => (parseDoubleC f).1
    | none => default
  let lat := llround (latSec * 1000.0) * (if latDir = 83 then -1 else 1)
  let lon := llround (lonSec * 1000.0) * (if lonDir = 87 then -1 else 1)
  let alt := llround (num 0 0.0 * 100.0) + 10000000
  return [0, locEncodePrecsize (num 1 1.0), locEncodePrecsize (num 2 10000.0),
      locEncodePrecsize (num 3 10.0)] ++
    be32 ((0x80000000 + lat) % 2 ^ 32).toNat ++ be32 ((0x80000000 + lon) % 2 ^ 32).toNat ++
    be32 (alt % 2 ^ 32).toNat

end KariDns
