import KariDns.Wire.Expand
import KariDns.Zone.Arena

/-! The fields of a line of tinydns data (`dns_tinydns_parser.c`).

A line is a character for its kind and up to fifteen fields between colons. Names and texts may hold
octal escapes. A number is read by `strtoul`, which does not know where the field ends, so a field
keeps the text from its start to the end of the file.
-/

namespace KariDns

open Octets DomainName

structure TinyField where
  offset : Nat := 0
  rest : Text := []
  len : Nat := 0

def TinyField.text (f : TinyField) : Text := f.rest.take f.len

/-- The number in a field, or what stands for an empty one. -/
def TinyField.number (f : TinyField) (default : Nat) : Nat :=
  if f.len > 0 then (strtoull f.rest).1 else default

/-- A text as a C string. -/
def cstrOf (t : Text) : Text := t.takeWhile (· ≠ 0)

/-- `snprintf` of a number into 16 octets. -/
def decimal16 (n : Nat) : Text := (decimal n).take 15

/-! ### Escapes -/

def isOctal (c : UInt8) : Bool := 48 ≤ c && c ≤ 55

/-- Up to `n` octal digits, added to `v`. -/
def takeOctal : Nat → Nat → Text → Nat × Text
  | 0, v, t => (v, t)
  | _ + 1, v, [] => (v, [])
  | n + 1, v, c :: t => if isOctal c then takeOctal n (v * 8 + (c.toNat - 48)) t else (v, c :: t)

/-- The octets of a field, each with whether it was escaped. -/
def unescape : Nat → Text → List (Bool × UInt8)
  | 0, _ => []
  | _ + 1, [] => []
  | fuel + 1, c :: t =>
    if c = 92 then
      match t with
      | [] => [(false, 92)]
      | d :: r =>
        if isOctal d then (true, UInt8.ofNat (takeOctal 3 0 t).1) ::
          unescape fuel (takeOctal 3 0 t).2
        else (true, d) :: unescape fuel r
    else (false, c) :: unescape fuel t

/-- The loop of `tinydns_decode_fqdn`: the labels between dots, the empty ones left out. `label` is
the one being read and `wireLen` what the name takes so far. -/
def fqdnLabels : List (Bool × UInt8) → Label → Nat → Option (List Label)
  | [], label, wireLen =>
    if label = [] then some [] else if wireLen + label.length + 1 > 255 then none else some [label]
  | (escaped, c) :: cs, label, wireLen =>
    if c = 46 ∧ ¬ escaped then
      if label = [] then fqdnLabels cs [] wireLen
      else if wireLen + label.length + 1 > 255 then none
      else (fqdnLabels cs [] (wireLen + label.length + 1)).map (label :: ·)
    else if label.length ≥ 63 then none
    else fqdnLabels cs (label ++ [c]) wireLen

/-- `tinydns_decode_fqdn`. -/
def tinydnsDecodeFqdn (field : Text) : Option Text :=
  (fqdnLabels (unescape field.length field) [] 1).map nameText

/-- `tinydns_decode_bytes`. -/
def tinydnsDecodeBytes (field : Text) : List UInt8 := (unescape field.length field).map Prod.snd

/-! ### Addresses and times -/

/-- `n` numbers between dots; whatever follows is left alone. -/
def ip4Octets : Nat → Text → Option (List UInt8)
  | 0, _ => some []
  | n + 1, t =>
    let digits := t.takeWhile isDigit
    if digits = [] then none
    else
      let octet := UInt8.ofNat (scanDigits 0 digits).1
      if n = 0 then some [octet]
      else
        match t.drop digits.length with
        | 46 :: r => (ip4Octets n r).map (octet :: ·)
        | _ => none

/-- `tinydns_ip4_scan`. -/
def tinydnsIp4Scan (s : Text) : Option (List UInt8) := ip4Octets 4 s

def hexOctets : Text → Option (List UInt8)
  | [] => some []
  | [_] => none
  | h :: l :: t => do
    let hi ← hexCharToVal h
    let lo ← hexCharToVal l
    let rest ← hexOctets t
    return UInt8.ofNat (hi * 16 + lo) :: rest

/-- `tinydns_decode_ipv6_hex32`. -/
def tinydnsDecodeIpv6Hex32 (field : Text) : Option (List UInt8) :=
  if field.length ≠ 32 then none else hexOctets field

/-- `tinydns_ipv6_ptr_name`. -/
def tinydnsIpv6PtrName (ip6 : List UInt8) (suffix : String) : Text :=
  ip6.reverse.flatMap (fun b => hexText (b.toNat % 16) ++ [46] ++ hexText (b.toNat / 16) ++ [46]) ++
    ascii suffix ++ [46]

/-- The name of the PTR record of an IPv4 address. -/
def ipv4PtrName (ip : List UInt8) : Text :=
  ip.reverse.flatMap (fun b => decimal b.toNat ++ [46]) ++ ascii "in-addr.arpa."

/-- `TAI64_UNIX_EPOCH_OFFSET`. -/
def tai64UnixEpochOffset : Nat := 2 ^ 62

/-- `tinydns_parse_timestamp`: sixteen hexadecimal digits, where what is none counts as 0. -/
def tinydnsParseTimestamp (field : Text) : Option Int :=
  if field = [] then none
  else
    let tai64 := (List.range 16).foldl (fun v i => v * 16 + (field[i]?.bind hexCharToVal).getD 0) 0
    if tai64 < tai64UnixEpochOffset then some 0
    else
      -- `time_t` is signed
      let t := tai64 - tai64UnixEpochOffset
      some (if t < 2 ^ 63 then t else (t : Int) - 2 ^ 64)

/-! ### Names that are put together -/

/-- `tinydns_join_names`. -/
def tinydnsJoinNames (front fqdn : Text) : Option Text :=
  let joined := front ++ (if fqdn = [46] then [] else fqdn)
  if joined.length + 1 > dnsNameTextSize then none
  else if (readName joined).isNone then none
  else some joined

/-- `tinydns_expand_x`: a name without a dot is one below the owner. -/
def tinydnsExpandX (x : Text) (suffix : String) (fqdn : Text) : Option Text :=
  if x.contains 46 then tinydnsDecodeFqdn x
  else if x.length + suffix.length + 1 > 512 then none
  else (tinydnsDecodeFqdn (x ++ ascii suffix)).bind fun front => tinydnsJoinNames front fqdn

/-! ### Records -/

/-- What a line says about a record, apart from its owner. -/
structure TinyData where
  typeCode : UInt16
  ttl : Nat
  ts : TinyField
  lo : TinyField
  rdata : List Text
  generic : Option (List UInt8) := none

/-- `tinydns_new_record`. -/
def tinydnsNewRecord (owner : Text) (d : TinyData) : DnsRecord :=
  let ttl := min d.ttl 2147483647
  let ttd := tinydnsParseTimestamp d.ts.text
  { name := owner
    ttl := decimal ttl
    classStr := ascii "IN"
    classVal := 1
    typeCode := d.typeCode
    ttlValue := UInt32.ofNat ttl
    rdata := d.rdata
    generic := d.generic
    tinydnsTtd := ttd.getD 0
    tinydnsTtlCountdown := ttd.isSome && ttl == 0
    tinydnsLoc := (d.lo.text.getD 0 0, d.lo.text.getD 1 0) }

end KariDns
