import KariDns.Record
import KariDns.Wire.Emission

/-! Writing a record (`serialize_dns_record`).

`rdataScript` is the switch over record types: one script per form of RDATA, from the cached
values where there are any and from the text otherwise. `serializeDnsRecord` writes the owner,
the fixed fields and the RDATA, and patches RDLENGTH in at the end. A failed call leaves the
caller's offset as it was.
-/

namespace KariDns

open Octets DomainName List

/-! ### Forms of RDATA -/

/-- The cases of the switch in `serialize_dns_record`. -/
inductive RdataForm
  | a | aaaa | hostName | plainName | mx | srv | x25 | isdn | nsap | gpos | loc | apl | caa | soa
  | txt | ipseckey | amtrelay | nodeId | l32 | sshfp | rrsig | nsec | nsec3 | tlsa | cert | naptr
  | nsec3param | hip | svcb | dsync | hinfo | uri | sink | blob | eui48 | eui64 | zonemd | wks
  | minfo | twoNames | prefName | px | csync | ds | dnskey | nxt | atma | a6 | doa | unknown
  deriving DecidableEq

/-- The case labels of the switch. -/
def rdataForms : List (Nat × RdataForm) := [
  (1, .a), (28, .aaaa),
  (2, .hostName), (3, .hostName), (4, .hostName), (5, .hostName), (7, .hostName), (8, .hostName),
  (9, .hostName), (12, .hostName),
  (23, .plainName), (39, .plainName), (15, .mx), (33, .srv), (19, .x25), (20, .isdn), (22, .nsap),
  (27, .gpos), (29, .loc), (42, .apl), (257, .caa), (6, .soa),
  (56, .txt), (261, .txt), (262, .txt), (16, .txt), (99, .txt), (258, .txt),
  (45, .ipseckey), (260, .amtrelay), (104, .nodeId), (105, .l32), (106, .nodeId), (44, .sshfp),
  (24, .rrsig), (46, .rrsig), (47, .nsec), (50, .nsec3), (52, .tlsa), (53, .tlsa), (37, .cert),
  (35, .naptr), (51, .nsec3param), (55, .hip), (64, .svcb), (65, .svcb), (66, .dsync),
  (13, .hinfo), (256, .uri), (40, .sink), (61, .blob), (49, .blob), (108, .eui48), (109, .eui64),
  (63, .zonemd), (11, .wks), (14, .minfo), (17, .twoNames),
  (18, .prefName), (21, .prefName), (36, .prefName), (107, .prefName), (26, .px), (62, .csync),
  (43, .ds), (59, .ds), (32768, .ds), (32769, .ds),
  (57, .dnskey), (25, .dnskey), (48, .dnskey), (60, .dnskey), (58, .twoNames), (67, .blob),
  (68, .blob), (30, .nxt), (34, .atma), (38, .a6), (259, .doa)]

def rdataForm (type : Nat) : RdataForm := (rdataForms.lookup type).getD .unknown

lemma lookup_mem {β : Type} {l : List (Nat × β)} {k : Nat} {v : β} (h : l.lookup k = some v) :
    (k, v) ∈ l := by
  obtain ⟨l₁, l₂, rfl, -⟩ := lookup_eq_some_iff.mp h
  exact mem_append_right _ mem_cons_self

/-! ### Fixed fields -/

def u8Field (s : Text) : Option (List UInt8) := (parseU8 s).map fun v => [UInt8.ofNat v]

def u16Field (s : Text) : Option (List UInt8) := (parseU16 s).map be16

/-- A number read with `strtoul` and no further check. -/
def u32Field (s : Text) : Option (List UInt8) := some (be32 (strtoul32 s))

/-- The octets of the leading fields, one reader for each. -/
def fixedFields : List (Text → Option (List UInt8)) → List Text → Option (List UInt8)
  | [], _ => some []
  | _ :: _, [] => none
  | f :: fs, t :: ts => (f t).bind fun bs => (fixedFields fs ts).map (bs ++ ·)

/-- At least `count` fields, the leading ones stored, `k` for the fields behind them. -/
def withFields (count : Nat) (readers : List (Text → Option (List UInt8))) (rdata : List Text)
    (k : List Text → Script) : Script :=
  if rdata.length < count then [.fail]
  else orFail (fixedFields readers rdata) fun bs => .put bs :: k (rdata.drop readers.length)

variable (hasCtx : Bool) (rec : DnsRecord)

/-- A name already in wire form, where compression is allowed. -/
def cachedName (n : Name) : Script :=
  if hasCtx then [.packName n] else [.copyName n]

/-! ### Scripts of the types with a cache -/

def hostNameScript : Script :=
  match rec.cache with
  | .name n => cachedName hasCtx n
  | _ => if rec.rdata.length = 0 then [.fail] else [.dnsName (rec.rd 0)]

def plainNameScript : Script :=
  match rec.cache with
  | .name n => [.copyName n]
  | _ => if rec.rdata.length = 0 then [.fail] else [.textName (rec.rd 0)]

def addressScript (cached : Option (List UInt8)) (pton : Text → Option (List UInt8)) : Script :=
  if rec.rdata.length = 0 then [.fail]
  else
    match cached with
    | some addr => [.put addr]
    | none => orFail (pton (rec.rd 0)) fun addr => [.put addr]

def mxScript : Script :=
  if rec.rdata.length < 2 then [.fail]
  else
    match rec.cache with
    | .mx pref _ (some n) => .put (be16 pref) :: cachedName hasCtx n
    | .mx pref target none => [.put (be16 pref), .dnsName target]
    | _ => orFail (parseU16 (rec.rd 0)) fun pref => [.put (be16 pref), .dnsName (rec.rd 1)]

def srvScript : Script :=
  if rec.rdata.length < 4 then [.fail]
  else
    match rec.cache with
    | .srv prio weight port _ (some n) =>
      [.put (be16 prio ++ be16 weight ++ be16 port), .copyName n]
    | .srv prio weight port target none =>
      [.put (be16 prio ++ be16 weight ++ be16 port), .textName target]
    | _ =>
      orFail (fixedFields [u16Field, u16Field, u16Field] rec.rdata) fun bs =>
        [.put bs, .textName (rec.rd 3)]

/-- The five numbers of SOA. -/
def soaNumbers : List Nat :=
  [strtoul32 (rec.rd 2), parseTtlValue (rec.rd 3), parseTtlValue (rec.rd 4),
    parseTtlValue (rec.rd 5), parseTtlValue (rec.rd 6)]

def soaScript : Script :=
  if rec.rdata.length < 7 then [.fail]
  else
    match rec.cache with
    | .soa _ _ (some (m, r)) numbers =>
      if hasCtx then [.packName m, .packName r, .put (numbers.flatMap be32)]
      else [.need ((wire m).length + (wire r).length + 20), .copyName m, .copyName r,
        .put (numbers.flatMap be32)]
    | .soa mname rname none numbers => [.dnsName mname, .dnsName rname, .put (numbers.flatMap be32)]
    | _ => [.dnsName (rec.rd 0), .dnsName (rec.rd 1), .put ((soaNumbers rec).flatMap be32)]

def txtScript : Script :=
  match rec.cache with
  | .txt bs => [.put bs]
  | _ => if rec.rdata.length = 0 then [.fail] else [.put (txtWire rec.rdata)]

/-- The 18 octets before the signer's name. -/
def rrsigHead (typeCovered algorithm labels origTtl sigExp sigInc keyTag : Nat) : List UInt8 :=
  be16 typeCovered ++ [UInt8.ofNat algorithm, UInt8.ofNat labels] ++ be32 origTtl ++ be32 sigExp ++
    be32 sigInc ++ be16 keyTag

def rrsigScript : Script :=
  if rec.rdata.length < 9 then [.fail]
  else
    match rec.cache with
    | .rrsig tc alg labels ottl exp inc tag signer signature =>
      [.put (rrsigHead tc alg labels ottl exp inc tag), .textName signer] ++
        match signature with
        | some sig => [.put sig]
        | none => decodeConcatB64Rdata (rec.rdata.drop 8)
    | _ =>
      orFail (parseU8 (rec.rd 1)) fun alg =>
      orFail (parseU8 (rec.rd 2)) fun labels =>
      orFail (parseU16 (rec.rd 6)) fun tag =>
        [.put (rrsigHead (getTypeCode (rec.rd 0)) alg labels (strtoul32 (rec.rd 3))
          (parseDnssecTime (rec.rd 4)) (parseDnssecTime (rec.rd 5)) tag), .textName (rec.rd 7)] ++
        decodeConcatB64Rdata (rec.rdata.drop 8)

/-! ### Scripts of the other types -/

/-- Gateway or relay of type 1 to 3: an address or a name. -/
def relayScript (type : Nat) (s : Text) : Script :=
  if type = 1 then orFail (inetPton4 s) fun a => [.put a]
  else if type = 2 then orFail (inetPton6 s) fun a => [.put a]
  else [.textName s]

def ipseckeyScript : Script :=
  withFields 3 [u8Field, u8Field, u8Field] rec.rdata fun rest =>
    match rest, parseU8 (rec.rd 1) with
    | gateway :: key, some type =>
      (if type = 0 then if gateway = ascii "." then [] else [.fail]
        else if type ≤ 3 then relayScript type gateway
        else [.fail]) ++
      if key = [] then [] else decodeConcatB64Rdata key
    | _, _ => [.fail]

def amtrelayScript : Script :=
  if rec.rdata.length < 3 then [.fail]
  else
    orFail (parseU8 (rec.rd 0)) fun prec =>
    orFail (parseU8 (rec.rd 1)) fun dbit =>
    orFail (parseU8 (rec.rd 2)) fun type =>
    if dbit > 1 then [.fail]
    else
      .put [UInt8.ofNat prec, UInt8.ofNat (dbit * 128 + type % 128)] ::
        if type = 0 then []
        else if type ≤ 3 then
          if rec.rdata.length < 4 then [.fail] else relayScript type (rec.rd 3)
        else [.fail]

/-- The salt of NSEC3 and NSEC3PARAM, `-` for none. -/
def saltOctets (s : Text) : Option (List UInt8) :=
  if s = ascii "-" then some [] else hexDecode 255 s

/-- Octets behind their number. -/
def counted (bs : List UInt8) : List UInt8 := UInt8.ofNat bs.length :: bs

def nsec3Script : Script :=
  if rec.rdata.length < 5 then [.fail]
  else
    orFail (fixedFields [u8Field, u8Field, u16Field] rec.rdata) fun bs =>
    orFail (saltOctets (rec.rd 3)) fun salt =>
    orFail (base32hexDecode 255 (rec.rd 4)) fun next =>
      .put (bs ++ counted salt ++ counted next) :: encodeTypeBitmap (rec.rdata.drop 5)

def nsec3paramScript : Script :=
  if rec.rdata.length < 4 then [.fail]
  else
    orFail (fixedFields [u8Field, u8Field, u16Field] rec.rdata) fun bs =>
    orFail (saltOctets (rec.rd 3)) fun salt => [.put (bs ++ counted salt)]

def caaScript : Script :=
  if rec.rdata.length < 3 then [.fail]
  else
    orFail (parseU8 (rec.rd 0)) fun flags =>
    if (rec.rd 1).length = 0 ∨ (rec.rd 1).length > 255 then [.fail]
    else [.put (UInt8.ofNat flags :: counted (rec.rd 1) ++ rec.rd 2)]

def hipScript : Script :=
  if rec.rdata.length < 3 then [.fail]
  else
    orFail (parseU8 (rec.rd 0)) fun alg =>
    orFail (hexDecode 255 (rec.rd 1)) fun hit =>
    orFail (hipKey [] (rec.rdata.drop 2)) fun (key, servers) =>
    orFail (decodeB64Buffer key) fun pk =>
    if pk.length > 0xFFFF then [.fail]
    else
      [.put ([UInt8.ofNat hit.length, UInt8.ofNat alg] ++ be16 pk.length ++ hit), .put pk] ++
        servers.map .textName

def svcbScript : Script :=
  withFields 2 [u16Field] rec.rdata fun rest =>
    .textName (rest.headD []) ::
      orFail (svcParams rest.tail) fun params =>
        params.map fun (key, v) => .put (be16 key ++ be16 v.length ++ v)

def dsyncScript : Script :=
  if rec.rdata.length < 4 then [.fail]
  else if getTypeCode (rec.rd 0) = 0 then [.fail]
  else
    orFail (if strcaseeq (rec.rd 1) (ascii "NOTIFY") then some 1 else parseU8 (rec.rd 1))
      fun scheme =>
    orFail (parseU16 (rec.rd 2)) fun port =>
      [.put (be16 (getTypeCode (rec.rd 0)) ++ [UInt8.ofNat scheme] ++ be16 port),
        .textName (rec.rd 3)]

def euiScript (expected : Nat) (rec : DnsRecord) : Script :=
  if rec.rdata.length < 1 then [.fail]
  else
    orFail (hexDecode 16 (rec.rd 0)) fun bs => if bs.length = expected then [.put bs] else [.fail]

def nxtScript : Script :=
  if rec.rdata.length < 1 then [.fail]
  else
    [.textName (rec.rd 0),
      .put (bitmapOctets (((rec.rdata.drop 1).map getTypeCode).filter fun t => t ≠ 0 ∧ t ≤ 127))]

def a6Script : Script :=
  if rec.rdata.length < 1 then [.fail]
  else
    orFail (parseU8 (rec.rd 0)) fun plen =>
    if plen > 128 then [.fail]
    else
      .put [UInt8.ofNat plen] ::
        ((if (128 - plen + 7) / 8 = 0 then []
          else if rec.rdata.length < 2 then [.fail]
          else orFail (inetPton6 (rec.rd 1)) fun a =>
            [.put (a.drop (16 - (128 - plen + 7) / 8))]) ++
        if plen = 0 then [] else [.textName (if rec.rdata.length ≥ 3 then rec.rd 2 else ascii ".")])

def doaScript : Script :=
  if rec.rdata.length < 4 then [.fail]
  else
    orFail (parseU8 (rec.rd 2)) fun loc =>
    if (rec.rd 3).length > 255 then [.fail]
    else
      .put (be32 (strtoul32 (rec.rd 0)) ++ be32 (strtoul32 (rec.rd 1)) ++ [UInt8.ofNat loc] ++
        counted (rec.rd 3)) ::
      if rec.rdata.length ≥ 5 then decodeConcatB64Rdata (rec.rdata.drop 4) else []

def uriScript : Script :=
  if rec.rdata.length < 3 then [.fail]
  else orFail (fixedFields [u16Field, u16Field] rec.rdata) fun bs => [.put (bs ++ rec.rd 2)]

/-! ### The switch -/

/-- The RDATA of a record without `generic_data`. -/
def rdataScript : Script :=
  match rdataForm rec.typeCode.toNat with
  | .a => addressScript rec (match rec.cache with | .a addr => some addr | _ => none) inetPton4
  | .aaaa =>
    addressScript rec (match rec.cache with | .aaaa addr => some addr | _ => none) inetPton6
  | .hostName => hostNameScript hasCtx rec
  | .plainName => plainNameScript rec
  | .mx => mxScript hasCtx rec
  | .srv => srvScript rec
  | .x25 => if rec.rdata.length < 1 then [.fail] else writeCharString (rec.rd 0)
  | .isdn => if rec.rdata.length < 1 then [.fail] else (rec.rdata.take 2).flatMap writeCharString
  | .nsap =>
    if rec.rdata.length < 1 then [.fail] else orFail (hexDecode 255 (rec.rd 0)) fun bs => [.put bs]
  | .gpos => if rec.rdata.length < 3 then [.fail] else (rec.rdata.take 3).flatMap writeCharString
  | .loc => orFail (locWire rec.rdata) fun bs => [.put bs]
  | .apl => rec.rdata.flatMap fun s => orFail (aplItem s) fun bs => [.put bs]
  | .caa => caaScript rec
  | .soa => soaScript hasCtx rec
  | .txt => txtScript rec
  | .ipseckey => ipseckeyScript rec
  | .amtrelay => amtrelayScript rec
  | .nodeId =>
    withFields 2 [u16Field] rec.rdata fun rest =>
      orFail (parseNidIdentifier (rest.headD [])) fun bs => [.put bs]
  | .l32 =>
    withFields 2 [u16Field] rec.rdata fun rest =>
      orFail (inetPton4 (rest.headD [])) fun a => [.put a]
  | .sshfp => withFields 3 [u8Field, u8Field] rec.rdata decodeConcatHexRdata
  | .rrsig => rrsigScript rec
  | .nsec =>
    if rec.rdata.length < 2 then [.fail]
    else .textName (rec.rd 0) :: encodeTypeBitmap (rec.rdata.drop 1)
  | .nsec3 => nsec3Script rec
  | .tlsa => withFields 4 [u8Field, u8Field, u8Field] rec.rdata decodeConcatHexRdata
  | .cert =>
    withFields 4 [fun s => (certTypeToNum s).map be16, u16Field, u8Field] rec.rdata
      decodeConcatB64Rdata
  | .naptr =>
    withFields 6 [u16Field, u16Field] rec.rdata fun rest =>
      (rest.take 3).flatMap writeCharString ++ [.textName (rest.getD 3 [])]
  | .nsec3param => nsec3paramScript rec
  | .hip => hipScript rec
  | .svcb => svcbScript rec
  | .dsync => dsyncScript rec
  | .hinfo => if rec.rdata.length < 2 then [.fail] else (rec.rdata.take 2).flatMap writeCharString
  | .uri => uriScript rec
  | .sink =>
    withFields 3 [u8Field, u8Field, u8Field] rec.rdata fun rest =>
      if rest = [] then [] else decodeConcatB64Rdata rest
  | .blob => if rec.rdata.length < 1 then [.fail] else decodeConcatB64Rdata rec.rdata
  | .eui48 => euiScript 6 rec
  | .eui64 => euiScript 8 rec
  | .zonemd => withFields 4 [u32Field, u8Field, u8Field] rec.rdata decodeConcatHexRdata
  | .wks =>
    if rec.rdata.length < 2 then [.fail]
    else orFail (wksWire (rec.rd 0) (rec.rd 1) (rec.rdata.drop 2)) fun (head, map) =>
      [.put head, .put map]
  | .minfo => if rec.rdata.length < 2 then [.fail] else [.dnsName (rec.rd 0), .dnsName (rec.rd 1)]
  | .twoNames => if rec.rdata.length < 2 then [.fail]
    else [.textName (rec.rd 0), .textName (rec.rd 1)]
  | .prefName => withFields 2 [u16Field] rec.rdata fun rest => [.textName (rest.headD [])]
  | .px =>
    withFields 3 [u16Field] rec.rdata fun rest =>
      [.textName (rest.headD []), .textName (rest.getD 1 [])]
  | .csync => withFields 3 [u32Field, u16Field] rec.rdata encodeTypeBitmap
  | .ds => withFields 4 [u16Field, u8Field, u8Field] rec.rdata decodeConcatHexRdata
  | .dnskey => withFields 4 [u16Field, u8Field, u8Field] rec.rdata decodeConcatB64Rdata
  | .nxt => nxtScript rec
  | .atma =>
    if rec.rdata.length ≠ 1 then [.fail] else orFail (atmaWire (rec.rd 0)) fun bs => [.put bs]
  | .a6 => a6Script rec
  | .doa => doaScript rec
  | .unknown => [.fail]

/-- The RDATA: the octets of `generic_data`, which class KARIDNS_EXT uses even when there are
none, else what the switch says. -/
def fullRdataScript : Script :=
  match rec.generic with
  | some bs => [.put bs]
  | none => if rec.classVal = classKaridnsExt then [] else rdataScript hasCtx rec

/-! ### The whole record -/

/-- The owner: the override, else the name in wire form, else the text. -/
def ownerScript : Option Text → Script
  | some owner => [.dnsName owner]
  | none =>
    match rec.nameWire with
    | some n => cachedName hasCtx n
    | none => [.dnsName rec.name]

/-- `DNS_HEADER_SIZE`, the room asked for before anything is written. -/
def dnsHeaderSize : Nat := 12

/-- Everything before RDLENGTH. -/
def recordHead (owner : Script) (type class_ ttl : Nat) : Script :=
  .need dnsHeaderSize :: owner ++ [.need 10, .put (be16 type ++ be16 class_ ++ be32 ttl)]

/-- Head, two octets kept free, RDATA, and RDLENGTH at the end. -/
def writeRecord (maxLen : Nat) (head rdata : Script) (w : Out) : Bool × Out :=
  match run maxLen head w with
  | (false, w') => (false, { w' with offset := w.offset })
  | (true, w') =>
    match run maxLen rdata { w' with offset := w'.offset + 2 } with
    | (false, w'') => (false, { w'' with offset := w.offset })
    | (true, w'') =>
      (true, { w'' with buf := blit w''.buf w'.offset (be16 (w''.offset - w'.offset - 2)) })

/-- `serialize_dns_record`: `owner` is `owner_name`, `none` for a null pointer. -/
def serializeDnsRecord (maxLen : Nat) (rec : DnsRecord) (owner : Option Text) (overrideTtl : Nat)
    (w : Out) : Bool × Out :=
  if isMetaRrtype rec.typeCode.toNat then (false, w)
  else
    writeRecord maxLen
      (recordHead (ownerScript w.ctx.isSome rec owner) rec.typeCode.toNat (recClass rec)
        (ttlWithOverride (recTtl rec) overrideTtl))
      (fullRdataScript w.ctx.isSome rec) w

/-! ### What a call changes -/

/-- A call that got past the head has the two octets of RDLENGTH to write to. -/
lemma recordHead_room {maxLen : Nat} {owner : Script} {type class_ ttl : Nat} {w : Out}
    (h : (run maxLen (recordHead owner type class_ ttl) w).1 = true) :
    (run maxLen (recordHead owner type class_ ttl) w).2.offset + 2 ≤ maxLen := by
  rw [recordHead, cons_append, run_cons] at h ⊢
  split at h
  · rename_i hneed
    rw [if_pos hneed]
    rw [run_append] at h ⊢
    split at h
    · rename_i howner
      rw [if_pos howner]
      generalize (run maxLen owner (Act.exec maxLen w (.need dnsHeaderSize)).2).2 = v at h ⊢
      by_cases hten : v.offset + 10 ≤ maxLen
      · have hput : v.offset + (be16 type ++ be16 class_ ++ be32 ttl).length ≤ maxLen := by
          simp only [length_append, be16_length, be32_length]
          omega
        rw [run, exec_need_pos hten]
        dsimp only
        rw [run, exec_put hput]
        simp only [run_nil, Out.put_offset, length_append, be16_length, be32_length]
        omega
      · rw [run, exec_need_neg hten] at h
        cases h
    · rename_i howner
      exact absurd h howner
  · rename_i hneed
    exact absurd h hneed

/-- A call ends within the buffer. -/
lemma writeRecord_le {maxLen : Nat} {head rdata : Script} {w : Out} (hw : w.offset ≤ maxLen)
    (hroom : (run maxLen head w).1 = true → (run maxLen head w).2.offset + 2 ≤ maxLen) :
    (writeRecord maxLen head rdata w).2.offset ≤ maxLen := by
  unfold writeRecord
  generalize run maxLen head w = r at hroom ⊢
  obtain ⟨_ | _, v⟩ := r
  · exact hw
  have hle := @run_le maxLen rdata { v with offset := v.offset + 2 } (hroom rfl)
  dsimp only
  generalize run maxLen rdata { v with offset := v.offset + 2 } = r at hle ⊢
  obtain ⟨_ | _, u⟩ := r
  · exact hw
  · exact hle rfl

lemma serialize_le {maxLen : Nat} {w : Out} (rec : DnsRecord) (owner : Option Text) (ttl : Nat)
    (hw : w.offset ≤ maxLen) : (serializeDnsRecord maxLen rec owner ttl w).2.offset ≤ maxLen := by
  unfold serializeDnsRecord
  split
  · exact hw
  · exact writeRecord_le hw recordHead_room

/-- Nothing before the offset is touched. -/
lemma writeRecord_below (maxLen : Nat) (head rdata : Script) (w : Out) :
    AgreeOn 0 w.offset w.buf (writeRecord maxLen head rdata w).2.buf := by
  have hhead := @run_grows maxLen head w
  unfold writeRecord
  generalize run maxLen head w = r at hhead ⊢
  obtain ⟨_ | _, w'⟩ := r
  · exact hhead.agree
  have hrd := @run_grows maxLen rdata { w' with offset := w'.offset + 2 }
  dsimp only at hhead ⊢
  generalize run maxLen rdata { w' with offset := w'.offset + 2 } = r at hrd ⊢
  have hstep : ∀ i, i < w.offset → w.buf i = r.2.buf i := fun i hi =>
    (hhead.agree i (Nat.zero_le _) hi).trans
      (hrd.agree i (Nat.zero_le _) (by have := hhead.le; dsimp only; omega))
  obtain ⟨_ | _, w''⟩ := r
  · exact fun i _ hi => hstep i hi
  intro i _ hi
  have hlt : i < w'.offset := Nat.lt_of_lt_of_le hi hhead.le
  dsimp only
  rw [blit_lt hlt]
  exact hstep i hi

/-- Two calls with one result: the same return value, offset and table, the same octets before
the offset, and after success the same buffer altogether. -/
structure SameWrite (r r' : Bool × Out) : Prop where
  ok : r.1 = r'.1
  offset : r.2.offset = r'.2.offset
  ctx : r.2.ctx = r'.2.ctx
  below : AgreeOn 0 r.2.offset r.2.buf r'.2.buf
  buf : r.1 = true → r.2.buf = r'.2.buf

lemma SameWrite.refl (r : Bool × Out) : SameWrite r r :=
  ⟨rfl, rfl, rfl, fun _ _ _ => rfl, fun _ => rfl⟩

lemma SameWrite.symm {r r' : Bool × Out} (h : SameWrite r r') : SameWrite r' r :=
  ⟨h.ok.symm, h.offset.symm, h.ctx.symm, fun i h0 hi => (h.below i h0 (h.offset ▸ hi)).symm,
    fun hok => (h.buf (h.ok.trans hok)).symm⟩

/-- A success has one result. -/
lemma SameWrite.eq_success {r : Bool × Out} {v : Out} (h : SameWrite r (true, v)) :
    r = (true, v) := by
  obtain ⟨ok, u⟩ := r
  obtain ⟨hok, hoffset, hctx, -, hbuf⟩ := h
  cases hok
  obtain ⟨buf, offset, ctx⟩ := u
  cases v
  cases hoffset
  cases hctx
  cases hbuf rfl
  rfl

/-- Scripts that cannot be told apart make calls that cannot be told apart. -/
lemma writeRecord_same {maxLen : Nat} {owner owner' rdata rdata' : Script} {type class_ ttl : Nat}
    {w : Out} (hown : ScriptEquiv w.ctx.isSome owner owner')
    (hrd : ScriptEquiv w.ctx.isSome rdata rdata') :
    SameWrite (writeRecord maxLen (recordHead owner type class_ ttl) rdata w)
      (writeRecord maxLen (recordHead owner' type class_ ttl) rdata' w) := by
  by_cases hw : w.offset ≤ maxLen
  · have hbelow := writeRecord_below maxLen (recordHead owner type class_ ttl) rdata w
    have hbelow' := writeRecord_below maxLen (recordHead owner' type class_ ttl) rdata' w
    have hag : AgreeOn 0 w.offset
      (writeRecord maxLen (recordHead owner type class_ ttl) rdata w).2.buf
        (writeRecord maxLen (recordHead owner' type class_ ttl) rdata' w).2.buf :=
      fun i h0 hi => (hbelow i h0 hi).symm.trans (hbelow' i h0 hi)
    have hhead : SameRun (run maxLen (recordHead owner type class_ ttl) w)
        (run maxLen (recordHead owner' type class_ ttl) w) :=
      ((hown.append (ScriptEquiv.refl _ _)).cons _) maxLen w rfl hw
    have hroom := @recordHead_room maxLen owner type class_ ttl w
    have hsome := run_isSome (s := recordHead owner type class_ ttl) hw
    unfold writeRecord at hag ⊢
    generalize run maxLen (recordHead owner type class_ ttl) w = r at *
    generalize run maxLen (recordHead owner' type class_ ttl) w = r' at *
    obtain ⟨ok, v⟩ := r
    obtain ⟨ok', v'⟩ := r'
    obtain rfl : ok = ok' := hhead.ok
    cases ok with
    | false => exact ⟨rfl, rfl, hhead.ctx, hag, fun h => by cases h⟩
    | true =>
      obtain rfl : v = v' := hhead.out rfl
      have hsame := hrd maxLen { v with offset := v.offset + 2 } hsome (hroom rfl)
      dsimp only at hag ⊢
      generalize run maxLen rdata { v with offset := v.offset + 2 } = q at *
      generalize run maxLen rdata' { v with offset := v.offset + 2 } = q' at *
      obtain ⟨ok, u⟩ := q
      obtain ⟨ok', u'⟩ := q'
      obtain rfl : ok = ok' := hsame.ok
      cases ok with
      | false => exact ⟨rfl, rfl, hsame.ctx, hag, fun h => by cases h⟩
      | true =>
        obtain rfl : u = u' := hsame.out rfl
        exact SameWrite.refl _
  · have hfail : ∀ s r : Script, writeRecord maxLen (recordHead s type class_ ttl) r w =
        (false, w) := by
      intro s r
      rw [writeRecord, recordHead, cons_append, run, exec_need_neg (by omega)]
    rw [hfail, hfail]
    exact SameWrite.refl _

end KariDns
