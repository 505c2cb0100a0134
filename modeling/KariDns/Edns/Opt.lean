import KariDns.Wire.Walk

/-! The OPT record of a response (`assemble_edns_opt`, RFC 6891).

Lengths are counted in 16 bits, as in the source. The values have the bounds of their buffers there
(64 extended errors of 255 octets, 16 further types, texts of the configuration of at most 4096
octets), so the options take at most 20931 octets and no length wraps around.
-/

namespace KariDns

open Octets DomainName List

/-! ### What is known of the other side -/

/-- The two halves of a DNS cookie. -/
structure Cookie where
  client : List UInt8
  server : List UInt8
  client_length : client.length = 8
  server_length : server.length ≤ 32

/-- An extended DNS error, `parsed_ede_t`. -/
structure ExtendedError where
  code : Nat
  text : Text
  text_length : text.length ≤ 255

/-- The client subnet of a request. -/
structure ClientSubnet where
  family : Nat
  source : Nat
  scope : Nat
  addr : List UInt8
  addr_length : addr.length = 16

/-- `edns_info_t`. A flag and the value that goes with it are one optional value. 64 is
`MAX_EDE_COUNT`. -/
structure EdnsInfo where
  present : Bool := false
  udpPayloadSize : Nat := 512
  extRcode : Nat := 0
  version : Nat := 0
  dnssecOk : Bool := false
  compactAnswersOk : Bool := false
  serverUdpSize : Nat := 0
  cookie : Option Cookie := none
  malformedCookie : Bool := false
  ede : { errors : List ExtendedError // errors.length ≤ 64 } := ⟨[], by decide⟩
  nsidQuery : Bool := false
  keepaliveQuery : Bool := false
  mqtypes : Option { types : List Nat // types.length ≤ 16 } := none
  mqtypeDuplicated : Bool := false
  mqtypeResponse : Bool := false
  ecs : Option ClientSubnet := none
  malformedEcs : Bool := false
  karidnsExt : Option (Nat × Nat) := none
  expireQuery : Bool := false
  expireValue : Option Nat := none
  sendExpire : Option Nat := none

/-- What `assemble_edns_opt` reads of `server_config_t`. A token of the configuration has at most
4096 octets. -/
structure EdnsConfig where
  nsid : Option { text : Text // text.length ≤ 4096 } := none
  tcpConnectionReuse : Bool := false
  tcpAdvertised : Option Nat := none
  tcpIdleTimeout : Nat := 0
  ecsEnable : Bool := false

/-! ### Options -/

/-- One option: its code, its length and its data. -/
def optionOctets (code : Nat) (data : List UInt8) : List UInt8 :=
  be16 code ++ be16 data.length ++ data

@[simp]
lemma optionOctets_length (code : Nat) (data : List UInt8) :
    (optionOctets code data).length = 4 + data.length := by
  simp [optionOctets, ← Nat.add_assoc]

/-- The value of edns-tcp-keepalive (RFC 7828). -/
def keepaliveValue (cfg : EdnsConfig) : Nat :=
  match cfg.tcpAdvertised with
  | some units => units
  | none =>
    let ms := if cfg.tcpIdleTimeout > 0 then cfg.tcpIdleTimeout else 10000
    max 1 (min (ms / 100) 65535)

/-- How many octets of the address a client subnet goes back with. -/
def ecsAddrBytes (s : ClientSubnet) : Nat :=
  let n := (s.source + 7) / 8 % 256
  if s.family = 1 then min n 4 else if s.family = 2 then min n 16 else 0

/-- The extended errors. -/
def edeOctets (edns : EdnsInfo) : List UInt8 :=
  edns.ede.1.flatMap fun e => optionOctets 15 (be16 e.code ++ e.text)

/-- The options that come before the extended errors. -/
def cookieOctets (edns : EdnsInfo) : List UInt8 :=
  match edns.cookie with
  | some c => optionOctets 10 (c.client ++ c.server)
  | none => []

/-- The options that come behind the extended errors; the length of NSID is taken in 16 bits. -/
def furtherOctets (edns : EdnsInfo) (isTcp : Bool) (cfg : Option EdnsConfig) : List UInt8 :=
  (match edns.mqtypes with
    | some types => optionOctets 21 (types.1.flatMap be16)
    | none => []) ++
  (match edns.nsidQuery, cfg.bind EdnsConfig.nsid with
    | true, some text => optionOctets 3 (text.1.take (text.1.length % 65536))
    | _, _ => []) ++
  (match isTcp && edns.keepaliveQuery, cfg with
    | true, some c => if c.tcpConnectionReuse then optionOctets 11 (be16 (keepaliveValue c)) else []
    | _, _ => []) ++
  (match edns.karidnsExt with
    | some (version, hash) => optionOctets 65153 (UInt8.ofNat version :: be32 hash)
    | none => []) ++
  (match edns.sendExpire with
    | some seconds => optionOctets 9 (be32 seconds)
    | none => []) ++
  (match edns.ecs with
    | some s =>
      if (cfg.map EdnsConfig.ecsEnable).getD true then
        optionOctets 8
          (be16 s.family ++ [UInt8.ofNat s.source, UInt8.ofNat s.scope] ++
            s.addr.take (ecsAddrBytes s))
      else []
    | none => [])

/-- The octets of an OPT record with these options; RDLENGTH has 16 bits. -/
def optRecord (edns : EdnsInfo) (rcodeExt : Nat) (options : List UInt8) : List UInt8 :=
  [0] ++ be16 41 ++ be16 (if edns.serverUdpSize ≠ 0 then edns.serverUdpSize else 1232) ++
    [UInt8.ofNat rcodeExt, 0] ++
    be16 (if edns.dnssecOk then 0x8000 else 0) ++ be16 (options.length % 65536) ++ options

/-- `assemble_edns_opt`: the octets it appends behind `offset`, none if there is no room for them.
Extended errors are left out if that makes room for the rest. -/
def assembleEdnsOpt (offset maxResLen : Nat) (edns : EdnsInfo) (rcodeExt : Nat) (isTcp : Bool)
    (cfg : Option EdnsConfig) : List UInt8 :=
  let whole := cookieOctets edns ++ edeOctets edns ++ furtherOctets edns isTcp cfg
  let options :=
    if offset + 11 + whole.length % 65536 > maxResLen ∧ edns.ede.1 ≠ [] then
      cookieOctets edns ++ furtherOctets edns isTcp cfg
    else whole
  if offset + 11 + options.length % 65536 ≤ maxResLen then optRecord edns rcodeExt options else []

lemma edeOctets_length_le (edns : EdnsInfo) : (edeOctets edns).length ≤ 16704 := by
  have hsum : ∀ es : List ExtendedError,
      (es.flatMap fun e => optionOctets 15 (be16 e.code ++ e.text)).length ≤ es.length * 261 := by
    intro es
    induction es with
    | nil => simp
    | cons e es ih =>
      have htext := e.text_length
      simp only [flatMap_cons, length_append, optionOctets_length, be16_length, length_cons]
      omega
  have hall := hsum edns.ede.1
  have hcount := edns.ede.2
  rw [edeOctets]
  omega

/-- The options are not longer than 16 bits can say. -/
lemma options_length_lt (edns : EdnsInfo) (isTcp : Bool) (cfg : Option EdnsConfig) :
    (cookieOctets edns ++ edeOctets edns ++ furtherOctets edns isTcp cfg).length < 65536 := by
  have hede := edeOctets_length_le edns
  have hcookie : (cookieOctets edns).length ≤ 44 := by
    rw [cookieOctets]
    cases edns.cookie with
    | none => simp
    | some c =>
      have hclient := c.client_length
      have hserver := c.server_length
      simp
      omega
  suffices hfurther : (furtherOctets edns isTcp cfg).length ≤ 36 + 4100 + 6 + 9 + 8 + 24 by
    simp only [length_append]
    omega
  simp only [furtherOctets, length_append]
  refine Nat.add_le_add
    (Nat.add_le_add (Nat.add_le_add (Nat.add_le_add (Nat.add_le_add ?_ ?_) ?_) ?_) ?_) ?_
  · cases edns.mqtypes with
    | none => simp
    | some types =>
      have htypes := types.2
      simp [length_flatMap]
      omega
  · split
    · rename_i text _ _
      have htext := text.2
      simp
      omega
    · simp
  · split
    · split <;> simp
    · simp
  · cases edns.karidnsExt <;> simp
  · cases edns.sendExpire <;> simp
  cases edns.ecs with
  | none => simp
  | some s =>
    have haddr := s.addr_length
    dsimp only
    split <;> simp
    omega

lemma optRecord_length (edns : EdnsInfo) (rcodeExt : Nat) (options : List UInt8) :
    (optRecord edns rcodeExt options).length = 11 + options.length := by
  simp [optRecord]
  omega

/-- Nothing is appended, or an OPT record that stays within the limit. -/
lemma assembleEdnsOpt_cases {offset maxResLen : Nat} {edns : EdnsInfo} {rcodeExt : Nat}
    {isTcp : Bool} {cfg : Option EdnsConfig} :
    assembleEdnsOpt offset maxResLen edns rcodeExt isTcp cfg = [] ∨
      ∃ options, options.length < 65536 ∧ offset + 11 + options.length ≤ maxResLen ∧
        assembleEdnsOpt offset maxResLen edns rcodeExt isTcp cfg =
          optRecord edns rcodeExt options := by
  have hfit := options_length_lt edns isTcp cfg
  have hless : (cookieOctets edns ++ furtherOctets edns isTcp cfg).length < 65536 := by
    simp only [length_append] at hfit ⊢
    omega
  unfold assembleEdnsOpt
  simp only
  generalize hopts :
    (if offset + 11 +
      (cookieOctets edns ++ edeOctets edns ++ furtherOctets edns isTcp cfg).length % 65536 >
    maxResLen ∧ edns.ede.1 ≠ [] then cookieOctets edns ++ furtherOctets edns isTcp cfg
    else cookieOctets edns ++ edeOctets edns ++ furtherOctets edns isTcp cfg) = options
  have hlen : options.length < 65536 := by
    rw [← hopts]
    split <;> assumption
  rw [Nat.mod_eq_of_lt hlen]
  split
  · exact .inr ⟨options, hlen, ‹_›, rfl⟩
  · exact .inl rfl

/-- Owner, type and RDLENGTH of an OPT record. -/
lemma optRecord_fields {m : Buf} {p : Nat} {edns : EdnsInfo} {rcodeExt : Nat} {options : List UInt8}
    (hlen : options.length < 65536) (h : Holds m p (optRecord edns rcodeExt options)) :
    m p = 0 ∧ getU16 m (p + 1) = 41 ∧ getU16 m (p + 9) = options.length := by
  rw [optRecord, Nat.mod_eq_of_lt hlen] at h
  have hrd := (holds_append.mp (holds_append.mp h).1).2
  simp only [length_append, length_cons, length_nil, be16_length] at hrd
  simp only [append_assoc, singleton_append] at h
  obtain ⟨hroot, hrest⟩ := holds_cons.mp h
  exact ⟨hroot, getU16_of_holds (holds_append.mp hrest).1 (by decide), getU16_of_holds hrd hlen⟩

/-- An OPT record behind `p` is one record that ends where its octets end. -/
lemma walkRecords_opt {m : Buf} {p : Nat} {edns : EdnsInfo} {rcodeExt : Nat} {options : List UInt8}
    (hlen : options.length < 65536) (h : Holds m p (optRecord edns rcodeExt options)) :
    walkRecords m (p + 11 + options.length) 1 p = some (p + 11 + options.length) := by
  obtain ⟨hroot, -, hrd⟩ := optRecord_fields hlen h
  have hname : expandWireNameToBuffer m (p + 11 + options.length) p dnsNameTextSize =
      some ([46], p + 1) := by
    rw [expandWireNameToBuffer, if_neg (by simp [dnsNameTextSize]; omega), expandFuel, expandLoop]
    simp [hroot, isPointer]
    omega
  simp only [walkRecords, hname, show p + 1 + 8 = p + 9 from rfl, hrd]
  rw [if_neg (by omega)]

end KariDns
