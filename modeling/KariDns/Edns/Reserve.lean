import KariDns.Edns.Opt

/-! Room for the OPT record.

The body of a response leaves `edns_opt_reserve_len` octets free, and `assemble_edns_opt` appends
the OPT record to it. The reserve, the RDLENGTH and the octets that are written are three
computations over the same options, and they agree.
-/

namespace KariDns

open Octets DomainName List Option

/-- `edns_opt_reserve_len`. -/
def ednsOptReserveLen (edns : EdnsInfo) (isTcp : Bool) (cfg : Option EdnsConfig) : Nat :=
  11 + (if edns.cookie.isSome then 4 + 8 + 32 else 0) +
    (edns.mqtypes.elim 0 fun types => 4 + types.1.length * 2) +
    (if edns.nsidQuery then (cfg.bind EdnsConfig.nsid).elim 0 fun text => 4 + text.1.length
      else 0) +
    (if isTcp && edns.keepaliveQuery then cfg.elim 0 fun c => if c.tcpConnectionReuse then 4 + 2
      else 0 else 0) +
    (if edns.karidnsExt.isSome then 4 + 5 else 0) +
    (if edns.expireQuery || edns.sendExpire.isSome then 4 + 4 else 0) +
    (if edns.ecs.isSome && (cfg.map EdnsConfig.ecsEnable).getD true then 4 + 4 + 16 else 0)

/-! ### The options as values -/

/-- The option that carries the cookie. -/
def cookieOption (edns : EdnsInfo) : List (Nat × List UInt8) :=
  (edns.cookie.map fun c => (10, c.client ++ c.server)).toList

/-- The options that carry the extended errors. -/
def edeOptions (edns : EdnsInfo) : List (Nat × List UInt8) :=
  edns.ede.1.map fun e => (15, be16 e.code ++ e.text)

/-- The options behind the extended errors: the further types, NSID, keepalive, extended transfer,
EXPIRE and client subnet. -/
def furtherOptions (edns : EdnsInfo) (isTcp : Bool) (cfg : Option EdnsConfig) :
    List (Nat × List UInt8) :=
  (edns.mqtypes.map fun types => (21, types.1.flatMap be16)).toList ++
  (if edns.nsidQuery then (cfg.bind EdnsConfig.nsid).map fun text => (3, text.1)
    else none).toList ++
  (if isTcp && edns.keepaliveQuery then
    (cfg.filter EdnsConfig.tcpConnectionReuse).map fun c => (11, be16 (keepaliveValue c))
      else none).toList ++
  (edns.karidnsExt.map fun x => (65153, UInt8.ofNat x.1 :: be32 x.2)).toList ++
  (edns.sendExpire.map fun seconds => (9, be32 seconds)).toList ++
  (if (cfg.map EdnsConfig.ecsEnable).getD true then
    edns.ecs.map fun s =>
      (8, be16 s.family ++ [UInt8.ofNat s.source, UInt8.ofNat s.scope] ++
        s.addr.take (ecsAddrBytes s))
    else none).toList

/-- The octets of options. -/
def optionsOctets (opts : List (Nat × List UInt8)) : List UInt8 :=
  opts.flatMap fun o => optionOctets o.1 o.2

lemma optionsOctets_append (as bs : List (Nat × List UInt8)) :
    optionsOctets (as ++ bs) = optionsOctets as ++ optionsOctets bs := flatMap_append ..

lemma cookieOctets_eq (edns : EdnsInfo) : cookieOctets edns = optionsOctets
    (cookieOption edns) := by
  rw [cookieOctets, cookieOption]
  cases edns.cookie <;> simp [optionsOctets]

lemma edeOctets_eq (edns : EdnsInfo) : edeOctets edns = optionsOctets (edeOptions edns) := by
  simp [edeOctets, edeOptions, optionsOctets, flatMap_map]

/-- NSID is not cut. -/
lemma furtherOctets_eq {edns : EdnsInfo} {isTcp : Bool} {cfg : Option EdnsConfig} :
    furtherOctets edns isTcp cfg = optionsOctets (furtherOptions edns isTcp cfg) := by
  simp only [furtherOctets, furtherOptions, optionsOctets_append]
  congr 1
  · congr 1
    · congr 1
      · congr 1
        · congr 1
          · cases edns.mqtypes <;> simp [optionsOctets]
          cases edns.nsidQuery with
          | false => simp [optionsOctets]
          | true =>
            cases cfg.bind EdnsConfig.nsid with
            | none => simp [optionsOctets]
            | some text =>
              have htext : text.1.length < 65536 := by
                have := text.2
                omega
              simp [optionsOctets, Nat.mod_eq_of_lt htext]
        cases isTcp && edns.keepaliveQuery with
        | false => simp [optionsOctets]
        | true =>
          cases cfg with
          | none => simp [optionsOctets]
          | some c => cases hc : c.tcpConnectionReuse <;> simp [optionsOctets, hc, Option.filter]
      · cases edns.karidnsExt <;> simp [optionsOctets]
    · cases edns.sendExpire <;> simp [optionsOctets]
  cases edns.ecs with
  | none => simp [optionsOctets]
  | some s => cases (cfg.map EdnsConfig.ecsEnable).getD true <;> simp [optionsOctets]

/-! ### Reading options -/

/-- The options from `off` on, if they fill the octets up to `stop` exactly. -/
def readOptions (m : Buf) (stop : Nat) : Nat → Nat → Option (List (Nat × List UInt8))
  | 0, _ => none
  | fuel + 1, off =>
    if off = stop then some []
    else if off + 4 > stop then none
    else if off + 4 + getU16 m (off + 2) > stop then none
    else
      (readOptions m stop fuel (off + 4 + getU16 m (off + 2))).map
        ((getU16 m off, slice m (off + 4) (getU16 m (off + 2))) :: ·)

lemma readOptions_octets {m : Buf} {stop : Nat} (opts : List (Nat × List UInt8))
    (hopts : ∀ o ∈ opts, o.1 < 65536 ∧ o.2.length < 65536) {fuel off : Nat}
    (h : Holds m off (optionsOctets opts)) (hstop : off + (optionsOctets opts).length = stop)
    (hfuel : opts.length < fuel) :
    readOptions m stop fuel off = some opts := by
  induction opts generalizing fuel off with
  | nil =>
    rcases fuel with _ | fuel
    · omega
    rw [readOptions, if_pos (by simpa [optionsOctets] using hstop)]
  | cons o opts ih =>
    rcases fuel with _ | fuel
    · omega
    obtain ⟨hcode, hlen⟩ := hopts o mem_cons_self
    have hcons : optionsOctets (o :: opts) = optionOctets o.1 o.2 ++ optionsOctets opts :=
      flatMap_cons ..
    rw [hcons, holds_append, optionOctets_length] at h
    rw [hcons, length_append, optionOctets_length] at hstop
    obtain ⟨hone, hrest⟩ := h
    rw [optionOctets, holds_append, holds_append] at hone
    obtain ⟨⟨hc, hl⟩, hdata⟩ := hone
    have hcode' := getU16_of_holds hc hcode
    have hlen' : getU16 m (off + 2) = o.2.length := getU16_of_holds (by simpa using hl) hlen
    have hheld : Holds m (off + 4) o.2 := by simpa [Nat.add_assoc] using hdata
    have hslice : slice m (off + 4) o.2.length = o.2 := hheld
    rw [readOptions, hlen', hcode', hslice, if_neg (by omega), if_neg (by omega), if_neg (by omega),
      ih (fun x hx => hopts x (mem_cons_of_mem _ hx))
        (by simpa [← Nat.add_assoc] using hrest) (by omega)
        (by simpa using hfuel)]
    rfl

/-! ### Finding the record -/

/-- The loop of `dns_find_opt_rr` over the records: the place and the length of the first OPT
record. -/
def findOptLoop (m : Buf) (len : Nat) : Nat → Nat → Option (Nat × Nat)
  | 0, _ => none
  | k + 1, off =>
    match skipWireName m len off with
    | none => none
    | some n =>
      if n + 10 > len then none
      else if n + 10 + getU16 m (n + 8) > len then none
      else if getU16 m n = 41 then some (off, n + 10 + getU16 m (n + 8) - off)
      else findOptLoop m len k (n + 10 + getU16 m (n + 8))

/-- `dns_find_opt_rr`. -/
def dnsFindOptRr (m : Buf) (len : Nat) : Option (Nat × Nat) :=
  if len < 12 then none
  else
    match skipWireQuestions m len (getU16 m 4) 12 with
    | none => none
    | some q => findOptLoop m len (getU16 m 6 + getU16 m 8 + getU16 m 10) q

/-- The offset behind `k` records, none of them an OPT. -/
def plainRecords (m : Buf) (len : Nat) : Nat → Nat → Option Nat
  | 0, p => some p
  | k + 1, p =>
    match skipWireName m len p with
    | none => none
    | some n =>
      if n + 10 + getU16 m (n + 8) > len ∨ getU16 m n = 41 then none
      else plainRecords m len k (n + 10 + getU16 m (n + 8))

/-- The first `len` octets are the body of a message whose counts are those in the header, with one
record less in the additional section: the questions and the records, none of them an OPT, go
through to the end. -/
structure OptLessBody (m : Buf) (len : Nat) : Prop where
  header : 12 ≤ len
  counted : 1 ≤ getU16 m 10
  walk : ∃ q, skipWireQuestions m len (getU16 m 4) 12 = some q ∧
    plainRecords m len (getU16 m 6 + getU16 m 8 + (getU16 m 10 - 1)) q = some len

/-- A walk through the body goes on behind it. -/
lemma findOptLoop_plain {m m' : Buf} {len len' : Nat} (hag : AgreeOn 0 len m m') (hlen : len ≤ len')
    (j k : Nat) {p q : Nat} (h : plainRecords m len k p = some q) :
      findOptLoop m' len' (k + j) p = findOptLoop m' len' j q := by
  induction k generalizing p with
  | zero =>
    cases h
    rw [Nat.zero_add]
  | succ k ih =>
    rw [plainRecords] at h
    cases hs : skipWireName m len p with
    | none =>
      rw [hs] at h
      cases h
    | some n =>
      rw [hs] at h
      dsimp only at h
      split at h
      · cases h
      rename_i hin
      rw [not_or, not_lt] at hin
      have htype : getU16 m' n = getU16 m n := getU16_agree hag (by omega) (by omega)
      have hrd : getU16 m' (n + 8) = getU16 m (n + 8) := getU16_agree hag (by omega) (by omega)
      rw [Nat.succ_add, findOptLoop, skipWireName_extend hag hlen hs]
      dsimp only
      rw [hrd, htype, if_neg (by omega), if_neg (by omega), if_neg hin.2]
      exact ih h

/-- The record that ends the message is found, if the body holds no other. -/
lemma dnsFindOptRr_last {m : Buf} {len : Nat} {edns : EdnsInfo} {rcodeExt : Nat}
    {options : List UInt8} (hbody : OptLessBody m len) (hlen : options.length < 65536)
    (h : Holds m len (optRecord edns rcodeExt options)) :
    dnsFindOptRr m (len + (11 + options.length)) = some (len, 11 + options.length) := by
  obtain ⟨q, hq, hplain⟩ := hbody.walk
  have hheader := hbody.header
  have hcounted := hbody.counted
  have hsame : AgreeOn 0 len m m := fun _ _ _ => rfl
  obtain ⟨hroot, htype, hrd⟩ := optRecord_fields hlen h
  have hskip : skipWireName m (len + (11 + options.length)) len = some (len + 1) :=
    skipWireName_root (by omega) hroot
  rw [dnsFindOptRr, if_neg (by omega), skipWireQuestions_extend hsame (by omega) _ hq]
  dsimp only
  rw [show getU16 m 6 + getU16 m 8 + getU16 m 10 = getU16 m 6 + getU16 m 8 +
    (getU16 m 10 - 1) + 1 by omega,
    findOptLoop_plain hsame (by omega) 1 _ hplain, findOptLoop, hskip]
  dsimp only
  rw [show len + 1 + 8 = len + 9 from rfl, hrd, htype, if_neg (by omega), if_neg (by omega),
    if_pos rfl]
  congr 2
  omega

/-! ### The reserve -/

/-- The reserve holds the record without extended errors. -/
lemma ednsOptReserveLen_le (edns : EdnsInfo) (isTcp : Bool) (cfg : Option EdnsConfig) :
    11 + (cookieOctets edns ++ furtherOctets edns isTcp cfg).length ≤
      ednsOptReserveLen edns isTcp cfg := by
  simp only [ednsOptReserveLen, furtherOctets, length_append, Nat.add_assoc]
  refine Nat.add_le_add_left ?_ 11
  refine Nat.add_le_add ?_
    (Nat.add_le_add ?_ (Nat.add_le_add ?_ (Nat.add_le_add ?_ (Nat.add_le_add ?_
    (Nat.add_le_add ?_ ?_)))))
  · rw [cookieOctets]
    cases hc : edns.cookie with
    | none => simp
    | some c =>
      have hclient := c.client_length
      have hserver := c.server_length
      simp
      omega
  · cases edns.mqtypes with
    | none => simp
    | some types => simp [length_flatMap]
  · cases edns.nsidQuery with
    | false => simp
    | true =>
      cases cfg.bind EdnsConfig.nsid with
      | none => simp
      | some text => simp
  · cases isTcp && edns.keepaliveQuery with
    | false => simp
    | true =>
      cases cfg with
      | none => simp
      | some c => cases hc : c.tcpConnectionReuse <;> simp [hc]
  · cases edns.karidnsExt <;> simp
  · cases edns.sendExpire <;> simp
  cases edns.ecs with
  | none => simp
  | some s =>
    have haddr := s.addr_length
    cases (cfg.map EdnsConfig.ecsEnable).getD true <;> simp
    omega

/-! ### The record in the message -/

/-- The options of a response, extended errors included. -/
def allOptions (edns : EdnsInfo) (isTcp : Bool) (cfg : Option EdnsConfig) :
    List (Nat × List UInt8) :=
  cookieOption edns ++ edeOptions edns ++ furtherOptions edns isTcp cfg

/-- `opt` is the OPT record that belongs behind a body of `offset` octets: it stays within the
limit, its RDLENGTH is the length of its options, they fill it exactly and carry the values of the
state, extended errors are missing only if there is no room for them, and the record is found in the
finished message. -/
structure OptAdded (offset limit : Nat) (edns : EdnsInfo) (isTcp : Bool) (cfg : Option EdnsConfig)
    (opt : List UInt8) : Prop where
  within : offset + opt.length ≤ limit
  carries : ∃ opts, (opts = allOptions edns isTcp cfg ∨
      limit < offset + 11 + (optionsOctets (allOptions edns isTcp cfg)).length ∧
        opts = cookieOption edns ++ furtherOptions edns isTcp cfg) ∧
    opt.length = 11 + (optionsOctets opts).length ∧
    ∀ m, Holds m offset opt → getU16 m (offset + 9) = (optionsOctets opts).length ∧
      readOptions m (offset + opt.length) (opts.length + 1) (offset + 11) = some opts
  found : ∀ m, OptLessBody m offset → Holds m offset opt →
    dnsFindOptRr m (offset + opt.length) = some (offset, opt.length)

section Added

variable {offset limit rcodeExt : Nat} {edns : EdnsInfo} {isTcp : Bool} {cfg : Option EdnsConfig}

lemma optionsOctets_mem {opts : List (Nat × List UInt8)} {o : Nat × List UInt8} (ho : o ∈ opts) :
    o.2.length ≤ (optionsOctets opts).length := by
  obtain ⟨as, bs, rfl⟩ := append_of_mem ho
  rw [optionsOctets_append, length_append, optionsOctets, optionsOctets, flatMap_cons,
    length_append, optionOctets_length]
  omega

lemma allOptions_code : ∀ o ∈ allOptions edns isTcp cfg, o.1 < 65536 := by
  intro o ho
  simp only [allOptions, cookieOption, edeOptions, furtherOptions, mem_append, mem_toList,
    List.mem_map, map_eq_some_iff, ite_none_right_eq_some] at ho
  grind

/-- A record with these options, whole. -/
lemma optAdded_of_options {opts : List (Nat × List UInt8)} (hcode : ∀ o ∈ opts, o.1 < 65536)
    (hfit : offset + 11 + (optionsOctets opts).length ≤ limit)
    (hlen : (optionsOctets opts).length < 65536) (hopts : opts = allOptions edns isTcp cfg ∨
      limit < offset + 11 + (optionsOctets (allOptions edns isTcp cfg)).length ∧
        opts = cookieOption edns ++ furtherOptions edns isTcp cfg) :
    OptAdded offset limit edns isTcp cfg (optRecord edns rcodeExt (optionsOctets opts)) := by
  have hsize := optRecord_length edns rcodeExt (optionsOctets opts)
  refine ⟨by omega, ⟨opts, hopts, hsize, fun m hm => ?_⟩, fun m hbody hm => ?_⟩
  · have hdata : Holds m (offset + 11) (optionsOctets opts) := by
      rw [optRecord, holds_append] at hm
      simpa [Nat.add_assoc] using hm.2
    refine ⟨(optRecord_fields hlen hm).2.2,
      readOptions_octets opts (fun o ho => ⟨hcode o ho, ?_⟩) hdata (by omega) (by omega)⟩
    exact (optionsOctets_mem ho).trans_lt hlen
  · rw [hsize]
    exact dnsFindOptRr_last hbody hlen hm

end Added

/-- A request with a cookie that is answered with an extended error of 200 octets. -/
def cookieEdns : EdnsInfo :=
  { present := true, cookie := some ⟨List.replicate 8 1, List.replicate 16 2, rfl, by decide⟩,
    ede := ⟨[⟨0, List.replicate 200 97, length_replicate.trans_le (by decide)⟩], by decide⟩ }

end KariDns
