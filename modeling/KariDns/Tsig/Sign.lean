import KariDns.Name.Tree

/-! Signing a message with a shared key (RFC 8945, `tsig_sign_packet_ex` in `dns_wire.c`).

The signer digests the MAC of the message before, the unsigned messages since then, the message
itself and the variables of the TSIG record it is about to append. `KeyedHash` stands for HMAC:
nothing is assumed of it but the length of what it returns.
-/

namespace KariDns

open Octets DomainName List Option

/-! ### Algorithms and keys -/

/-- The digests of `g_tsig_alg_table`. -/
inductive EvpMd
  | md5 | sha1 | sha224 | sha256 | sha384 | sha512
  deriving DecidableEq, Repr

/-- `EVP_MD_size`. -/
def EvpMd.size : EvpMd → Nat
  | .md5 => 16
  | .sha1 => 20
  | .sha224 => 28
  | .sha256 => 32
  | .sha384 => 48
  | .sha512 => 64

/-- A function used as `HMAC (md, secret, data)`. -/
structure KeyedHash where
  mac : EvpMd → List UInt8 → List UInt8 → List UInt8
  length_mac : ∀ md secret data, (mac md secret data).length = md.size

/-- `g_tsig_alg_table`. -/
def tsigAlgTable : List (Text × EvpMd) :=
  [(ascii "hmac-md5.sig-alg.reg.int", .md5), (ascii "hmac-md5", .md5), (ascii "hmac-sha1", .sha1),
    (ascii "hmac-sha224", .sha224), (ascii "hmac-sha256", .sha256), (ascii "hmac-sha384", .sha384),
    (ascii "hmac-sha512", .sha512)]

/-- `tsig_algorithm_from_name`. -/
def tsigAlgorithmFromName (alg : Text) : Option EvpMd :=
  let len := if alg.getLast? = some 46 then alg.length - 1 else alg.length
  (tsigAlgTable.find? fun e => strncaseeq alg e.1 len && e.1.length == len).map Prod.snd

/-- `tsig_key_t`. -/
structure TsigKey where
  name : Text
  algorithm : Option Text
  secretDecoded : List UInt8
  fuzztime : Int

/-- `key->algorithm ? key->algorithm : "hmac-sha256"`. -/
def TsigKey.alg (key : TsigKey) : Text := key.algorithm.getD (ascii "hmac-sha256")

/-- The clock a key is used with: `fuzztime` when it is set, else `time (NULL)`. -/
def TsigKey.time (key : TsigKey) (clock : Nat) : Nat :=
  if key.fuzztime > 0 then key.fuzztime.toNat else clock

/-! ### Names -/

/-- `wire_name_length`, `none` for `(size_t) -1`. -/
def wireNameLength (t : Text) : Option Nat := (parseName t).map fun n => (wire n).length

/-- The loop of `write_uncompressed_name`: the octets stored from `offset` on. -/
def writeLowerLoop (maxLen : Nat) : Nat → Text → Nat → Option (List UInt8)
  | 0, _, _ => none
  | fuel + 1, t, offset =>
    match parseLabel [] t with
    | none => none
    | some (l, next) =>
      if l ≠ [] ∧ offset + l.length + 1 > maxLen then none
      else
        let bs := if l = [] then [] else labelWire (l.map lower)
        match next with
        | none => some bs
        | some rest => (writeLowerLoop maxLen fuel rest (offset + bs.length)).map (bs ++ ·)

/-- `write_uncompressed_name`: the octets stored, letters in lower case. -/
def writeUncompressedName (offset maxLen : Nat) (t : Text) : Option (List UInt8) :=
  match writeLowerLoop maxLen (t.length + 1) t offset with
  | none => none
  | some bs =>
    if offset + bs.length + 1 > maxLen then none
    else if bs.length + 1 > 255 then none
    else some (bs ++ [0])

/-! ### The digest -/

/-- What a message is digested behind: the MAC before it (empty for none) and the octets of the
unsigned messages since. For a later message of a stream only the timers follow it. -/
structure TsigContext where
  priorMac : List UInt8
  unsignedMsgs : List UInt8
  isSubsequent : Bool

/-- The octets before the message. -/
def TsigContext.lead (ctx : TsigContext) : List UInt8 :=
  (if ctx.priorMac = [] then [] else be16 ctx.priorMac.length ++ ctx.priorMac) ++ ctx.unsignedMsgs

/-- `tsig_sign_times_t`. -/
structure TsigSignTimes where
  timeSigned : Nat
  fudge : UInt16

/-- Error and Other Data of the record: BADTIME carries the server's clock. -/
def tsigErrorOctets (error : UInt16) (now48 : Nat) : List UInt8 :=
  be16 error.toNat ++ if error = 18 then be16 6 ++ be48 now48 else be16 0

/-- `tsig_rr_wire_size`; 64 is `EVP_MAX_MD_SIZE`. -/
def tsigRrWireSize (keyName alg : Text) (error : UInt16) : Nat :=
  match wireNameLength keyName, wireNameLength alg with
  | some kl, some al => kl + 10 + al + 10 + 64 + 6 + if error = 18 then 6 else 0
  | _, _ => 0

/-- The key name, the class ANY, the TTL 0 and the algorithm name, as they are digested. -/
def tsigNames (offset cap : Nat) (keyName alg : Text) : Option (List UInt8) :=
  match writeUncompressedName offset cap keyName with
  | none => none
  | some k =>
    match writeUncompressedName (offset + k.length + 6) cap alg with
    | none => none
    | some a => some (k ++ be16 255 ++ be32 0 ++ a)

/-- The octets `tsig_sign_packet_ex` hands to `HMAC`. -/
def tsigSignDigest (key : TsigKey) (error : UInt16) (ctx : TsigContext) (m : Buf)
    (len kl al now now48 : Nat) (fudge : UInt16) : Option (List UInt8) :=
  let cap := len + (if ctx.priorMac = [] then 0 else ctx.priorMac.length + 2) +
    ctx.unsignedMsgs.length + kl + 6 + al + 8 + 4 + if error = 18 then 6 else 0
  let message := ctx.lead ++ slice m 0 len
  let timers := be48 now ++ be16 fudge.toNat
  if ctx.isSubsequent then some (message ++ timers)
  else
    match tsigNames message.length cap key.name key.alg with
    | none => none
    | some names => some (message ++ names ++ timers ++ tsigErrorOctets error now48)

/-- The MAC of a digest: empty for BADSIG and BADKEY and for a key without a secret. -/
def tsigMac (H : KeyedHash) (key : TsigKey) (error : UInt16) (digest : List UInt8) :
    Option (List UInt8) :=
  if error = 16 ∨ error = 17 then some []
  else if key.secretDecoded = [] then some []
  else (tsigAlgorithmFromName key.alg).map fun md => H.mac md key.secretDecoded digest

/-! ### Signing -/

/-- A signed message and its MAC, which `prior_mac` holds afterwards. -/
structure SignedPacket where
  buf : Buf
  len : Nat
  mac : List UInt8

/-- RDATA of the TSIG record. -/
def tsigRdata (alg : List UInt8) (now : Nat) (fudge : UInt16) (mac origId : List UInt8)
    (error : UInt16) (now48 : Nat) : List UInt8 :=
  alg ++ be48 now ++ be16 fudge.toNat ++ be16 mac.length ++ mac ++ origId ++
    tsigErrorOctets error now48

/-- The TSIG record: owner, TYPE 250, CLASS ANY, TTL 0 and RDATA. -/
def tsigRr (keyName rdata : List UInt8) : List UInt8 :=
  keyName ++ be16 250 ++ be16 255 ++ be32 0 ++ be16 rdata.length ++ rdata

/-- `tsig_sign_packet_ex` on the message in the first `len` octets of `m`. `clock` and `clock'`
are what its two calls of `time (NULL)` return. -/
def tsigSignPacketEx (H : KeyedHash) (m : Buf) (len maxLen : Nat) (key : TsigKey) (error : UInt16)
    (ctx : TsigContext) (times : Option TsigSignTimes) (clock clock' : Nat) : Option SignedPacket :=
  if len < 12 then none
  else
    match wireNameLength key.name, wireNameLength key.alg with
    | some kl, some al =>
      let needed := tsigRrWireSize key.name key.alg error
      if needed = 0 ∨ len + needed > maxLen then none
      else
        let now := (times.map TsigSignTimes.timeSigned).getD (key.time clock)
        let fudge := (times.map TsigSignTimes.fudge).getD 300
        match tsigSignDigest key error ctx m len kl al now clock' fudge with
        | none => none
        | some digest =>
          match tsigMac H key error digest with
          | none => none
          | some mac =>
            match writeUncompressedName len maxLen key.name with
            | none => none
            | some k =>
              match writeUncompressedName (len + k.length + 10) maxLen key.alg with
              | none => none
              | some a =>
                let rr := tsigRr k (tsigRdata a now fudge mac (slice m 0 2) error clock')
                some ⟨blit (blit m len rr) 10 (be16 (getU16 m 10 + 1)), len + rr.length, mac⟩
    | _, _ => none

/-! ### What the writer of names stores -/

lemma fold_keepLabel (l : Label) (n : Name) :
    fold (keepLabel l n) = if l = [] then fold n else l.map lower :: fold n := by
  unfold keepLabel
  split <;> simp

/-- The labels of a name without the root label. -/
def lowerLabels (n : Name) : List UInt8 := (fold n).flatMap labelWire

lemma wire_fold (n : Name) : wire (fold n) = lowerLabels n ++ [0] := by
  induction n with
  | nil => rfl
  | cons l n ih =>
    rw [fold_cons, wire_cons, ih, lowerLabels, lowerLabels, fold_cons, flatMap_cons, append_assoc]

lemma lowerLabels_keepLabel (l : Label) (n : Name) :
    lowerLabels (keepLabel l n) = (if l = [] then [] else labelWire (l.map lower)) ++
      lowerLabels n := by
  rw [lowerLabels, fold_keepLabel]
  split
  · rfl
  · rw [flatMap_cons]
    rfl

lemma length_wire_fold (n : Name) : (wire (fold n)).length = (wire n).length :=
  wire_length_same (same_fold n)

/-- The loop stores the labels when they fit. The induction is on the turns of the loop. -/
lemma writeLowerLoop_eq {maxLen : Nat} : ∀ {fuel offset : Nat} {t : Text}, offset ≤ maxLen →
    writeLowerLoop maxLen fuel t offset = (parseLabels fuel t).bind fun n =>
      if offset + (lowerLabels n).length ≤ maxLen then some (lowerLabels n) else none
  | 0, _, _, _ => rfl
  | fuel + 1, offset, t, hoff => by
    rw [writeLowerLoop, parseLabels]
    cases hp : parseLabel [] t with
    | none => rfl
    | some r =>
      obtain ⟨l, next⟩ := r
      have hroom : (l ≠ [] ∧ offset + l.length + 1 > maxLen) ↔
          ¬ offset + (if l = [] then [] else labelWire (l.map lower)).length ≤ maxLen := by
        by_cases hl : l = []
        · simp [hl, hoff]
        · simp only [hl, ne_eq, not_false_eq_true, true_and, if_false, labelWire_length, length_map]
          omega
      simp only [hroom]
      generalize hbs : (if l = [] then [] else labelWire (l.map lower)) = bs
      have hkeep : ∀ n, lowerLabels (keepLabel l n) = bs ++ lowerLabels n := fun n => by
        rw [lowerLabels_keepLabel, hbs]
      cases next with
      | none =>
        have hnil : bs ++ lowerLabels [] = bs := append_nil bs
        simp only [bind_some, hkeep, hnil, ite_not]
      | some rest =>
        by_cases hfit : offset + bs.length ≤ maxLen
        · simp only [hfit, not_true_eq_false, if_false, writeLowerLoop_eq hfit]
          cases parseLabels fuel rest with
          | none => rfl
          | some n =>
            simp only [map_some, bind_some, hkeep, length_append, ← Nat.add_assoc]
            split <;> rfl
        simp only [hfit, not_false_eq_true, if_true]
        cases parseLabels fuel rest with
        | none => rfl
        | some n =>
          have hall : ¬ offset + (bs.length + (lowerLabels n).length) ≤ maxLen := by omega
          simp [hkeep, hall]

/-- `write_uncompressed_name` stores the wire form of the name in lower case when there is room. -/
lemma writeUncompressedName_eq {offset maxLen : Nat} {t : Text} (hoff : offset ≤ maxLen) :
    writeUncompressedName offset maxLen t = (readName t).bind fun n =>
      if offset + (wire n).length ≤ maxLen then some (wire (fold n)) else none := by
  rw [writeUncompressedName, writeLowerLoop_eq hoff, readName, ← parseName]
  cases parseName t with
  | none => rfl
  | some n =>
    have hlen : (wire n).length = (lowerLabels n).length + 1 := by
      rw [← length_wire_fold, wire_fold, length_append, length_singleton]
    simp only [bind_some, filter_some, hlen, wire_fold, decide_eq_true_eq]
    by_cases hshort : (lowerLabels n).length + 1 ≤ 255
    · by_cases hall : offset + ((lowerLabels n).length + 1) ≤ maxLen
      · rw [if_pos (by omega), if_pos hshort, bind_some, hlen, if_pos hall]
        simp only
        rw [if_neg (by omega), if_neg (by omega)]
      rw [if_pos hshort, bind_some, hlen, if_neg hall]
      by_cases hroom : offset + (lowerLabels n).length ≤ maxLen
      · rw [if_pos hroom]
        simp only
        rw [if_pos (by omega)]
      · rw [if_neg hroom]
    rw [if_neg hshort, bind_none]
    by_cases hroom : offset + (lowerLabels n).length ≤ maxLen
    · rw [if_pos hroom]
      simp only
      split_ifs
      · rfl
      · rfl
      · omega
    · rw [if_neg hroom]

end KariDns
