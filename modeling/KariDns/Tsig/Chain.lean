import KariDns.Tsig.Readback

/-! Signer and verifier agree.

Both build the octets they digest on their own: the signer from the message, the verifier from
what is left of the signed message. They come to the same octets, so the verifier accepts what the
signer made, alone or in a chain in which every MAC enters the next digest. The exceptions are in
what the signer is given: a key whose name is not spelled the way the server spells it, and a key
or an error code for which nothing is signed.
-/

namespace KariDns

open Octets DomainName List Option

variable {md : EvpMd} {an kn n : Name} {cap offset : Nat} {alg t : Text} {key : TsigKey}

/-! ### Names of algorithms -/

/-- A label without escapes reads the same in lower case, but for the case of the label. -/
lemma parseLabel_lower : ∀ {t : Text} {acc acc' : Label}, 92 ∉ t → acc'.map lower = acc.map lower →
    match parseLabel acc t with
    | none => parseLabel acc' (t.map lower) = none
    | some (l, none) => ∃ l', parseLabel acc' (t.map lower) = some (l', none) ∧
      l'.map lower = l.map lower
    | some (l, some rest) =>
      ∃ l', parseLabel acc' (t.map lower) = some (l', some (rest.map lower)) ∧
        l'.map lower = l.map lower ∧ 92 ∉ rest
  | [], acc, acc', _, hacc => ⟨acc', rfl, hacc⟩
  | c :: t, acc, acc', hplain, hacc => by
    rw [mem_cons, not_or] at hplain
    have hc : lower c ≠ 92 := fun h => hplain.1 ((lower_backslash c).mp h).symm
    rw [map_cons]
    by_cases hdot : c = 46
    · rw [hdot, parseLabel_dot, show lower 46 = 46 from rfl, parseLabel_dot]
      exact ⟨acc', rfl, hacc, hplain.2⟩
    rw [parseLabel_plain (Ne.symm hplain.1) hdot, parseLabel_plain hc (mt (lower_dot c).mp hdot),
      length_eq_of_fold hacc]
    by_cases hroom : acc.length ≥ 63
    · simp [hroom]
    have hnext : (acc' ++ [lower c]).map lower = (acc ++ [c]).map lower := by
      simp [hacc, lower_lower]
    simp only [hroom, if_false]
    exact parseLabel_lower hplain.2 hnext

lemma fold_keepLabel_congr {k l : Label} {a b : Name} (hl : k.map lower = l.map lower)
    (hn : fold a = fold b) :
    fold (keepLabel k a) = fold (keepLabel l b) := by
  have hnil : k = [] ↔ l = [] := by
    rw [← length_eq_zero_iff, ← length_eq_zero_iff, length_eq_of_fold hl]
  rw [fold_keepLabel, fold_keepLabel, hl, hn]
  simp only [hnil]

lemma parseLabels_lower : ∀ {fuel : Nat} {t : Text}, 92 ∉ t →
    (parseLabels fuel (t.map lower)).map fold = (parseLabels fuel t).map fold
  | 0, _, _ => rfl
  | fuel + 1, t, hplain => by
    have hlabel := @parseLabel_lower t [] [] hplain rfl
    rw [parseLabels, parseLabels]
    rcases hp : parseLabel [] t with _ | ⟨l, _ | rest⟩
    · rw [hp] at hlabel
      rw [hlabel]
    · rw [hp] at hlabel
      obtain ⟨l', hl', hl⟩ := hlabel
      simp only [hl', map_some, fold_keepLabel_congr hl rfl]
    · rw [hp] at hlabel
      obtain ⟨l', hl', hl, hrest⟩ := hlabel
      have ih : (parseLabels fuel (rest.map lower)).map fold = _ := parseLabels_lower hrest
      simp only [hl']
      cases h1 : parseLabels fuel (rest.map lower) with
      | none => cases h2 : parseLabels fuel rest with
        | none => rfl
        | some b => simp [h1, h2] at ih
      | some a => cases h2 : parseLabels fuel rest with
        | none => simp [h1, h2] at ih
        | some b =>
          rw [h1, h2] at ih
          simpa using fold_keepLabel_congr hl (some.inj ih)

/-- The texts of the table are plain, and as names they are found again in canonical form. -/
lemma tsigAlgTable_names : ∀ e ∈ tsigAlgTable, ∀ t ∈ [e.1, e.1 ++ [46]], t.map lower = t ∧ 92 ∉ t ∧
    ((parseName t).map fun n => tsigAlgorithmFromName (nameText (fold n))) = some (some e.2) := by
  decide +kernel

lemma tsigAlgorithm_text (h : tsigAlgorithmFromName alg = some md) :
    ∃ e ∈ tsigAlgTable, e.2 = md ∧ alg.map lower ∈ [e.1, e.1 ++ [46]] := by
  rw [tsigAlgorithmFromName] at h
  obtain ⟨e, he, rfl⟩ := map_eq_some_iff.mp h
  have hmem := mem_of_find?_eq_some he
  have hfound := find?_some he
  rw [Bool.and_eq_true, beq_iff_eq, strncaseeq, beq_iff_eq] at hfound
  have hlow := (tsigAlgTable_names e hmem e.1 (by simp)).1
  refine ⟨e, hmem, rfl, ?_⟩
  split at hfound
  · rename_i hdot
    obtain ⟨body, rfl⟩ := getLast?_eq_some_iff.mp hdot
    simp only [length_append, length_singleton, Nat.add_sub_cancel] at hfound
    rw [take_left, ← hfound.2, take_length, hlow] at hfound
    simp [hfound.1, show lower 46 = 46 from rfl]
  · rw [take_length, ← hfound.2, take_length, hlow] at hfound
    simp [hfound.1]

/-- The algorithm of a key is the algorithm of the name that goes on the wire for it. -/
lemma tsigAlgorithm_wire (h : tsigAlgorithmFromName alg = some md) (hn : readName alg = some an) :
    tsigAlgorithmFromName (nameText (fold an)) = some md := by
  obtain ⟨e, he, rfl, htext⟩ := tsigAlgorithm_text h
  obtain ⟨hlow, hplain, hname⟩ := tsigAlgTable_names e he _ htext
  have hplain' : 92 ∉ alg := fun hmem => hplain (List.mem_map.mpr ⟨92, hmem, rfl⟩)
  have hparse : parseName alg = some an := (filter_eq_some_iff.mp hn).1
  have hfold : (parseName (alg.map lower)).map fold = some (fold an) := by
    rw [parseName, length_map, parseLabels_lower hplain', ← parseName, hparse]
    rfl
  obtain ⟨n, hn', hfn⟩ := map_eq_some_iff.mp hfold
  rw [hn', map_some, hfn] at hname
  exact some.inj hname

/-! ### The two digests -/

/-- The octets of a digest by their parts. -/
def digestOctets (ctx : TsigContext) (message : List UInt8) (kn an : Name)
    (timers tail : List UInt8) : List UInt8 :=
  if ctx.isSubsequent then ctx.lead ++ message ++ timers
  else ctx.lead ++ message ++
    (wire (fold kn) ++ be16 255 ++ be32 0 ++ wire (fold an)) ++ timers ++ tail

lemma lead_length (ctx : TsigContext) : ctx.lead.length =
    (if ctx.priorMac = [] then 0 else ctx.priorMac.length + 2) + ctx.unsignedMsgs.length := by
  unfold TsigContext.lead
  split
  · simp
  · simp only [length_append, be16_length]
    omega

lemma wireNameLength_of_read (h : readName t = some n) :
    wireNameLength t = some (wire n).length := by
  rw [wireNameLength, (filter_eq_some_iff.mp h).1]
  rfl

lemma writeUncompressedName_ok (h : readName t = some n) (hroom : offset + (wire n).length ≤ cap) :
    writeUncompressedName offset cap t = some (wire (fold n)) := by
  rw [writeUncompressedName_eq (by omega), h, bind_some, if_pos hroom]

lemma readName_of_write {bs : List UInt8} (h : writeUncompressedName offset cap t = some bs) :
    ∃ n, readName t = some n ∧ bs = wire (fold n) ∧ offset + (wire n).length ≤ cap := by
  have hoff : offset ≤ cap := by
    rw [writeUncompressedName] at h
    split at h
    · cases h
    split at h
    · cases h
    · omega
  rw [writeUncompressedName_eq hoff] at h
  obtain ⟨n, hn, h⟩ := bind_eq_some_iff.mp h
  split at h
  · rename_i hroom
    exact ⟨n, hn, (some.inj h).symm, hroom⟩
  · cases h

lemma tsigNames_ok {keyName : Text} (hk : readName keyName = some kn) (ha : readName alg = some an)
    (hroom : offset + (wire kn).length + 6 + (wire an).length ≤ cap) :
    tsigNames offset cap keyName alg =
      some (wire (fold kn) ++ be16 255 ++ be32 0 ++ wire (fold an)) := by
  rw [tsigNames, writeUncompressedName_ok hk (by omega)]
  simp only [length_wire_fold]
  rw [writeUncompressedName_ok ha (by omega)]

lemma tsigSignDigest_ok {error fudge : UInt16} {ctx : TsigContext} {m : Buf} {len now now48 : Nat}
    (hk : readName key.name = some kn) (ha : readName key.alg = some an) :
    tsigSignDigest key error ctx m len (wire kn).length (wire an).length now now48 fudge =
      some (digestOctets ctx (slice m 0 len) kn an (be48 now ++ be16 fudge.toNat)
        (tsigErrorOctets error now48)) := by
  rw [tsigSignDigest, digestOctets]
  split
  · rfl
  rw [tsigNames_ok hk ha]
  rw [length_append, slice_length, lead_length]
  omega

/-- The message that the verifier restores is the message that was signed. -/
lemma tsigStripped_signed {m : Buf} {len now now48 : Nat} {fudge error : UInt16}
    {mac rr : List UInt8} (hm : PlainMessage m len) :
    tsigStripped (signedBuf m len rr) (signedRr m len kn an now fudge mac error now48) =
      slice m 0 len := by
  have hlen := hm.header
  have hid : be16 (getU16 m 0) = slice (signedBuf m len rr) 0 2 := by
    rw [← be16_getU16, signedBuf_count hlen (by omega)]
  unfold tsigStripped signedRr
  simp only
  rw [signedBuf_arcount hm.additional, Nat.add_sub_cancel, hid, (holds_slice _ _ _).blit_eq,
    signedBuf, blit_over _ _ (by simp), be16_getU16]
  refine slice_congr fun i _ hi => ?_
  rw [Nat.zero_add] at hi
  rw [blit_at _ (blit_lt hi), (holds_slice _ _ _).blit_eq]

/-! ### One message -/

section Message

variable {H : KeyedHash} {m : Buf} {len maxLen clock clock' now now48 : Nat} {key : TsigKey}
    {error fudge : UInt16}
  {ctx : TsigContext} {times : Option TsigSignTimes} {kn an : Name} {out : SignedPacket}
    {mac : List UInt8}

/-- What the signer did when it succeeded. -/
structure Signed (H : KeyedHash) (m : Buf) (len : Nat) (key : TsigKey) (error : UInt16)
    (ctx : TsigContext) (now : Nat) (fudge : UInt16) (now48 : Nat) (kn an : Name)
    (out : SignedPacket) : Prop where
  keyName : readName key.name = some kn
  algName : readName key.alg = some an
  mac : tsigMac H key error (digestOctets ctx (slice m 0 len) kn an (be48 now ++ be16 fudge.toNat)
    (tsigErrorOctets error now48)) = some out.mac
  buf : out.buf = signedBuf m len (signedOctets m (fold kn) (fold an) now fudge out.mac error now48)
  length : out.len = len + (signedOctets m (fold kn) (fold an) now fudge out.mac error now48).length

/-- The time of signing. -/
def signTime (key : TsigKey) (times : Option TsigSignTimes) (clock : Nat) : Nat :=
  (times.map TsigSignTimes.timeSigned).getD (key.time clock)

def signFudge (times : Option TsigSignTimes) : UInt16 := (times.map TsigSignTimes.fudge).getD 300

lemma tsigSignPacketEx_ok
    (h : tsigSignPacketEx H m len maxLen key error ctx times clock clock' = some out) :
    ∃ kn an, Signed H m len key error ctx (signTime key times clock)
      (signFudge times) clock' kn an out := by
  rw [tsigSignPacketEx] at h
  split at h
  · cases h
  split at h
  · rename_i kl al hkl hal
    dsimp only at h
    split at h
    · cases h
    rename_i hneeded
    rw [not_or, not_lt] at hneeded
    split at h
    · cases h
    rename_i digest hdigest
    split at h
    · cases h
    rename_i mac hmac
    split at h
    · cases h
    rename_i k hk
    split at h
    · cases h
    rename_i a ha
    cases h
    obtain ⟨kn, hkn, rfl, -⟩ := readName_of_write hk
    obtain ⟨an, han, rfl, -⟩ := readName_of_write ha
    refine ⟨kn, an, hkn, han, ?_, rfl, rfl⟩
    rw [wireNameLength_of_read hkn] at hkl
    rw [wireNameLength_of_read han] at hal
    cases hkl
    cases hal
    rw [tsigSignDigest_ok hkn han] at hdigest
    cases hdigest
    exact hmac
  · cases h

/-- What a key must be, and what may be signed with it, for its own signatures to verify: its name
is spelled as the server spells it, but for case and the final dot, it has a secret, and the error
is none of the two whose responses go out unsigned. -/
structure SelfVerifying (key : TsigKey) (error : UInt16) : Prop where
  spelling : ∃ n, readName key.name = some n ∧ domainNamesMatchCi (nameText n) key.name = true
  secret : key.secretDecoded ≠ []
  signs : error ≠ 16 ∧ error ≠ 17

lemma tsigMac_cases {digest : List UInt8} (h : tsigMac H key error digest = some mac) :
    (mac = [] ∧ ¬ (key.secretDecoded ≠ [] ∧ error ≠ 16 ∧ error ≠ 17)) ∨
      ∃ md, (key.secretDecoded ≠ [] ∧ error ≠ 16 ∧ error ≠ 17) ∧
        tsigAlgorithmFromName key.alg = some md ∧
        mac = H.mac md key.secretDecoded digest := by
  rw [tsigMac] at h
  split at h
  · rename_i herr
    cases h
    exact .inl ⟨rfl, fun hs => herr.elim hs.2.1 hs.2.2⟩
  rename_i herr
  rw [not_or] at herr
  split at h
  · rename_i hsecret
    cases h
    exact .inl ⟨rfl, fun hs => hs.1 hsecret⟩
  rename_i hsecret
  obtain ⟨md, hmd, rfl⟩ := map_eq_some_iff.mp h
  exact .inr ⟨md, ⟨hsecret, herr⟩, hmd, rfl⟩

lemma size_bounds (md : EvpMd) : 10 ≤ md.size ∧ md.size ≤ 64 := by
  cases md <;> decide

lemma fold_valid (h : Valid n) : Valid (fold n) := Valid.of_same (same_fold n) h

lemma signedRr_inTime {now' : Nat} (hlo : now % 281474976710656 ≤ now' + fudge.toNat)
    (hhi : now' ≤ now % 281474976710656 + fudge.toNat) :
    tsigInTime (signedRr m len kn an now fudge mac error now48) now' = true := by
  have hf := fudge.toNat_lt
  unfold tsigInTime signedRr
  simp only [decide_eq_true_eq]
  rw [if_neg (by omega)]
  split <;> omega

lemma matchCi_nameText_fold (n : Name) (t : Text) :
    domainNamesMatchCi (nameText (fold n)) t = domainNamesMatchCi (nameText n) t := by
  have hkey : nameKey (nameText (fold n)) = nameKey (nameText n) := by
    rw [nameKey, nameKey, take_lenNoRoot_nameText, take_lenNoRoot_nameText, stem_lower, stem_lower,
      fold_fold]
  rw [Bool.eq_iff_iff, matchCi_iff, matchCi_iff, hkey]

variable (hs : Signed H m len key error ctx now fudge now48 kn an out)

include hs

lemma Signed.mac_le : out.mac.length ≤ 64 := by
  rcases tsigMac_cases hs.mac with ⟨hmac, -⟩ | ⟨md, -, -, hmac⟩
  · simp [hmac]
  · rw [hmac, H.length_mac]
    exact (size_bounds md).2

variable (hm : PlainMessage m len)

include hm

lemma Signed.parse :
    tsigParseRr out.buf out.len =
      .found (signedRr m len (fold kn) (fold an) now fudge out.mac error now48) := by
  rw [hs.buf, hs.length]
  exact tsigParseRr_signed hm (fold_valid (readName_valid hs.keyName))
    (fold_valid (readName_valid hs.algName)) hs.mac_le

/-- The verifier digests what the signer digested. -/
lemma Signed.verifyDigest :
    tsigVerifyDigest key ctx out.buf
      (signedRr m len (fold kn) (fold an) now fudge out.mac error now48)
        (wire kn).length (wire an).length =
      some (digestOctets ctx (slice m 0 len) kn an (be48 now ++ be16 fudge.toNat)
        (tsigErrorOctets error now48)) := by
  have han := fold_valid (readName_valid hs.algName)
  have hheld := recordHeld (hs.buf ▸ signedBuf_holds hm.header) han hs.mac_le
  have htimers : slice out.buf (len + (wire (fold kn)).length + 10 + (wire (fold an)).length) 8 =
      be48 now ++ be16 fudge.toNat := hheld.timers
  have halg : readName (nameText (fold an)) = some (fold an) := readName_nameText han
  have hstripped : tsigStripped out.buf
      (signedRr m len (fold kn) (fold an) now fudge out.mac error now48) = slice m 0 len := by
    rw [hs.buf, tsigStripped_signed hm]
  have hcan : (wire (fold an)).length = (wire an).length := length_wire_fold an
  have hlead := lead_length ctx
  rw [tsigVerifyDigest, digestOctets, hstripped]
  simp only [signedRr, htimers, length_append, slice_length]
  split
  · rw [if_neg (by omega)]
  rw [tsigNames_ok hs.keyName halg (by omega)]
  simp only [length_append, be16_length, be32_length, length_wire_fold, fold_fold]
  rw [if_neg (by omega), tsigErrorOctets_eq]
  simp only [append_assoc]

lemma Signed.header : ¬ out.len < 12 := by
  have := hm.header
  rw [hs.length]
  omega

/-- A record without a MAC does not verify. -/
lemma Signed.refused (hmac : out.mac = []) :
    (tsigVerifyPacketEx H out.buf out.len key ctx clock).1 ≠ 0 := by
  rw [tsigVerifyPacketEx, if_neg (hs.header hm), hs.parse hm]
  simp only [signedRr, hmac, length_nil]
  split
  · decide
  rename_i md _
  have hsmall : 0 < max (md.size / 2) 10 := Nat.lt_of_lt_of_le (by decide) (Nat.le_max_right _ 10)
  split
  · decide
  split
  · rename_i herr
    rcases herr.2.2.2 with h | h <;> simp [h]
  · rw [if_pos (.inr hsmall)]
    decide

section

variable (hlo : now % 281474976710656 ≤ key.time clock + fudge.toNat)
    (hhi : key.time clock ≤ now % 281474976710656 + fudge.toNat)

include hlo hhi

/-- A record with a MAC verifies when the names match. -/
lemma Signed.accepted (hmd : tsigAlgorithmFromName key.alg = some md)
    (hmac : out.mac = H.mac md key.secretDecoded (digestOctets ctx (slice m 0 len) kn an
      (be48 now ++ be16 fudge.toNat) (tsigErrorOctets error now48))) :
    tsigVerifyPacketEx H out.buf out.len key ctx clock =
      if domainNamesMatchCi (nameText kn) key.name then (0, some out.mac) else (17, none) := by
  have hwl : wireNameLength (nameText (fold an)) = some (wire an).length := by
    rw [wireNameLength_of_read (readName_nameText (fold_valid (readName_valid hs.algName))),
      length_wire_fold]
  have hsize : out.mac.length = md.size := by rw [hmac, H.length_mac]
  have hbounds := size_bounds md
  have hdigest := hs.verifyDigest hm
  have hin : tsigInTime (signedRr m len (fold kn) (fold an) now fudge out.mac error now48)
      (key.time clock) = true :=
    signedRr_inTime hlo hhi
  rw [tsigVerifyPacketEx, if_neg (hs.header hm), hs.parse hm]
  generalize hrr : signedRr m len (fold kn) (fold an) now fudge out.mac error now48 =
    rr at hdigest hin
  have halg : rr.algName = nameText (fold an) := by rw [← hrr]; rfl
  have hkey : rr.keyName = nameText (fold kn) := by rw [← hrr]; rfl
  have hms : rr.macSize = md.size := by rw [← hsize, ← hrr]; rfl
  have hrm : rr.mac = out.mac := by rw [← hrr]; rfl
  simp only [halg, tsigAlgorithm_wire hmd hs.algName, hmd, hkey, matchCi_nameText_fold]
  by_cases hmatch : domainNamesMatchCi (nameText kn) key.name = true
  · have htake :
      (H.mac md key.secretDecoded
        (digestOctets ctx (slice m 0 len) kn an (be48 now ++ be16 fudge.toNat)
        (tsigErrorOctets error now48))).take md.size = out.mac := by
      rw [hmac, take_of_length_le (by rw [H.length_mac])]
    rw [if_neg (by simp [hmatch]), if_neg (by omega), if_neg (by rw [hms]; omega),
      wireNameLength_of_read hs.keyName, hwl]
    simp only [hdigest, hms, hrm]
    rw [if_neg (by rw [H.length_mac, htake]; simp), if_pos hin, if_pos hmatch]
  · rw [if_pos (by simp [hmatch]), if_neg hmatch]

/-- A signature verifies within its fudge exactly when the key and the error are fit for it. -/
lemma Signed.verifies_iff :
    tsigVerifyPacketEx H out.buf out.len key ctx clock = (0, some out.mac) ↔
      SelfVerifying key error := by
  rcases tsigMac_cases hs.mac with ⟨hmac, hnot⟩ | ⟨md, hfit, hmd, hmac⟩
  · have hrefused : (tsigVerifyPacketEx H out.buf out.len key ctx clock).1 ≠ 0 := hs.refused hm hmac
    constructor
    · intro h
      rw [h] at hrefused
      exact absurd rfl hrefused
    · exact fun h => absurd ⟨h.secret, h.signs⟩ hnot
  rw [hs.accepted hm hlo hhi hmd hmac]
  constructor
  · intro h
    split at h
    · rename_i hmatch
      exact ⟨⟨kn, hs.keyName, hmatch⟩, hfit.1, hfit.2⟩
    · cases h
  rintro ⟨⟨n, hn, hmatch⟩, -, -⟩
  rw [hs.keyName] at hn
  cases hn
  rw [if_pos hmatch]

end

end Message

/-! ### Chains -/

/-- One signed message of a stream: what the signer is given, the octets of the unsigned messages
before it, and the verifier's clock. -/
structure TsigTurn where
  buf : Buf
  len : Nat
  maxLen : Nat
  error : UInt16
  times : Option TsigSignTimes
  clock : Nat
  clock' : Nat
  unsignedMsgs : List UInt8
  isSubsequent : Bool
  verifyClock : Nat

/-- Signing the messages of a stream, each behind the MAC of the one before. -/
def signChain (H : KeyedHash) (key : TsigKey) : List UInt8 → List TsigTurn → Option
    (List SignedPacket)
  | _, [] => some []
  | prior, t :: ts =>
    match tsigSignPacketEx H t.buf t.len t.maxLen key t.error
      ⟨prior, t.unsignedMsgs, t.isSubsequent⟩ t.times
        t.clock t.clock' with
    | none => none
    | some out => (signChain H key out.mac ts).map (out :: ·)

/-- Verifying them in the same order, each behind the MAC of the one verified before. -/
def verifyChain (H : KeyedHash) (key : TsigKey) : List UInt8 → List (TsigTurn × SignedPacket) →
    Option (List (List UInt8))
  | _, [] => some []
  | prior, (t, p) :: rest =>
    match tsigVerifyPacketEx H p.buf p.len key ⟨prior, t.unsignedMsgs, t.isSubsequent⟩
      t.verifyClock with
    | (0, some mac) => (verifyChain H key mac rest).map (mac :: ·)
    | _ => none

/-- The verifier's clock is within the fudge of the Time Signed field, which has 48 bits. -/
def TsigTurn.WithinFudge (t : TsigTurn) (key : TsigKey) : Prop :=
  signTime key t.times t.clock % 281474976710656 ≤ key.time t.verifyClock +
    (signFudge t.times).toNat ∧
    key.time t.verifyClock ≤ signTime key t.times t.clock % 281474976710656 +
      (signFudge t.times).toNat

/-- What is left of a signed message after the verifier took its record off is the message before
signing. -/
def StripsTo (p : SignedPacket) (t : TsigTurn) : Prop :=
  ∃ rr, tsigParseRr p.buf p.len = .found rr ∧ tsigStripped p.buf rr = slice t.buf 0 t.len

lemma verifyChain_cons {H : KeyedHash} {prior : List UInt8} {t : TsigTurn} {p : SignedPacket}
    {rest : List (TsigTurn × SignedPacket)} {macs : List (List UInt8)} :
    verifyChain H key prior ((t, p) :: rest) = some (p.mac :: macs) ↔
      tsigVerifyPacketEx H p.buf p.len key ⟨prior, t.unsignedMsgs, t.isSubsequent⟩ t.verifyClock =
        (0, some p.mac) ∧
        verifyChain H key p.mac rest = some macs := by
  rw [verifyChain]
  constructor
  · intro h
    split at h
    · rename_i mac hv
      obtain ⟨macs', hmacs, heq⟩ := map_eq_some_iff.mp h
      obtain ⟨rfl, rfl⟩ := List.cons.inj heq
      exact ⟨hv, hmacs⟩
    · cases h
  rintro ⟨hv, hmacs⟩
  rw [hv]
  simp [hmacs]

/-- A stream of signed messages, with any unsigned octets in between, verifies with the signer's own
MACs exactly when the key is fit for it; and what the verifier digests of each message is the
message as it was before signing. The induction is on the stream. -/
theorem tsig_chain_verifies_iff (H : KeyedHash) (key : TsigKey) (prior : List UInt8)
    (turns : List TsigTurn) (signed : List SignedPacket)
    (hsign : signChain H key prior turns = some signed)
    (hplain : ∀ t ∈ turns, PlainMessage t.buf t.len) (hclock : ∀ t ∈ turns, t.WithinFudge key) :
    (verifyChain H key prior (turns.zip signed) = some (signed.map SignedPacket.mac) ↔
      ∀ t ∈ turns, SelfVerifying key t.error) ∧
      signed.length = turns.length ∧ ∀ p ∈ turns.zip signed, StripsTo p.2 p.1 := by
  induction turns generalizing prior signed with
  | nil =>
    cases hsign
    simp [verifyChain]
  | cons t ts ih =>
    rw [signChain] at hsign
    split at hsign
    · cases hsign
    rename_i out hout
    obtain ⟨rest, hrest, rfl⟩ := map_eq_some_iff.mp hsign
    have hm := hplain t mem_cons_self
    obtain ⟨hlo, hhi⟩ := hclock t mem_cons_self
    obtain ⟨kn, an, hs⟩ := tsigSignPacketEx_ok hout
    obtain ⟨hchain, hlen, hstrip⟩ :=
      ih out.mac rest hrest (fun u hu => hplain u (mem_cons_of_mem _ hu))
      fun u hu => hclock u (mem_cons_of_mem _ hu)
    refine ⟨?_, by simp [hlen], ?_⟩
    · rw [zip_cons_cons, map_cons, verifyChain_cons, hs.verifies_iff hm hlo hhi, hchain,
        forall_mem_cons]
    rw [zip_cons_cons, forall_mem_cons]
    refine ⟨⟨_, hs.parse hm, ?_⟩, hstrip⟩
    rw [hs.buf, tsigStripped_signed hm]

/-- A keyed hash for examples. -/
def zeroHash : KeyedHash := ⟨fun md _ _ => List.replicate md.size 0, fun _ _ _ => length_replicate⟩

/-- A bare header, signed at noon and verified five minutes later. -/
def headerTurn (unsignedMsgs : List UInt8) (isSubsequent : Bool) : TsigTurn :=
  { buf := fun _ => 0, len := 12, maxLen := 512, error := 0, times := none, clock := 43200,
    clock' := 43200, unsignedMsgs,
    isSubsequent, verifyClock := 43500 }

lemma headerTurn_plain (u : List UInt8) (b : Bool) : PlainMessage (headerTurn u b).buf
    (headerTurn u b).len := by
  have h0 : ∀ p, getU16 (headerTurn u b).buf p = 0 := fun _ => by simp [getU16, headerTurn]
  refine ⟨Nat.le_refl 12, ?_, 12, ?_, ?_⟩
  · rw [h0]
    decide
  · rw [h0]
    exact .nil
  · rw [h0, h0, h0]
    exact .nil

lemma headerTurn_within (h : key.fuzztime = 0) (u : List UInt8) (b : Bool) :
    (headerTurn u b).WithinFudge key := by
  have htime : ∀ clock, key.time clock = clock := fun clock => by simp [TsigKey.time, h]
  simp only [TsigTurn.WithinFudge, signTime, signFudge, headerTurn, map_none, getD_none, htime]
  decide

/-- The key `Key.`, and the same key with its name spelled with an escape. -/
def plainKey : TsigKey := ⟨ascii "Key.", some (ascii "HMAC-SHA256"), [1, 2, 3], 0⟩

def escapedKey : TsigKey := { plainKey with name := ascii "k\\101y." }

theorem tsig_chain_verifies_two : ∃ signed,
    signChain zeroHash plainKey [7] [headerTurn [] false, headerTurn [1, 2] true] = some signed ∧
      verifyChain zeroHash plainKey [7] ([headerTurn [] false, headerTurn [1, 2] true].zip signed) =
        some (signed.map SignedPacket.mac) := by
  have hsome :
      (signChain zeroHash plainKey [7] [headerTurn [] false, headerTurn [1, 2] true]).isSome =
        true := by
    decide +kernel
  obtain ⟨signed, hsigned⟩ := isSome_iff_exists.mp hsome
  have hfit : SelfVerifying plainKey 0 :=
    ⟨⟨[[75, 101, 121]], by decide +kernel, by decide +kernel⟩, by decide, by decide⟩
  refine ⟨signed, hsigned, (tsig_chain_verifies_iff _ _ _ _ _ hsigned ?_ ?_).1.mpr ?_⟩
  · simp [headerTurn_plain]
  · simp [headerTurn_within (show plainKey.fuzztime = 0 from rfl)]
  · simpa [headerTurn] using hfit

/-- With the name `k\101y.`, which stands for `key.`, the signer signs and the verifier returns
BADKEY. -/
theorem escaped_key_refused :
    PlainMessage (headerTurn [] false).buf (headerTurn [] false).len ∧
      (headerTurn [] false).WithinFudge escapedKey ∧
      readName escapedKey.name = readName (ascii "key.") ∧
      (signChain zeroHash escapedKey [] [headerTurn [] false]).map
        (fun signed => signed.map fun p =>
        tsigVerifyPacketEx zeroHash p.buf p.len escapedKey ⟨[], [], false⟩ 43500) =
          some [(17, none)] := by
  refine ⟨headerTurn_plain _ _, headerTurn_within rfl _ _, by decide +kernel, by decide +kernel⟩

end KariDns
