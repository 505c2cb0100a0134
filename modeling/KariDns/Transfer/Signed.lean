import KariDns.Transfer.Stream
import KariDns.Tsig.Chain

/-! What the signatures of a transfer cover.

A transfer under a key is installed only when its messages form one chain of signatures that starts
at the MAC of the request: every signed message is digested behind the MAC before it and behind all
the octets of the unsigned messages since, at most 99 of them, and nothing unsigned is left at the
end. Of a signed message the digest has what stands before its TSIG record and, in the first
message, the variables of the record; a later message is digested with the timers alone. Octets
behind the record, or in its RDATA behind Other Data, are in no digest, and a compressed name of the
answer may point to them.
-/

namespace KariDns

open Octets DomainName List

def XferMessage.octets (msg : XferMessage) : List UInt8 := slice msg.buf 0 msg.len

def XferMessage.isSigned (msg : XferMessage) : Bool := packetHasTsig msg.buf msg.len

/-- What a message is signed over: itself without the TSIG record, the names of key and algorithm,
the timers, and Error with Other Data. -/
structure SignedParts where
  body : List UInt8
  keyName : Name
  algName : Name
  timers : List UInt8
  tail : List UInt8

def SignedParts.digest (p : SignedParts) (ctx : TsigContext) : List UInt8 :=
  digestOctets ctx p.body p.keyName p.algName p.timers p.tail

/-- The message that the parts make with a MAC. -/
def SignedParts.octets (p : SignedParts) (mac : List UInt8) : List UInt8 :=
  let m := bufOf p.body
  slice (blit m 10 (be16 (getU16 m 10 + 1))) 0 p.body.length ++ tsigRr (wire (fold p.keyName))
    (wire (fold p.algName) ++ p.timers ++ be16 mac.length ++ mac ++ p.body.take 2 ++ p.tail)

/-- The parts that the digest of a later message leaves out are the only ones they may be. -/
def SignedParts.fixed (p : SignedParts) (key : TsigKey) (later : Bool) : Bool :=
  !later || readName key.alg = some p.algName && p.tail = be16 0 ++ be16 0

/-- The parts of a message with the TSIG record `rr`. -/
def XferMessage.parts (key : TsigKey) (msg : XferMessage) (rr : TsigRr) : Option SignedParts :=
  (readName key.name).bind fun kn => (readName rr.algName).map fun an =>
    ⟨tsigStripped msg.buf rr, kn, an, slice msg.buf rr.timersOffset 8,
      be16 rr.error ++ be16 rr.otherLen ++ rr.other⟩

/-- Every octet of the signed message belongs to its parts or its MAC, or can be no other. -/
def XferMessage.isWhole (key : TsigKey) (later : Bool) (msg : XferMessage) : Bool :=
  match tsigParseRr msg.buf msg.len with
  | .found rr => (msg.parts key rr).any fun p => msg.octets = p.octets rr.mac && p.fixed key later
  | _ => false

/-- Every octet of the signed message `msg` is covered by its MAC `mac` behind the octets of `ctx`:
it is the message that its parts make with the MAC, and the MAC is at least ten octets of the hash,
under the key, of those octets and the parts. -/
def CoveredBy (H : KeyedHash) (key : TsigKey) (ctx : TsigContext) (msg : XferMessage)
    (mac : List UInt8) : Prop :=
  ∃ rr p md, tsigParseRr msg.buf msg.len = .found rr ∧ msg.parts key rr = some p ∧ rr.mac = mac ∧
    10 ≤ mac.length ∧ mac = (H.mac md key.secretDecoded (p.digest ctx)).take mac.length ∧
    msg.octets = p.octets mac ∧ p.fixed key ctx.isSubsequent = true

/-- Messages whose every octet is covered by one chain of signatures that starts at the MAC `prior`:
segments of at most 99 unsigned messages, each closed by a signed one. The very first message is
signed. -/
inductive CoveredStream (H : KeyedHash) (key : TsigKey) :
    List UInt8 → Bool → List XferMessage → Prop
  | nil {prior : List UInt8} {later : Bool} : CoveredStream H key prior later []
  | segment {prior mac : List UInt8} {later : Bool} {pending rest : List XferMessage}
    {msg : XferMessage} :
      pending.length ≤ 99 → (later = false → pending = []) → (∀ u ∈ pending, u.isSigned = false) →
      CoveredBy H key ⟨prior, pending.flatMap XferMessage.octets, later⟩ msg mac →
      CoveredStream H key mac true rest → CoveredStream H key prior later (pending ++ msg :: rest)

/-- The signed messages are whole; those behind the first one are later ones. -/
def WholeStream (key : TsigKey) : Bool → List XferMessage → Prop
  | _, [] => True
  | later, msg :: rest =>
    (msg.isSigned = true → msg.isWhole key later = true) ∧
      WholeStream key (later || msg.isSigned) rest

/-! ### One signature -/

section

variable {T : Type} {H : KeyedHash} {key : TsigKey} {ctx : TsigContext} {req : XferRequest T}
  {msg : XferMessage} {l : XferLoop T}

/-- `mac` is the MAC of the signed message `msg` behind the octets of `ctx`, as the verifier
computes it. -/
def SignedBy (H : KeyedHash) (key : TsigKey) (ctx : TsigContext) (msg : XferMessage)
    (mac : List UInt8) : Prop :=
  ∃ rr md kl al digest, tsigParseRr msg.buf msg.len = .found rr ∧ rr.mac = mac ∧ 10 ≤ mac.length ∧
    tsigVerifyDigest key ctx msg.buf rr kl al = some digest ∧
    mac = (H.mac md key.secretDecoded digest).take mac.length

lemma SignedBy.signed {mac : List UInt8} (h : SignedBy H key ctx msg mac) :
    msg.isSigned = true := by
  obtain ⟨rr, _, _, _, _, hparse, -⟩ := h
  simp [XferMessage.isSigned, packetHasTsig, hparse]

/-- The verifier digests the parts of the message. -/
lemma tsigVerifyDigest_parts {rr : TsigRr} {kl al : Nat} {digest : List UInt8} {p : SignedParts}
    (h : tsigVerifyDigest key ctx msg.buf rr kl al = some digest) (hp : msg.parts key rr = some p) :
    digest = p.digest ctx := by
  obtain ⟨kn, hk, hp⟩ := Option.bind_eq_some_iff.mp hp
  obtain ⟨an, ha, rfl⟩ := Option.map_eq_some_iff.mp hp
  simp only [tsigVerifyDigest] at h
  generalize (if ctx.priorMac = [] then 0 else ctx.priorMac.length + 2) = macOctets at h
  rw [SignedParts.digest, digestOctets]
  split at h
  · rename_i hsub
    split at h
    · cases h
    · rw [if_pos hsub]
      exact (Option.some.inj h).symm
  rename_i hsub
  rw [if_neg hsub]
  split at h
  · cases h
  rename_i names hnames
  split at h
  · cases h
  rw [tsigNames] at hnames
  split at hnames
  · cases hnames
  rename_i k hkw
  obtain ⟨kn', hk', rfl, -⟩ := readName_of_write hkw
  split at hnames
  · cases hnames
  rename_i a haw
  obtain ⟨an', ha', rfl, -⟩ := readName_of_write haw
  obtain rfl := Option.some.inj (hk.symm.trans hk')
  obtain rfl := Option.some.inj (ha.symm.trans ha')
  cases hnames
  cases h
  simp only [append_assoc]

/-- A whole message that is signed is covered. -/
lemma SignedBy.covered {mac : List UInt8} (h : SignedBy H key ctx msg mac)
    (hwhole : msg.isWhole key ctx.isSubsequent = true) : CoveredBy H key ctx msg mac := by
  obtain ⟨rr, md, _, _, digest, hparse, rfl, hten, hdigest, hmac⟩ := h
  rw [XferMessage.isWhole, hparse] at hwhole
  obtain ⟨p, hp, hall⟩ := (Option.any_eq_true _ _).mp hwhole
  rw [Bool.and_eq_true, decide_eq_true_eq] at hall
  exact ⟨rr, p, md, hparse, hp, rfl, hten, tsigVerifyDigest_parts hdigest hp ▸ hmac, hall⟩

lemma CoveredBy.whole {mac : List UInt8} (h : CoveredBy H key ctx msg mac) :
    msg.isSigned = true ∧ msg.isWhole key ctx.isSubsequent = true := by
  obtain ⟨rr, p, _, hparse, hp, rfl, -, -, hoctets, hfixed⟩ := h
  simp [XferMessage.isSigned, packetHasTsig, XferMessage.isWhole, hparse, hp, hoctets, hfixed]

/-- What a verified signature says. -/
lemma tsigVerify_ok {clock : Nat} {mac : Option (List UInt8)}
    (h : tsigVerifyPacketEx H msg.buf msg.len key ctx clock = (0, mac)) :
    ∃ bs, mac = some bs ∧ SignedBy H key ctx msg bs ∧ bs.length ≤ 64 := by
  rw [tsigVerifyPacketEx] at h
  split at h
  · cases h
  split at h
  · cases h
  · cases h
  rename_i rr hparse
  split at h
  · cases h
  rename_i md _
  split at h
  · cases h
  split at h
  · rename_i herr
    have hcode : (rr.error : Int) = 0 := (Prod.mk.inj h).1
    omega
  split at h
  · cases h
  rename_i hsize
  split at h
  · split at h
    · cases h
    rename_i digest hdigest
    dsimp only at h
    split at h
    · cases h
    rename_i hmac
    rw [not_or, not_lt, not_not] at hmac
    rw [not_or, not_lt, not_lt] at hsize
    have hlen : rr.mac.length = rr.macSize := by
      rw [← hmac.2, length_take]
      exact Nat.min_eq_left hmac.1
    have hmin := Nat.le_max_right (md.size / 2) 10
    have hmax := (size_bounds md).2
    split at h
    · obtain ⟨-, rfl⟩ := Prod.mk.inj h
      exact ⟨rr.mac, rfl,
        ⟨rr, md, _, _, digest, hparse, rfl, by omega, hdigest, by rw [hlen]; exact hmac.2.symm⟩,
        by omega⟩
    · cases h
  · cases h

/-! ### The loop -/

/-- The loop between two messages: the unsigned messages since the last signature. -/
structure Pending (l : XferLoop T) (pending : List XferMessage) : Prop where
  octets : l.unsignedMsgs = pending.flatMap XferMessage.octets
  run : l.unsignedRun = pending.length
  few : pending.length ≤ 99
  unsigned : ∀ u ∈ pending, u.isSigned = false
  later : l.isSubsequent = false → pending = []
  header : ∀ u ∈ pending, 12 ≤ u.len

/-- What one message does to the chain: a signed one closes the segment, an unsigned one joins
it. -/
lemma xferTsig_cases {l' : XferLoop T} {pending : List XferMessage} (hkey : req.key = some key)
    (hp : Pending l pending) (hlen : 12 ≤ msg.len) (h : xferTsig req msg l = some l') :
    (∃ mac, SignedBy req.hash key
      ⟨l.priorMac, pending.flatMap XferMessage.octets, l.isSubsequent⟩ msg mac ∧
      l'.priorMac = mac ∧ l'.isSubsequent = true ∧ Pending l' []) ∨
    (msg.isSigned = false ∧ l'.priorMac = l.priorMac ∧ l'.isSubsequent = l.isSubsequent ∧
      Pending l' (pending ++ [msg])) := by
  rw [xferTsig, hkey] at h
  dsimp only at h
  split at h
  · -- the signature is right: the chain goes on from its MAC
    split at h
    · rename_i mac hv
      obtain ⟨bs, hbs, hsigned, hle⟩ := tsigVerify_ok hv
      obtain rfl := Option.some.inj hbs
      rw [hp.octets] at hsigned
      have hne : mac ≠ [] := by
        obtain ⟨_, _, _, _, _, -, -, hten, -⟩ := hsigned
        exact ne_nil_of_length_pos (by omega)
      rw [if_pos ⟨hne, hle⟩] at h
      cases h
      exact .inl ⟨mac, hsigned, rfl, rfl, ⟨rfl, rfl, by simp, by simp, fun _ => rfl, by simp⟩⟩
    · cases h
  rename_i hunsigned
  split at h
  · cases h
  rename_i hlater
  split at h
  · cases h
  rename_i hrun
  cases h
  have hmsg : msg.isSigned = false := by simpa [XferMessage.isSigned] using hunsigned
  have hr := hp.run
  refine .inr ⟨hmsg, rfl, rfl, ⟨?_, ?_, ?_, ?_, fun hl => absurd hl hlater, ?_⟩⟩
  · simp [hp.octets, XferMessage.octets]
  · simp [hp.run]
  · simp only [length_append, length_singleton]
    omega
  · intro u hu
    rcases mem_append.mp hu with hu | hu
    · exact hp.unsigned u hu
    · rwa [mem_singleton.mp hu]
  intro u hu
  rcases mem_append.mp hu with hu | hu
  · exact hp.header u hu
  · rwa [mem_singleton.mp hu]

/-- Two states of the loop that are at the same point of the chain. -/
structure SameChain (l l' : XferLoop T) : Prop where
  priorMac : l'.priorMac = l.priorMac
  isSubsequent : l'.isSubsequent = l.isSubsequent
  unsignedMsgs : l'.unsignedMsgs = l.unsignedMsgs
  unsignedRun : l'.unsignedRun = l.unsignedRun

lemma Pending.congr {l l' : XferLoop T} {pending : List XferMessage} (hp : Pending l pending)
    (h : SameChain l l') :
    Pending l' pending :=
  ⟨h.unsignedMsgs.trans hp.octets, h.unsignedRun.trans hp.run, hp.few, hp.unsigned,
    fun hl => hp.later (h.isSubsequent ▸ hl),
    hp.header⟩

lemma checkHeader_len {m : Buf} {len : Nat} {first : Bool}
    (h : xfrCheckResponseHeader req m len first ≠ false) :
    12 ≤ len := by
  by_contra hlt
  rw [xfrCheckResponseHeader, if_pos (by omega)] at h
  exact h rfl

lemma xferParsed_chain {r : Receiver T} {t : XferTurn T} (h : xferParsed req l r = t)
    (hok : t ≠ .failed) :
    ∃ l', SameChain l l' ∧ (t = .more l' ∨ ∃ o, t = .done o ∧ xferFinish req l' = .done o) := by
  refine ⟨{ l with receiver := r, firstMsg := false }, ⟨rfl, rfl, rfl, rfl⟩, ?_⟩
  rw [xferParsed] at h
  split at h
  · exact absurd h.symm hok
  split at h
  · exact absurd h.symm hok
  split at h
  · cases t with
    | failed => exact absurd rfl hok
    | more l' => exact absurd h (xferFinish_ends _)
    | done o => exact .inr ⟨o, rfl, h⟩
  · exact .inl h.symm

/-- One message that does not end the transfer in failure: its signature is dealt with before its
records are. -/
lemma xferMessage_chain {t : XferTurn T} (h : xferMessage req msg l = t) (hok : t ≠ .failed) :
    ∃ l₀ l₁ l₂, 12 ≤ msg.len ∧ SameChain l l₀ ∧ xferTsig req msg l₀ = some l₁ ∧ SameChain l₁ l₂ ∧
      (t = .more l₂ ∨ ∃ o, t = .done o ∧ xferFinish req l₂ = .done o) := by
  rw [xferMessage] at h
  dsimp only at h
  split at h
  · exact absurd h.symm hok
  split at h
  · exact absurd h.symm hok
  rename_i hheader
  split at h
  · exact absurd h.symm hok
  rename_i l₁ htsig
  have hparsed : ∃ r, xferParsed req l₁ r = t := by
    split at h
    · exact absurd h.symm hok
    · exact ⟨_, h⟩
    · exact ⟨_, h⟩
  obtain ⟨r, hr⟩ := hparsed
  obtain ⟨l₂, hsame, hend⟩ := xferParsed_chain hr hok
  exact ⟨_, l₁, l₂, checkHeader_len hheader, by constructor <;> rfl, htsig, hsame, hend⟩

lemma xferFinish_pending {o : XferOutcome} {pending : List XferMessage} (hkey : req.key = some key)
    (hp : Pending l pending) (h : xferFinish req l = .done o) : pending = [] := by
  rw [xferFinish, hkey] at h
  split at h
  · cases h
  rename_i hnone
  rw [not_and, not_not] at hnone
  have hempty : pending.flatMap XferMessage.octets = [] := by
    rw [← hp.octets]
    exact hnone rfl
  rcases pending with _ | ⟨u, us⟩
  · rfl
  have hlen := congrArg List.length hempty
  have hu := hp.header u mem_cons_self
  simp only [flatMap_cons, length_append, XferMessage.octets, slice_length, length_nil] at hlen
  omega

/-- The whole loop: the messages read from here on continue the chain. The induction is on the
messages, the segment that is still open is part of the hypothesis. -/
lemma xferRun_covered {o : XferOutcome} (hkey : req.key = some key) :
    ∀ {msgs pending : List XferMessage} {l : XferLoop T},
    Pending l pending → xferRun req msgs l = some o →
    WholeStream key l.isSubsequent (xferConsumed req msgs l) →
    CoveredStream req.hash key l.priorMac l.isSubsequent (pending ++ xferConsumed req msgs l)
  | [], _, _, _, h, _ => by cases h
  | msg :: rest, pending, l, hp, h, hwhole => by
    rw [xferRun] at h
    rw [xferConsumed] at hwhole ⊢
    have hok : xferMessage req msg l ≠ .failed := fun hf => by simp [hf] at h
    obtain ⟨l₀, l₁, l₂, hlen, h₀, htsig, h₂, hend⟩ := xferMessage_chain rfl hok
    rcases xferTsig_cases hkey (hp.congr h₀) hlen htsig with
      ⟨mac, hsigned, hmac, hsub, hnext⟩ | ⟨hunsigned, hmac, hsub, hnext⟩
    · -- a signed message closes the segment
      rw [h₀.priorMac, h₀.isSubsequent] at hsigned
      have hnext' := hnext.congr h₂
      rcases hend with hmore | ⟨o', hdone, -⟩
      · rw [hmore] at h hwhole ⊢
        obtain ⟨hthis, hrest⟩ := hwhole
        rw [hsigned.signed, Bool.or_true, ← hsub, ← h₂.isSubsequent] at hrest
        have ih := xferRun_covered hkey hnext' h hrest
        rw [h₂.priorMac, h₂.isSubsequent, hmac, hsub, nil_append] at ih
        exact .segment hp.few hp.later hp.unsigned (hsigned.covered (hthis hsigned.signed)) ih
      · rw [hdone] at hwhole ⊢
        exact .segment hp.few hp.later hp.unsigned (hsigned.covered (hwhole.1 hsigned.signed)) .nil
    -- an unsigned one waits for the next signature
    have hnext' := hnext.congr h₂
    rcases hend with hmore | ⟨o', hdone, hfinish⟩
    · rw [hmore] at h hwhole ⊢
      have hrest := hwhole.2
      rw [hunsigned, Bool.or_false, ← h₀.isSubsequent, ← hsub, ← h₂.isSubsequent] at hrest
      have ih := xferRun_covered hkey hnext' h hrest
      rw [h₂.priorMac, h₂.isSubsequent, hmac, hsub, h₀.priorMac, h₀.isSubsequent,
        append_assoc] at ih
      exact ih
    · have := xferFinish_pending hkey hnext' hfinish
      simp at this

lemma xferConsumed_singleton (msg : XferMessage) (l : XferLoop T) :
    xferConsumed req [msg] l = [msg] := by
  rw [xferConsumed]
  split <;> rfl

lemma wholeStream_pending {later : Bool} {rest : List XferMessage} :
    ∀ {pending : List XferMessage}, (∀ u ∈ pending, u.isSigned = false) →
    (WholeStream key later (pending ++ rest) ↔ WholeStream key later rest)
  | [], _ => Iff.rfl
  | u :: us, h => by
    have hu := h u mem_cons_self
    rw [cons_append, WholeStream, hu, Bool.or_false,
      wholeStream_pending fun v hv => h v (mem_cons_of_mem _ hv)]
    simp

/-- In a covered stream every signed message is whole. -/
lemma CoveredStream.whole {prior : List UInt8} {later : Bool} {msgs : List XferMessage}
    (h : CoveredStream H key prior later msgs) : WholeStream key later msgs := by
  induction h with
  | nil => trivial
  | segment _ _ hunsigned hcovered _ ih =>
    rw [wholeStream_pending hunsigned, WholeStream, hcovered.whole.1, Bool.or_true]
    exact ⟨fun _ => hcovered.whole.2, ih⟩

/-- A zone that a transfer under a key installs comes from messages that one chain of signatures
covers entirely, exactly when each signed message is whole. -/
theorem transfer_covered_iff (req : XferRequest T) (key : TsigKey) (clientSerial : Nat)
    (isIxfr : Bool) (msgs : List XferMessage) (records : List DnsRecord) (hkey : req.key = some key)
    (h : handleAxfrEvent req clientSerial isIxfr msgs = some (.installed records)) :
    CoveredStream req.hash key req.reqMac false
      (xferConsumed req msgs (xferStart req clientSerial isIxfr)) ↔
      WholeStream key false (xferConsumed req msgs (xferStart req clientSerial isIxfr)) := by
  refine ⟨CoveredStream.whole, fun hwhole => ?_⟩
  have hstart : Pending (xferStart req clientSerial isIxfr) [] :=
    ⟨rfl, rfl, by simp, by simp, fun _ => rfl, by simp⟩
  have hcovered := xferRun_covered hkey hstart h hwhole
  rwa [nil_append, show (xferStart req clientSerial isIxfr).priorMac = req.reqMac from
    if_pos req.reqMac_le] at hcovered

end

/-! ### A name behind the signature -/

/-- A hash that depends on every octet. -/
def foldHash : KeyedHash :=
  ⟨fun md secret data => List.replicate md.size ((secret ++ data).foldl (fun h b => 31 * h + b) 7),
    fun _ _ _ => length_replicate⟩

/-- A transfer of the zone `z.` under the key `Key.`. -/
def keyedRequest : XferRequest Unit where
  domain := ascii "z."
  tables := ⟨(), fun _ _ t => some t⟩
  thaw := none
  db := false
  queryId := 1
  queryType := 252
  key := some plainKey
  hash := foldHash
  reqMac := [5]
  reqMac_le := by decide
  maxRecords := 0
  maxBytes := 0
  extProbe := false
  scratch := true
  installs := fun _ => true

/-- An SOA of `z.` whose names point to the question. -/
def zoneSoa (serial : UInt8) : List UInt8 :=
  [0xC0, 12, 0, 6, 0, 1, 0, 0, 0, 60, 0, 24, 0xC0, 12, 0xC0, 12, 0, 0, 0, serial, 0, 0, 0, 9, 0, 0,
    0, 9, 0, 0, 0, 9, 0, 0, 0, 9]

/-- The octets of an answer to `keyedRequest`: the SOA, an address whose owner is the name at
`target`, and the SOA again. -/
def zoneAnswer (target : UInt8) : List UInt8 :=
  [0, 1, 0x84, 0, 0, 1, 0, 3, 0, 0, 0, 0] ++ [1, 122, 0, 0, 252, 0, 1] ++ zoneSoa 5 ++
    [0xC0, target, 0, 1, 0, 1, 0, 0, 0, 60, 0, 4, 192, 0, 2, 1] ++ zoneSoa 5

/-- The answer, signed, with octets added behind the signature. -/
def signedAnswer (target : UInt8) (behind : List UInt8) : XferMessage :=
  let bs := zoneAnswer target
  match tsigSignPacketEx foldHash (bufOf bs) bs.length 512 plainKey 0
    ⟨[5], [], false⟩ none 43200 43200 with
  | some p => { buf := blit p.buf p.len behind, len := p.len + behind.length, clock := 43200 }
  | none => { buf := bufOf bs, len := bs.length }

/-- The owners of the zone that a transfer installs. -/
def installedOwners (o : Option XferOutcome) : Option (List Text) :=
  o.bind fun o => match o with
    | .installed records => some (records.map DnsRecord.name)
    | .upToDate => none

lemma installed_of_owners {o : Option XferOutcome} (h : (installedOwners o).isSome = true) :
    ∃ records, o = some (.installed records) := by
  match o with
  | some (.installed records) => exact ⟨records, rfl⟩

/-- Two messages with one signature: the owner in the answer points behind the TSIG record, where
`a.z.` stands in one and `b.z.` in the other. Both are installed. -/
theorem uncovered_owner_installed :
    (signedAnswer 183 [1, 97, 0xC0, 12]).octets.take 183 =
      (signedAnswer 183 [1, 98, 0xC0, 12]).octets.take 183 ∧
    installedOwners (handleAxfrEvent keyedRequest 0 false [signedAnswer 183 [1, 97, 0xC0, 12]]) =
      some [ascii "z.", ascii "a.z."] ∧
    installedOwners (handleAxfrEvent keyedRequest 0 false [signedAnswer 183 [1, 98, 0xC0, 12]]) =
      some [ascii "z.", ascii "b.z."] ∧
    ¬ CoveredStream foldHash plainKey [5] false
      (xferConsumed keyedRequest [signedAnswer 183 [1, 98, 0xC0, 12]]
        (xferStart keyedRequest 0 false)) := by
  refine ⟨by decide +kernel, by decide +kernel, by decide +kernel, fun h => ?_⟩
  rw [xferConsumed_singleton] at h
  exact absurd (h.whole.1 (by decide +kernel)) (by decide +kernel)

/-- The same answer with an owner inside the message and nothing behind the signature. -/
theorem transfer_covered_keyed :
    ∃ records, handleAxfrEvent keyedRequest 0 false [signedAnswer 12 []] =
      some (.installed records) ∧
      CoveredStream foldHash plainKey [5] false
        (xferConsumed keyedRequest [signedAnswer 12 []] (xferStart keyedRequest 0 false)) := by
  have hinstalled :
      (installedOwners (handleAxfrEvent keyedRequest 0 false [signedAnswer 12 []])).isSome =
        true := by
    decide +kernel
  obtain ⟨records, h⟩ := installed_of_owners hinstalled
  refine ⟨records, h, (transfer_covered_iff keyedRequest plainKey 0 false _ records rfl h).mpr ?_⟩
  rw [xferConsumed_singleton]
  exact ⟨fun _ => by decide +kernel, trivial⟩

end KariDns
