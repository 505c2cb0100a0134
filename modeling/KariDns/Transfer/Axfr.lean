import KariDns.Transfer.Signed

/-! What a full transfer installs.

Without records of the private class the receiver is a small machine over the answer RRs: the first
SOA it meets opens the transfer, an SOA with that owner and serial finishes it, everything else in
the zone is kept, before the opening SOA and behind the closing one too.
-/

namespace KariDns

open Octets DomainName List Option

variable {closing r : DnsRecord} {body : List DnsRecord}

/-- The owner is in the zone. -/
def inZone (domain : Text) (r : DnsRecord) : Bool := domainNameIsAtOrBelow r.name domain

/-- `r` finishes a transfer that `first` has opened. -/
def closesTransfer (first r : DnsRecord) : Bool :=
  domainNamesMatchCi first.name r.name && strtoul32 (first.rd 2) == strtoul32 (r.rd 2)

/-- The machine: the SOA that opened the transfer, the records kept, and whether it is finished. -/
structure AxfrState where
  first : Option DnsRecord := none
  kept : List DnsRecord := []
  closed : Bool := false

def AxfrState.keep (s : AxfrState) (r : DnsRecord) : AxfrState := { s with kept := s.kept ++ [r] }

/-- One RR. -/
def AxfrState.take (domain : Text) (s : AxfrState) (r : DnsRecord) : AxfrState :=
  if inZone domain r = false then s
  else if r.typeCode = 6 then
    match s.first with
    | none => { s.keep r with first := some r }
    | some f => if closesTransfer f r then { s with closed := true } else s.keep r
  else s.keep r

/-- All RRs of a stream. -/
def AxfrState.run (domain : Text) (s : AxfrState) (answers : List DnsRecord) : AxfrState :=
  answers.foldl (AxfrState.take domain) s

/-! ### The receiver is that machine -/

section

variable {T : Type} {env : XferEnv T} {req : XferRequest T} {s : AxfrState} {r r' : Receiver T}
    {rec : DnsRecord}

/-- The receiver of a full transfer without records of the private class. -/
structure AxfrReceiver (s : AxfrState) (r : Receiver T) : Prop where
  isIxfr : r.session.isIxfr = false
  locTag : r.session.currentLocTag = []
  ecsTag : r.session.currentEcsTag = []
  soaSet : r.session.soaSet = none
  opened : r.session.soaCount = 0 ↔ s.first = none
  first : ∀ f ∈ s.first, r.session.initialSoaName = f.name ∧
    r.session.initialSoaSerial = strtoul32 (f.rd 2)
  records : r.records = s.kept
  finished : r.session.isFinished = s.closed

lemma withTags_none {a : AxfrSession} (hl : a.currentLocTag = []) (he : a.currentEcsTag = []) :
    withTags a rec = rec := by
  simp [withTags, hl, he]

lemma AxfrReceiver.data (h : AxfrReceiver s r) : AxfrReceiver (s.keep rec) (xferData rec r) := by
  have hnot : ¬ (r.session.soaCount = 1 ∧ r.session.isIxfr = true) := by simp [h.isIxfr]
  rw [xferData, if_neg hnot, if_neg (by simp [h.isIxfr])]
  exact ⟨h.isIxfr, h.locTag, h.ecsTag, h.soaSet, h.opened,
    h.first, by simp [h.records, AxfrState.keep], h.finished⟩

lemma AxfrReceiver.soa {ancount : Nat} {isLast : Bool} (h : AxfrReceiver s r)
    (hzone : inZone env.domain rec = true) (htype : rec.typeCode = 6)
    (hstep : xferSoa env ancount isLast rec r = .next r') :
    AxfrReceiver (s.take env.domain rec) r' := by
  have hix := h.isIxfr
  rw [xferSoa] at hstep
  rw [AxfrState.take, if_neg (by simp [hzone]), if_pos htype]
  simp only [hix, Bool.false_eq_true, false_and, and_false, if_false] at hstep
  cases hfirst : s.first with
  | none =>
    have hcount := h.opened.mpr hfirst
    simp only [hcount, Nat.zero_add, if_true] at hstep
    split at hstep
    · cases hstep
    split at hstep
    · cases hstep
    cases hstep
    refine ⟨rfl, h.locTag, h.ecsTag, h.soaSet, by simp,
      ?_, by simp [h.records, AxfrState.keep], h.finished⟩
    intro f hf
    obtain rfl := some.inj hf
    exact ⟨rfl, rfl⟩
  | some f =>
    have hcount : r.session.soaCount ≠ 0 := fun h0 => by simp [h.opened.mp h0] at hfirst
    obtain ⟨hname, hserial⟩ := h.first f hfirst
    rw [if_neg (by omega)] at hstep
    dsimp only
    simp only [hname, hserial, h.soaSet, any_none, Bool.false_eq_true, if_false] at hstep
    split at hstep
    · rename_i hclose
      cases hstep
      rw [if_pos (by simp [closesTransfer, hclose])]
      refine ⟨rfl, h.locTag, h.ecsTag, rfl, by simp, ?_, h.records, rfl⟩
      intro g hg
      obtain rfl := some.inj hg
      exact ⟨rfl, rfl⟩
    rename_i hopen
    cases hstep
    rw [if_neg (by simpa [closesTransfer] using hopen)]
    refine ⟨rfl, h.locTag, h.ecsTag, rfl, by simp [AxfrState.keep, hfirst],
      ?_, by simp [h.records, AxfrState.keep],
      h.finished⟩
    intro g hg
    rw [AxfrState.keep, hfirst] at hg
    obtain rfl := some.inj hg
    exact ⟨rfl, rfl⟩

/-- One RR of the stream is one step of the machine. -/
lemma AxfrReceiver.step {alloc : Nat → Bool} {ancount : Nat} {isLast : Bool} (h : AxfrReceiver s r)
    (hclass : rec.classVal ≠ classKaridnsExt)
    (hstep : xferRr env alloc ancount isLast rec r = .next r') :
    AxfrReceiver (s.take env.domain rec) r' := by
  rw [xferRr, if_neg hclass, xferZoneRr, withTags_none h.locTag h.ecsTag] at hstep
  split at hstep
  · cases hstep
  split at hstep
  · rename_i hout
    split at hstep
    · cases hstep
    · cases hstep
      rwa [AxfrState.take, if_pos (show inZone env.domain rec = false from hout)]
  rename_i hin
  have hzone : inZone env.domain rec = true := by simpa [inZone] using hin
  simp only [Bool.and_false] at hstep
  split at hstep
  · rename_i htype
    split at hstep
    · cases hstep
    · exact h.soa hzone htype hstep
  rename_i htype
  cases hstep
  rw [AxfrState.take, if_neg (by simp [hzone]), if_neg htype]
  exact h.data

lemma axfr_invariant (env : XferEnv T) : StreamInvariant env fun pre (r : Receiver T) =>
    (∀ t ∈ pre, t.answer.classVal ≠ classKaridnsExt) →
      AxfrReceiver (AxfrState.run env.domain {} (pre.map TakenRr.answer)) r where
  rr h hstep hclass := by
    rw [AxfrState.run, map_append, foldl_append]
    exact (h fun a ha => hclass a (by simp [ha])).step (hclass _ (by simp)) hstep
  gotFirst h hclass := by
    obtain ⟨h1, h2, h3, h4, h5, h6, h7, h8⟩ := h hclass
    exact ⟨h1, h2, h3, h4, h5, h6, h7, h8⟩
  extVersion _ h hclass := by
    obtain ⟨h1, h2, h3, h4, h5, h6, h7, h8⟩ := h hclass
    exact ⟨h1, h2, h3, h4, h5, h6, h7, h8⟩

lemma axfrReceiver_start (req : XferRequest T) (clientSerial : Nat) :
    AxfrReceiver {} (xferStart req clientSerial false).receiver :=
  ⟨rfl, rfl, rfl, rfl, by simp [xferStart], by simp, rfl, rfl⟩

/-- A full transfer installs what the machine has kept, and finishes in its last message. -/
lemma axfr_installed {clientSerial : Nat} {msgs : List XferMessage} {records : List DnsRecord}
    (h : handleAxfrEvent req clientSerial false msgs = some (.installed records))
    (hplain : ∀ a ∈ streamAnswers (xferConsumed req msgs (xferStart req clientSerial false)),
      a.classVal ≠
    classKaridnsExt) :
    ∃ before last, xferConsumed req msgs (xferStart req clientSerial false) = before ++ [last] ∧
      (AxfrState.run req.domain {} (streamAnswers before)).closed = false ∧
      (AxfrState.run req.domain {} (streamAnswers (before ++ [last]))).closed = true ∧
      records = req.kept (AxfrState.run req.domain {} (streamAnswers (before ++ [last]))).kept := by
  obtain ⟨hall, before, last, taken, r₀, r, hread, ⟨hr₀, hbefore⟩, hnot, hr, hfin, hrec⟩ :=
    @xferRun_installed T req _ (axfr_invariant req.toXferEnv) records msgs [] _
      (fun _ => axfrReceiver_start req clientSerial) rfl h
  rw [hread] at hplain hall
  rw [nil_append] at hr hr₀
  have hclass : ∀ tk : List (TakenRr T), tk.map TakenRr.answer ⊆ streamAnswers (before ++ [last]) →
      ∀ t ∈ tk, t.answer.classVal ≠ classKaridnsExt :=
    fun tk hsub t ht => hplain _ (hsub (mem_map_of_mem ht))
  have hlast := hr (hclass _ (by rw [hall]; exact List.Subset.refl _))
  have hfirst :=
    hr₀ (hclass _ (by rw [hbefore, streamAnswers_append]; exact subset_append_left _ _))
  rw [hall] at hlast
  rw [hbefore] at hfirst
  exact ⟨before, last, hread, hfirst.finished ▸ hnot, hlast.finished ▸ hfin, hlast.records ▸ hrec⟩

end

/-! ### Streams that are framed -/

section

variable {domain : Text} {f : DnsRecord} {s : AxfrState}

lemma atOrBelow_of_match {a b : Text} (h : domainNamesMatchCi a b = true) :
    domainNameIsAtOrBelow a b = true := by
  rw [atOrBelow_iff_cut, matchCi_iff.mp h]
  exact .inr ⟨[], rfl, .inl rfl⟩

lemma inZone_of_zoneSoa (h : isZoneSoa domain r = true) : inZone domain r = true := by
  rw [isZoneSoa, Bool.and_eq_true] at h
  exact atOrBelow_of_match h.2

/-- An SOA that closes a transfer opened at the apex stands at the apex. -/
lemma zoneSoa_of_closes (hf : isZoneSoa domain f = true) (htype : r.typeCode = 6)
    (h : closesTransfer f r = true) :
    isZoneSoa domain r = true := by
  rw [isZoneSoa, Bool.and_eq_true] at hf ⊢
  rw [closesTransfer, Bool.and_eq_true] at h
  exact ⟨by simp [htype], matchCi_trans (matchCi_symm h.1) hf.2⟩

/-- An RR that is no SOA of the apex is kept if it is in the zone. -/
lemma AxfrState.take_body (hs : s.first = some f) (hf : isZoneSoa domain f = true)
    (hr : isZoneSoa domain r = false) :
    s.take domain r = { s with kept := s.kept ++ [r].filter (inZone domain) } := by
  rw [AxfrState.take]
  split
  · rename_i hout
    simp [hout]
  rename_i hin
  have hzone : inZone domain r = true := by simpa using hin
  split
  · rename_i htype
    have hopen : ¬ closesTransfer f r = true := fun hc => by
      simp [zoneSoa_of_closes hf htype hc] at hr
    simp [hs, hopen, hzone, AxfrState.keep]
  · simp [hzone, AxfrState.keep]

lemma AxfrState.run_body (hf : isZoneSoa domain f = true) :
    ∀ {body : List DnsRecord} {s : AxfrState}, s.first = some f →
    (∀ r ∈ body, isZoneSoa domain r = false) →
      s.run domain body = { s with kept := s.kept ++ body.filter (inZone domain) }
  | [], s, _, _ => by simp [AxfrState.run]
  | r :: body, s, hs, hbody => by
    rw [AxfrState.run, foldl_cons, AxfrState.take_body hs hf (hbody r (by simp))]
    have ih :=
      @AxfrState.run_body hf body { s with kept := s.kept ++ [r].filter (inZone domain) } hs
      fun a ha => hbody a (by simp [ha])
    rw [AxfrState.run] at ih
    rw [ih]
    simp [filter_cons]
    split <;> simp

/-- The RR that finishes a transfer opened at the apex is an SOA of the apex and is not kept. -/
lemma AxfrState.take_closing (hs : s.first = some f) (hf : isZoneSoa domain f = true)
    (hopen : s.closed = false) (h : (s.take domain r).closed = true) :
      isZoneSoa domain r = true ∧ (s.take domain r).kept = s.kept := by
  by_cases hr : isZoneSoa domain r = true
  · refine ⟨hr, ?_⟩
    have htype : r.typeCode = 6 := by
      rw [isZoneSoa, Bool.and_eq_true, beq_iff_eq] at hr
      exact hr.1
    rw [AxfrState.take, if_neg (by simp [inZone_of_zoneSoa hr]), if_pos htype, hs] at h ⊢
    dsimp only at h ⊢
    split at h
    · rename_i hclose
      rw [if_pos hclose]
    · simp [AxfrState.keep, hopen] at h
  · rw [AxfrState.take_body hs hf (by simpa using hr), hopen] at h
    cases h

/-- A stream between two SOAs of the apex with none in between. -/
lemma AxfrState.run_framed {soa : DnsRecord} (hsoa : isZoneSoa domain soa = true)
    (hbody : ∀ r ∈ body, isZoneSoa domain r = false) :
    AxfrState.run domain {} (soa :: body ++ [closing]) =
      (⟨some soa, soa :: body.filter (inZone domain), false⟩ : AxfrState).take domain closing := by
  have htype : soa.typeCode = 6 := by
    rw [isZoneSoa, Bool.and_eq_true, beq_iff_eq] at hsoa
    exact hsoa.1
  have hopen : AxfrState.take domain {} soa = ⟨some soa, [soa], false⟩ := by
    simp [AxfrState.take, inZone_of_zoneSoa hsoa, htype, AxfrState.keep]
  have hmid :=
    AxfrState.run_body hsoa
      (show (⟨some soa, [soa], false⟩ : AxfrState).first = some soa from rfl) hbody
  rw [AxfrState.run] at hmid
  rw [AxfrState.run, foldl_append, foldl_cons (l := body), hopen, hmid]
  rfl

end

/-! ### Framed streams are installed as they are -/

/-- The opening SOA stands at the apex, no other SOA of the apex stands before the last RR, and an
SOA of the apex there repeats the opening one. -/
def WellFramed (domain : Text) : List DnsRecord → Prop
  | [] => False
  | soa :: rest => isZoneSoa domain soa = true ∧ (∀ r ∈ rest.dropLast, isZoneSoa domain r = false) ∧
      ∀ r ∈ rest.getLast?, isZoneSoa domain r = true → compareRecords soa r false = true

instance (domain : Text) : (answers : List DnsRecord) → Decidable (WellFramed domain answers)
  | [] => inferInstanceAs (Decidable False)
  | soa :: rest =>
    inferInstanceAs
      (Decidable (isZoneSoa domain soa = true ∧ (∀ r ∈ rest.dropLast, isZoneSoa domain r = false) ∧
      ∀ r ∈ rest.getLast?, isZoneSoa domain r = true → compareRecords soa r false = true))

/-- A stream that finishes holds more than its opening SOA. -/
lemma WellFramed.split {domain : Text} {answers : List DnsRecord} (h : WellFramed domain answers)
    (hclosed : (AxfrState.run domain {} answers).closed = true) :
    ∃ soa body closing, answers = soa :: body ++ [closing] := by
  match answers, h with
  | soa :: rest, _ =>
    rcases eq_nil_or_concat rest with rfl | ⟨body, closing, rfl⟩
    · have hopen : (AxfrState.run domain {} [soa]).closed = false := by
        simp only [AxfrState.run, foldl_cons, foldl_nil, AxfrState.take, AxfrState.keep]
        split_ifs <;> rfl
      rw [hopen] at hclosed
      cases hclosed
    · exact ⟨soa, body, closing, by simp⟩

/-- The RRs of the zone before the last RR can be encoded. -/
def Encodable {T : Type} (req : XferRequest T) (answers : List DnsRecord) : Prop :=
  req.scratch = true → ∀ r ∈ answers.dropLast, inZone req.domain r = true →
    (dnsRecordCanonicalRdata r).isSome = true

instance {T : Type} (req : XferRequest T) (answers : List DnsRecord) :
    Decidable (Encodable req answers) :=
  inferInstanceAs (Decidable (_ → ∀ r ∈ _, _ → _))

/-- The transfer of `msgs` gives exactly `records`: the first answer is an SOA of the apex, the last
answer of the last message is that SOA again, and the zone is the SOA and the RRs of the zone in
between, none of them another SOA of the apex. -/
def AxfrExact (domain : Text) (msgs : List XferMessage) (records : List DnsRecord) : Prop :=
  ∃ soa body closing, streamAnswers msgs = soa :: body ++ [closing] ∧ isZoneSoa domain soa = true ∧
    (msgs.getLast?.bind fun m => (messageAnswers m).getLast?) = some closing ∧
      compareRecords soa closing false = true ∧
    records = soa :: body.filter (inZone domain) ∧ records.filter (isZoneSoa domain) = [soa]

section

variable {T : Type} {req : XferRequest T}

lemma wellFramed_iff {domain : Text} {soa : DnsRecord} :
    WellFramed domain (soa :: body ++ [closing]) ↔ isZoneSoa domain soa = true ∧
      (∀ r ∈ body, isZoneSoa domain r = false) ∧
      (isZoneSoa domain closing = true → compareRecords soa closing false = true) := by
  rw [cons_append, WellFramed]
  simp

lemma encodable_iff {soa : DnsRecord} (hsoa : inZone req.domain soa = true) :
    Encodable req (soa :: body ++ [closing]) ↔
      req.kept (soa :: body.filter (inZone req.domain)) = soa ::
        body.filter (inZone req.domain) := by
  rw [Encodable, dropLast_concat, XferRequest.kept]
  cases req.scratch with
  | false => simp
  | true =>
    rw [if_pos rfl, filter_eq_self]
    simp [hsoa]

/-- A full transfer installs exactly what its stream says, exactly when the stream is framed by its
SOA and all its RRs can be encoded. -/
theorem axfr_exact_iff (req : XferRequest T) (clientSerial : Nat) (msgs : List XferMessage)
    (records : List DnsRecord)
    (h : handleAxfrEvent req clientSerial false msgs = some (.installed records))
    (hplain : ∀ a ∈ streamAnswers (xferConsumed req msgs (xferStart req clientSerial false)),
      a.classVal ≠
    classKaridnsExt) :
    AxfrExact req.domain (xferConsumed req msgs (xferStart req clientSerial false)) records ↔
      WellFramed req.domain
        (streamAnswers (xferConsumed req msgs (xferStart req clientSerial false))) ∧
      Encodable req (streamAnswers (xferConsumed req msgs (xferStart req clientSerial false))) := by
  obtain ⟨before, last, hread, hbefore, hclosed, hrec⟩ := axfr_installed h hplain
  rw [hread]
  constructor
  · rintro ⟨soa, body, closing, hans, hsoa, -, hsame, hrecords, hone⟩
    have hbody : ∀ r ∈ body, isZoneSoa req.domain r = false := by
      intro r hr
      by_contra hz
      rw [Bool.not_eq_false] at hz
      rw [hrecords, filter_cons, if_pos hsoa] at hone
      have hmem : r ∈ (body.filter (inZone req.domain)).filter (isZoneSoa req.domain) :=
        mem_filter.mpr ⟨mem_filter.mpr ⟨hr, inZone_of_zoneSoa hz⟩, hz⟩
      simp [(List.cons.inj hone).2] at hmem
    rw [hans, AxfrState.run_framed hsoa hbody] at hclosed hrec
    obtain ⟨-, hkept⟩ := AxfrState.take_closing rfl hsoa rfl hclosed
    rw [hkept, hrecords] at hrec
    rw [hans]
    exact ⟨wellFramed_iff.mpr ⟨hsoa, hbody, fun _ => hsame⟩,
      (encodable_iff (inZone_of_zoneSoa hsoa)).mpr hrec.symm⟩
  rintro ⟨hframed, henc⟩
  obtain ⟨soa, body, closing, hans⟩ := hframed.split hclosed
  rw [hans] at hframed henc hclosed hrec
  obtain ⟨hsoa, hbody, hlast⟩ := wellFramed_iff.mp hframed
  rw [AxfrState.run_framed hsoa hbody] at hclosed hrec
  obtain ⟨hclosing, hkept⟩ := AxfrState.take_closing rfl hsoa rfl hclosed
  rw [hkept, (encodable_iff (inZone_of_zoneSoa hsoa)).mp henc] at hrec
  refine ⟨soa, body, closing, hans, hsoa, ?_, hlast hclosing, hrec, ?_⟩
  · -- the last message holds an answer, since it finishes the transfer
    rw [streamAnswers_append, streamAnswers_singleton] at hans
    have hne : messageAnswers last ≠ [] := by
      intro hnil
      rw [hnil, append_nil] at hans
      rw [hans, AxfrState.run_framed hsoa hbody, hclosed] at hbefore
      cases hbefore
    have hend := congrArg List.getLast? hans
    rw [getLast?_append_of_ne_nil _ hne, getLast?_concat] at hend
    simpa using hend
  rw [hrec, filter_cons, if_pos hsoa, filter_eq_nil_iff.mpr]
  intro r hr
  simp [hbody r (mem_filter.mp hr).1]

end

/-! ### Streams that are not -/

/-- The request without a key. -/
def plainRequest : XferRequest Unit := { keyedRequest with key := none }

/-- An address of a name below `z.`. -/
def zoneAddress (label : UInt8) : List UInt8 :=
  [1, label, 0xC0, 12, 0, 1, 0, 1, 0, 0, 0, 60, 0, 4, 192, 0, 2, 1]

/-- An answer to `plainRequest` in one message. -/
def zoneMessage (rrs : List (List UInt8)) : XferMessage :=
  let bs :=
    [0, 1, 0x84, 0, 0, 1, 0, UInt8.ofNat rrs.length, 0, 0, 0, 0] ++
      [1, 122, 0, 0, 252, 0, 1] ++ rrs.flatten
  { buf := bufOf bs, len := bs.length }

/-- `b.z.` stands behind the closing SOA or before the opening one and is installed; an SOA with
another serial in between is installed next to the first. -/
theorem unframed_installed :
    installedOwners
      (handleAxfrEvent plainRequest 0 false
        [zoneMessage [zoneSoa 5, zoneAddress 97, zoneSoa 5, zoneAddress 98]]) =
      some [ascii "z.", ascii "a.z.", ascii "b.z."] ∧
    installedOwners
      (handleAxfrEvent plainRequest 0 false [zoneMessage [zoneAddress 98, zoneSoa 5, zoneSoa 5]]) =
      some [ascii "b.z.", ascii "z."] ∧
    installedOwners
      (handleAxfrEvent plainRequest 0 false [zoneMessage [zoneSoa 5, zoneSoa 6, zoneSoa 5]]) =
      some [ascii "z.", ascii "z."] ∧
    (∀ a ∈ messageAnswers (zoneMessage [zoneSoa 5, zoneAddress 97, zoneSoa 5, zoneAddress 98]),
      a.classVal ≠ classKaridnsExt) ∧
    ∀ records, ¬ AxfrExact (ascii "z.")
      [zoneMessage [zoneSoa 5, zoneAddress 97, zoneSoa 5, zoneAddress 98]] records := by
  refine ⟨by decide +kernel, by decide +kernel, by decide +kernel, by decide +kernel, ?_⟩
  rintro records ⟨soa, body, closing, -, hsoa, hlast, hsame, -, -⟩
  have htype :
    ((messageAnswers
      (zoneMessage [zoneSoa 5, zoneAddress 97, zoneSoa 5, zoneAddress 98])).getLast?.map
      DnsRecord.typeCode) = some 1 := by decide +kernel
  rw [getLast?_singleton, bind_some] at hlast
  rw [hlast, map_some] at htype
  rw [isZoneSoa, Bool.and_eq_true, beq_iff_eq] at hsoa
  rw [compareRecords, decide_eq_true_iff, hsoa.1, some.inj htype] at hsame
  exact absurd hsame.1 (by decide)

/-- A stream that is framed. -/
theorem axfr_exact_framed :
    ∃ records, handleAxfrEvent plainRequest 0 false
      [zoneMessage [zoneSoa 5, zoneAddress 97, zoneSoa 5]] =
      some (.installed records) ∧
        AxfrExact (ascii "z.") [zoneMessage [zoneSoa 5, zoneAddress 97, zoneSoa 5]] records := by
  have hinstalled : (installedOwners (handleAxfrEvent plainRequest 0 false
      [zoneMessage [zoneSoa 5, zoneAddress 97, zoneSoa 5]])).isSome = true := by decide +kernel
  obtain ⟨records, h⟩ := installed_of_owners hinstalled
  refine ⟨records, h, ?_⟩
  have hiff := axfr_exact_iff plainRequest 0 _ records h
  rw [xferConsumed_singleton, streamAnswers_singleton] at hiff
  exact (hiff (by decide +kernel)).mpr ⟨by decide +kernel, by decide +kernel⟩

end KariDns
