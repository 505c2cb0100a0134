import KariDns.Transfer.Receive

/-! The messages of a transfer as one stream of answer RRs.

How the RRs are spread over messages does not matter to the receiver: what one RR preserves holds
after the whole transfer. A zone is installed in the message whose RRs finish the transfer.
-/

namespace KariDns

open Octets DomainName

variable {ancount : Nat} {msg : XferMessage}

/-- An answer RR as the receiver takes it: the state before it, and which allocations succeed for
it. -/
structure TakenRr (T : Type) where
  answer : DnsRecord
  before : Receiver T
  alloc : Nat → Bool

/-- The answer RRs from `offset` on, `k` of `ancount` still to come, up to one that cannot be
parsed. -/
def answersFrom (msg : XferMessage) (ancount : Nat) : Nat → Nat → List DnsRecord
  | 0, _ => []
  | k + 1, offset =>
    match parseResourceRecord (msg.cache (ancount - (k + 1))) msg.buf msg.len offset with
    | none => []
    | some (rec, offset') => rec :: answersFrom msg ancount k offset'

/-- The answer RRs of a message. -/
def messageAnswers (msg : XferMessage) : List DnsRecord :=
  match skipWireQuestions msg.buf msg.len (getU16 msg.buf 4) 12 with
  | none => []
  | some offset => answersFrom msg (getU16 msg.buf 6) (getU16 msg.buf 6) offset

/-- The answer RRs of a sequence of messages. -/
def streamAnswers (msgs : List XferMessage) : List DnsRecord := msgs.flatMap messageAnswers

@[simp] lemma streamAnswers_nil : streamAnswers [] = [] := rfl

@[simp] lemma streamAnswers_append (a b : List XferMessage) :
    streamAnswers (a ++ b) = streamAnswers a ++ streamAnswers b :=
  List.flatMap_append

@[simp] lemma streamAnswers_singleton (msg : XferMessage) :
    streamAnswers [msg] = messageAnswers msg := by
  simp [streamAnswers]

/-- What the receiver installs of the records it holds. -/
def XferRequest.kept {T : Type} (req : XferRequest T) (records : List DnsRecord) : List DnsRecord :=
  if req.scratch then records.filter fun r => (dnsRecordCanonicalRdata r).isSome else records

section

variable {T : Type} {r r' : Receiver T}

/-- The answer RRs from `offset` on, as the receiver takes them. -/
def answersTaken (env : XferEnv T) (msg : XferMessage) (ancount : Nat) :
    Nat → Nat → Receiver T → List (TakenRr T)
  | 0, _, _ => []
  | k + 1, offset, r =>
    match parseResourceRecord (msg.cache (ancount - (k + 1))) msg.buf msg.len offset with
    | none => []
    | some (rec, offset') =>
      match xferRr env (msg.cache (ancount - (k + 1))) ancount (k == 0) rec r with
      | .next r' =>
        ⟨rec, r, msg.cache (ancount - (k + 1))⟩ :: answersTaken env msg ancount k offset' r'
      | _ => []

/-- Those of a message. -/
def messageTaken (env : XferEnv T) (msg : XferMessage) (r : Receiver T) : List (TakenRr T) :=
  match skipWireQuestions msg.buf msg.len (getU16 msg.buf 4) 12 with
  | none => []
  | some offset =>
    answersTaken env msg (getU16 msg.buf 6) (getU16 msg.buf 6) offset
      (if r.session.soaCount = 0 ∧ msg.extVersion.isSome then
        { r with session := { r.session with extVersion := msg.extVersion } } else r)

/-- Those of a transfer, up to the message that ends it. -/
def streamTaken (req : XferRequest T) : List XferMessage → XferLoop T → List (TakenRr T)
  | [], _ => []
  | msg :: rest, l =>
    messageTaken req.toXferEnv msg
      { l.receiver with session := { l.receiver.session with gotFirstMsg := true } } ++
      match xferMessage req msg l with
      | .more l' => streamTaken req rest l'
      | _ => []

/-- A property of the receiver and the RRs it has taken that every step keeps. -/
structure StreamInvariant (env : XferEnv T) (I : List (TakenRr T) → Receiver T → Prop) : Prop where
  rr : ∀ {pre : List (TakenRr T)} {r r' : Receiver T} {rec : DnsRecord} {alloc : Nat →
    Bool} {ancount : Nat} {isLast : Bool},
    I pre r → xferRr env alloc ancount isLast rec r = .next r' → I (pre ++ [⟨rec, r, alloc⟩]) r'
  gotFirst : ∀ {pre : List (TakenRr T)} {r : Receiver T}, I pre r →
    I pre { r with session := { r.session with gotFirstMsg := true } }
  extVersion : ∀ {pre : List (TakenRr T)} {r : Receiver T} (v : Option Nat), I pre r →
    I pre { r with session := { r.session with extVersion := v } }

variable {env : XferEnv T} {req : XferRequest T} {I : List (TakenRr T) → Receiver T → Prop}

/-! ### One RR that leaves its message -/

lemma xferZoneRr_stop {isLast wrappedSoa : Bool} {rec : DnsRecord}
    (h : xferZoneRr env ancount isLast rec wrappedSoa r = .stop r') :
    r'.records = [] ∧ r'.session.isFinished = true := by
  rw [xferZoneRr] at h
  split at h
  · cases h
  split at h
  · split at h <;> cases h
  dsimp only at h
  split at h
  · rw [xferBodySoa] at h
    split at h <;> cases h
  split at h
  · split at h
    · cases h
    rw [xferSoa] at h
    dsimp only at h
    split at h
    · split at h
      · cases h
        exact ⟨rfl, rfl⟩
      split at h
      · cases h
        exact ⟨rfl, rfl⟩
      split at h <;> cases h
    split at h
    · split at h
      · cases h
      split at h <;> cases h
    split at h
    · cases h
    split at h
    · split at h
      · cases h
      split at h <;> cases h
    split at h
    · split at h <;> cases h
    · cases h
  · cases h

/-- The transfer stops within a message only when the zone in use is the newest. -/
lemma xferRr_stop {alloc : Nat → Bool} {isLast : Bool} {rec : DnsRecord}
    (h : xferRr env alloc ancount isLast rec r = .stop r') :
      r'.records = [] ∧ r'.session.isFinished = true := by
  rw [xferRr] at h
  split at h
  · split at h
    · cases h
    · cases h
    · exact xferZoneRr_stop h
  · exact xferZoneRr_stop h

/-! ### One message -/

lemma xferAnswers_stop {r' : Receiver T} : ∀ {k offset : Nat} {r : Receiver T},
    xferAnswers env msg ancount k offset r = .stop r' → r'.records = [] ∧
      r'.session.isFinished = true
  | 0, _, _, h => by cases h
  | k + 1, offset, r, h => by
    rw [xferAnswers] at h
    split at h
    · cases h
    split at h
    · exact xferAnswers_stop h
    · exact xferRr_stop h

lemma xferAnswers_keeps (hI : StreamInvariant env I) {r' : Receiver T} :
    ∀ {k offset : Nat} {pre : List (TakenRr T)} {r : Receiver T}, I pre r →
      xferAnswers env msg ancount k offset r = .next r' →
        I (pre ++ answersTaken env msg ancount k offset r) r' ∧
        (answersTaken env msg ancount k offset r).map TakenRr.answer =
          answersFrom msg ancount k offset
  | 0, _, pre, r, hr, h => by
    cases h
    simpa [answersTaken, answersFrom] using hr
  | k + 1, offset, pre, r, hr, h => by
    rw [xferAnswers] at h
    rw [answersTaken, answersFrom]
    cases hparse : parseResourceRecord (msg.cache (ancount - (k + 1))) msg.buf msg.len offset with
    | none =>
      rw [hparse] at h
      cases h
    | some parsed =>
      obtain ⟨rec, offset'⟩ := parsed
      rw [hparse] at h
      dsimp only at h ⊢
      cases hrr : xferRr env (msg.cache (ancount - (k + 1))) ancount (k == 0) rec r with
      | next r₁ =>
        rw [hrr] at h
        obtain ⟨hnext, hanswers⟩ := xferAnswers_keeps hI (hI.rr hr hrr) h
        exact ⟨by simpa using hnext, by simp [hanswers]⟩
      | _ =>
        rw [hrr] at h
        cases h

/-- A message that is not left early is taken RR by RR. -/
lemma parseXfrPacket_keeps (hI : StreamInvariant env I) {pre : List (TakenRr T)} (hr : I pre r)
    (h : parseXfrPacket env msg r = .next r') : I (pre ++ messageTaken env msg r) r' ∧
      (messageTaken env msg r).map TakenRr.answer = messageAnswers msg := by
  rw [parseXfrPacket] at h
  rw [messageTaken, messageAnswers]
  split at h
  · cases h
  cases hskip : skipWireQuestions msg.buf msg.len (getU16 msg.buf 4) 12 with
  | none =>
    rw [hskip] at h
    cases h
  | some offset =>
    rw [hskip] at h
    dsimp only at h ⊢
    refine xferAnswers_keeps hI ?_ h
    split
    · exact hI.extVersion _ hr
    · exact hr

lemma parseXfrPacket_stop (h : parseXfrPacket env msg r = .stop r') :
    r'.records = [] ∧ r'.session.isFinished = true := by
  rw [parseXfrPacket] at h
  split at h
  · cases h
  split at h
  · cases h
  · exact xferAnswers_stop h

/-! ### The whole transfer -/

lemma xferTsig_receiver {l l' : XferLoop T} (h : xferTsig req msg l = some l') :
    l'.receiver = l.receiver := by
  rw [xferTsig] at h
  split at h
  · cases h
    rfl
  split at h
  · split at h
    · cases h
      dsimp only
      split <;> rfl
    · cases h
  split at h
  · cases h
  split at h
  · cases h
  · cases h
    rfl

/-- A finished transfer ends. -/
lemma xferFinish_ends (l : XferLoop T) {l' : XferLoop T} : xferFinish req l ≠ .more l' := by
  intro h
  rw [xferFinish] at h
  split at h
  · cases h
  split at h
  · cases h
  dsimp only at h
  generalize (if req.scratch then l.receiver.records.filter _
    else l.receiver.records) = records at h
  split at h <;> cases h

lemma xferFinish_installed {l : XferLoop T} {records : List DnsRecord}
    (h : xferFinish req l = .done (.installed records)) :
    records = req.kept l.receiver.records ∧ l.receiver.records ≠ [] := by
  rw [xferFinish] at h
  split at h
  · cases h
  split at h
  · cases h
  rename_i hne
  change (if req.installs (req.kept l.receiver.records) then
    XferTurn.done (.installed (req.kept l.receiver.records))
    else XferTurn.failed) = _ at h
  split at h
  · cases h
    exact ⟨rfl, hne⟩
  · cases h

/-- What the receiver holds behind a message that does not fail. -/
lemma xferParsed_cases {l : XferLoop T} {r : Receiver T} :
    (∃ l', xferParsed req l r = .more l' ∧ l'.receiver = r ∧ r.session.isFinished = false) ∨
    (∀ l', xferParsed req l r ≠ .more l') ∧
      ∀ records, xferParsed req l r = .done (.installed records) →
      r.session.isFinished = true ∧ records = req.kept r.records ∧ r.records ≠ [] := by
  rw [xferParsed]
  split
  · exact .inr ⟨by simp, by simp⟩
  split
  · exact .inr ⟨by simp, by simp⟩
  split
  · rename_i hfin
    refine .inr ⟨fun l' => ?_, fun records h => ⟨hfin, xferFinish_installed h⟩⟩
    exact xferFinish_ends _
  · rename_i hfin
    exact .inl ⟨_, rfl, rfl, by simpa using hfin⟩

/-- A message leaves the receiver with its answers taken, and either the transfer goes on unfinished
or, if it installs a zone, the receiver is finished. -/
lemma xferMessage_keeps (hI : StreamInvariant req.toXferEnv I) {msg : XferMessage}
    {pre taken : List (TakenRr T)} {l : XferLoop T} (hl : I pre l.receiver)
    (htaken : messageTaken req.toXferEnv msg
      { l.receiver with session := { l.receiver.session with gotFirstMsg := true } } = taken) :
    (∀ l', xferMessage req msg l = .more l' → (I (pre ++ taken) l'.receiver ∧
      taken.map TakenRr.answer = messageAnswers msg) ∧ l'.receiver.session.isFinished = false) ∧
    ∀ records, xferMessage req msg l = .done (.installed records) → ∃ r, (I (pre ++ taken) r ∧
      taken.map TakenRr.answer = messageAnswers msg) ∧ r.session.isFinished = true ∧
        records = req.kept r.records := by
  rw [xferMessage]
  dsimp only
  split
  · simp
  split
  · simp
  split
  · simp
  rename_i l₁ htsig
  have hrecv := xferTsig_receiver htsig
  have hstart : I pre l₁.receiver := by
    rw [hrecv]
    exact hI.gotFirst hl
  split
  · simp
  · rename_i r hstop
    obtain ⟨hnil, hfin⟩ := parseXfrPacket_stop hstop
    rcases @xferParsed_cases T req l₁ r with ⟨_, -, -, hnot⟩ | ⟨hmore, hdone⟩
    · rw [hfin] at hnot
      cases hnot
    · exact ⟨fun l' h => absurd h (hmore l'), fun records h => absurd hnil (hdone records h).2.2⟩
  rename_i r hnext
  have hr := parseXfrPacket_keeps hI hstart hnext
  rw [hrecv, htaken] at hr
  rcases @xferParsed_cases T req l₁ r with ⟨l₂, heq, hrec, hnot⟩ | ⟨hmore, hdone⟩
  · refine ⟨fun l' h => ?_, fun records h => ?_⟩
    · rw [heq] at h
      cases h
      rw [hrec]
      exact ⟨hr, hnot⟩
    · rw [heq] at h
      cases h
  · exact ⟨fun l' h => absurd h (hmore l'),
      fun records h => ⟨r, hr, (hdone records h).1, (hdone records h).2.1⟩⟩

/-- The run rule: an invariant of the RRs holds at the end of a transfer that installs a zone, and
the receiver was not finished before the last message. -/
lemma xferRun_installed (hI : StreamInvariant req.toXferEnv I) {records : List DnsRecord} :
    ∀ {msgs : List XferMessage} {pre : List (TakenRr T)} {l : XferLoop T}, I pre l.receiver →
      l.receiver.session.isFinished = false → xferRun req msgs l = some (.installed records) →
      (streamTaken req msgs l).map TakenRr.answer = streamAnswers (xferConsumed req msgs l) ∧
      ∃ before last taken r₀ r, xferConsumed req msgs l = before ++ [last] ∧
        (I (pre ++ taken) r₀ ∧ taken.map TakenRr.answer = streamAnswers before) ∧
          r₀.session.isFinished = false ∧
        I (pre ++ streamTaken req msgs l) r ∧ r.session.isFinished = true ∧
          records = req.kept r.records
  | [], _, _, _, _, h => by cases h
  | msg :: rest, pre, l, hl, hnot, h => by
    rw [xferRun] at h
    rw [xferConsumed, streamTaken]
    generalize htaken : messageTaken req.toXferEnv msg
      { l.receiver with session := { l.receiver.session with gotFirstMsg := true } } = taken
    obtain ⟨hmore, hdone⟩ := @xferMessage_keeps T req I hI msg pre taken l hl htaken
    cases hm : xferMessage req msg l with
    | failed => simp [hm] at h
    | done o =>
      rw [hm] at h
      cases h
      obtain ⟨r, ⟨hr, hanswers⟩, hfin, hrec⟩ := hdone _ hm
      refine ⟨by simp [hanswers], [], msg, [], l.receiver, r, rfl, ⟨by simpa using hl, rfl⟩,
        hnot, ?_, hfin, hrec⟩
      simpa using hr
    | more l' =>
      rw [hm] at h
      obtain ⟨⟨hl', hanswers⟩, hnot'⟩ := hmore l' hm
      obtain ⟨hall, before, last, taken', r₀, r, hread, ⟨hr₀, hbefore⟩, hn₀, hr, hfin, hrec⟩ :=
        xferRun_installed hI hl' hnot' h
      refine ⟨by simp [streamAnswers, hanswers, hall], msg :: before, last, taken ++ taken', r₀,
        r, by simp [hread],
        ⟨by simpa using hr₀, ?_⟩, hn₀, by simpa using hr, hfin, hrec⟩
      simp [streamAnswers, hanswers, hbefore]

end

end KariDns
