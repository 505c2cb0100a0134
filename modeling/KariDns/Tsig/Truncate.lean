import KariDns.Edns.Reserve
import KariDns.Tsig.Chain
import KariDns.Wire.ErrorResponse

/-! Responses cut down to their questions.

`dns_truncate_keep_opt` keeps the OPT record of a response, `dns_rrl_slip_response` (rate limiting)
also sets TC and signs what is left, and `tsig_finish_response` cuts a response for which its TSIG
record leaves no room down to the questions and signs it once more. The borders of the sections are
found again in the message itself.
-/

namespace KariDns

open Octets DomainName List Option

/-! ### Cutting -/

/-- `dns_truncate_keep_opt`: the buffer afterwards and the length of the message in it. -/
def dnsTruncateKeepOpt (m : Buf) (len qEnd : Nat) : Buf × Nat :=
  if len < 12 then (m, len)
  else
    let qEnd := if qEnd < 12 ∨ qEnd > len then 12 else qEnd
    let cleared := blit m 6 [0, 0, 0, 0, 0, 0]
    match (dnsFindOptRr m len).filter (·.1 ≥ qEnd) with
    | none => (cleared, qEnd)
    | some (off, n) => (blit (blit cleared qEnd (slice cleared off n)) 11 [1], qEnd + n)

/-- The name of a question, as `get_question_end_offset` passes over it; `none` if it leaves the
message. -/
def questionNameEnd (m : Buf) (len : Nat) : Nat → Nat → Option Nat
  | 0, offset => some offset
  | fuel + 1, offset =>
    if offset ≥ len then some offset
    else if m offset = 0 then some (offset + 1)
    else if isPointer (m offset) then if offset + 2 > len then none else some (offset + 2)
    else if offset + 1 + (m offset).toNat + 1 > len then none
    else questionNameEnd m len fuel (offset + (m offset).toNat + 1)

/-- `get_question_end_offset` with `k` questions to come. -/
def getQuestionEndOffset (m : Buf) (len : Nat) : Nat → Nat → Nat
  | 0, offset => if offset ≤ len then offset else len
  | k + 1, offset =>
    match questionNameEnd m len len offset with
    | none => len
    | some e => if e + 4 > len then len else getQuestionEndOffset m len k (e + 4)

/-! ### Signing what is left -/

inductive TsigStatus where
  | none | valid | error | formerr
  deriving DecidableEq, Repr

/-- `tsig_request_t`. -/
structure TsigRequest where
  status : TsigStatus
  error : UInt16
  key : Option TsigKey
  keyName : Text
  algName : Text
  mac : List UInt8
  timeSigned : Nat
  fudge : UInt16
  resLimit : Nat

namespace TsigRequest

/-- The response carries a TSIG record. -/
def signs (t : TsigRequest) : Bool := t.status = .valid ∨ t.status = .error

/-- The error the TSIG record tells. -/
def tells (t : TsigRequest) : UInt16 := if t.status = .valid then 0 else t.error

/-- The key of the response: for BADSIG and BADKEY the names of the request without a secret. -/
def signer (t : TsigRequest) : Option TsigKey :=
  if t.tells = 16 ∨ t.tells = 17 then some ⟨t.keyName, some t.algName, [], 0⟩ else t.key

/-- One attempt of `tsig_finish_response`; `clocks` are the two calls of `time (NULL)`. -/
def attempt (H : KeyedHash) (t : TsigRequest) (key : TsigKey) (clocks : Nat × Nat) (m : Buf)
    (len maxLen : Nat) : Option SignedPacket :=
  tsigSignPacketEx H m len maxLen key t.tells
    ⟨if t.tells = 16 ∨ t.tells = 17 then [] else t.mac, [], false⟩
    (if t.tells = 18 then some ⟨t.timeSigned, t.fudge⟩ else none) clocks.1 clocks.2

end TsigRequest

/-- The header of the second attempt: TC, NOERROR, no records. -/
def secondHeader (m : Buf) : Buf := blit (blit m 2 [m 2 ||| 2, m 3 &&& 0xF0]) 6 [0, 0, 0, 0, 0, 0]

/-- The second attempt of `tsig_finish_response`: the questions and the TSIG record. -/
def tsigSecondAttempt (H : KeyedHash) (t : TsigRequest) (key : TsigKey) (clocks : Nat × Nat)
    (m : Buf) (len maxLen : Nat) : Buf × Option Nat :=
  match skipWireQuestions m len (getU16 m 4) 12 with
  | none => (m, none)
  | some qEnd =>
    match t.attempt H key clocks (secondHeader m) qEnd maxLen with
    | some out => (out.buf, some out.len)
    | none => (secondHeader m, none)

/-- `tsig_finish_response`: the buffer afterwards and the length of the signed message, `none` for
-1. -/
def tsigFinishResponse (H : KeyedHash) (t : TsigRequest) (clocks clocks' : Nat × Nat) (m : Buf)
    (len maxLen : Nat) : Buf × Option Nat :=
  if !t.signs || len < 12 then (m, some len)
  else
    match t.signer with
    | none => (m, none)
    | some key =>
      match t.attempt H key clocks m len maxLen with
      | some out => (out.buf, some out.len)
      | none => tsigSecondAttempt H t key clocks' m len maxLen

/-- The room of the slip response. -/
def slipLimit (t : TsigRequest) (bufCap : Nat) : Nat :=
  if t.resLimit = 0 ∨ t.resLimit > bufCap then bufCap else t.resLimit

/-- `dns_rrl_slip_response`. -/
def dnsRrlSlipResponse (H : KeyedHash) (t : TsigRequest) (clocks clocks' : Nat × Nat) (m : Buf)
    (len bufCap : Nat) : Buf × Nat :=
  if len < 12 then (m, len)
  else
    let truncated := blit m 2 [m 2 ||| 2]
    let cut :=
      dnsTruncateKeepOpt truncated len (getQuestionEndOffset truncated len (getU16 truncated 4) 12)
    if !t.signs then cut
    else
      match tsigFinishResponse H t clocks clocks' cut.1 cut.2 (slipLimit t bufCap) with
      | (b, some n) => (b, if n ≥ 12 then n else cut.2)
      -- the unsigned response goes out, in what the attempts have left of the buffer
      | (b, none) => (b, cut.2)

/-! ### What a response is and what is left of it -/

/-- The owners of `k` records from `p` on lie behind the header, and that of an OPT record is the
root, in one octet. -/
def ownersForm (m : Buf) (len : Nat) : Nat → Nat → Bool
  | 0, _ => true
  | k + 1, p =>
    match skipWireName m len p with
    | none => false
    | some n => nameInside m 12 len expandFuel p && (getU16 m n ≠ 41 || m p = 0) &&
        ownersForm m len k (n + 10 + getU16 m (n + 8))

/-- A well-formed message with these questions: a walk by its counts goes through to the end, the
pointers in its question section lead to earlier names there, no other leads into the header, and an
OPT record is owned by the root. -/
structure ResponseForm (m : Buf) (len : Nat) (qs : List Question) (qEnd : Nat) : Prop where
  questions : walkQuestions m len (getU16 m 4) 12 = some (qs, qEnd)
  records : walkRecords m len (getU16 m 6 + getU16 m 8 + getU16 m 10) qEnd = some len
  inside : questionsInside m len 12 qEnd (getU16 m 4) 12 = true
  owners : ownersForm m len (getU16 m 6 + getU16 m 8 + getU16 m 10) qEnd = true

/-- The message in `m'` is what is left of the one in `m`: the ID and the question section stay,
there are no answer or authority records, the counts go through to the end, and an OPT record is
that of the message. -/
structure CutDown (m : Buf) (len : Nat) (qs : List Question) (qEnd : Nat) (m' : Buf)
    (len' : Nat) : Prop where
  id : slice m' 0 2 = slice m 0 2
  qdcount : getU16 m' 4 = getU16 m 4
  questions : AgreeOn 12 qEnd m m'
  answers : getU16 m' 6 = 0
  authority : getU16 m' 8 = 0
  whole : wholeMessage m' len' = some qs
  opt : ∀ off n, dnsFindOptRr m' len' = some (off, n) →
    ∃ off', dnsFindOptRr m len = some (off', n) ∧ slice m' off n = slice m off' n

/-- TC is set. -/
def Truncated (m : Buf) : Prop := m 2 &&& 2 = 2

/-! ### Records -/

/-- A record at `p`, its owner up to `n`, the next record at `next`. -/
structure RecordAt (m : Buf) (len p n next : Nat) : Prop where
  owner : ∃ t, expandWireNameToBuffer m len p dnsNameTextSize = some (t, n)
  ends : next = n + 10 + getU16 m (n + 8)
  within : next ≤ len

section Records

variable {m m' : Buf} {len p n next : Nat}

lemma RecordAt.walk (h : RecordAt m len p n next) (k : Nat) :
    walkRecords m len (k + 1) p = walkRecords m len k next := by
  obtain ⟨⟨t, ht⟩, rfl, hin⟩ := h
  rw [walkRecords, ht]
  dsimp only
  rw [if_neg (by omega)]

lemma RecordAt.find (h : RecordAt m len p n next) (k : Nat) : findOptLoop m len (k + 1) p =
    if getU16 m n = 41 then some (p, next - p) else findOptLoop m len k next := by
  obtain ⟨⟨t, ht⟩, rfl, hin⟩ := h
  rw [findOptLoop, skipWireName_of_expand ht]
  dsimp only
  rw [if_neg (by omega), if_neg (by omega)]

lemma recordAt_of_walk {k q : Nat} (h : walkRecords m len (k + 1) p = some q) :
    ∃ n next, RecordAt m len p n next ∧ walkRecords m len k next = some q := by
  rw [walkRecords] at h
  cases hx : expandWireNameToBuffer m len p dnsNameTextSize with
  | none =>
    rw [hx] at h
    cases h
  | some r =>
    obtain ⟨t, n⟩ := r
    rw [hx] at h
    dsimp only at h
    split at h
    · cases h
    · exact ⟨n, _, ⟨⟨t, hx⟩, rfl, by omega⟩, h⟩

lemma RecordAt.lt (h : RecordAt m len p n next) : p < n := by
  obtain ⟨t, ht⟩ := h.owner
  obtain ⟨_, -, hs, -⟩ := expandWireNameToBuffer_sound ht
  exact hs.lt

/-- A record owned by the root, in one octet. -/
lemma recordAt_root (h : m p = 0) (hin : p + 11 + getU16 m (p + 9) ≤ len) :
    RecordAt m len p (p + 1) (p + 11 + getU16 m (p + 9)) := by
  refine ⟨⟨[46], ?_⟩, by rw [show p + 1 + 8 = p + 9 from rfl], hin⟩
  have hwire : Holds m p (wire []) := holds_cons.mpr ⟨h, holds_nil _ _⟩
  exact expandWireNameToBuffer_reads (S := fun i => i < len) (fun _ hi => hi)
    (reads_wire 0 (by simp) hwire fun i _ hi => by simp at hi; omega) (by decide) (Nat.le_refl _)

end Records

lemma walkRecords_le {m : Buf} {len : Nat} (k : Nat) {p q : Nat}
    (h : walkRecords m len k p = some q) : p ≤ q := by
  induction k generalizing p with
  | zero =>
    cases h
    exact Nat.le_refl _
  | succ k ih =>
    obtain ⟨n, next, hrec, hrest⟩ := recordAt_of_walk h
    have hlt := hrec.lt
    have hends := hrec.ends
    have hle := ih hrest
    omega

/-- The first OPT record of a message in this form, whatever its header says. -/
lemma findOptLoop_form {m m' : Buf} {len : Nat} (hag : AgreeOn 12 len m m') (k : Nat) {p : Nat}
    (hp : 12 ≤ p) (hwalk : walkRecords m len k p = some len) (hform : ownersForm m len k p = true) :
    findOptLoop m' len k p = findOptLoop m len k p ∧
      ∀ off n, findOptLoop m len k p = some (off, n) →
      p ≤ off ∧ m off = 0 ∧ getU16 m (off + 1) = 41 ∧ n = 11 + getU16 m (off + 9) ∧
        off + n ≤ len := by
  induction k generalizing p with
  | zero => exact ⟨rfl, fun _ _ h => by cases h⟩
  | succ k ih =>
    obtain ⟨n, next, hrec, hrest⟩ := recordAt_of_walk hwalk
    obtain ⟨t, ht⟩ := hrec.owner
    have hlt := hrec.lt
    have hends := hrec.ends
    have hwithin := hrec.within
    rw [ownersForm, skipWireName_of_expand ht] at hform
    simp only [Bool.and_eq_true, ← hends] at hform
    obtain ⟨⟨hin, hroot⟩, hform⟩ := hform
    have hrec' : RecordAt m' len p n next := by
      refine ⟨⟨t, expandWireNameToBuffer_inside hag (Nat.le_refl _) hin ht⟩, ?_, hwithin⟩
      rw [getU16_agree hag (by omega) (by omega)]
      exact hends
    obtain ⟨heq, hfound⟩ := ih (by omega) hrest hform
    rw [hrec.find, hrec'.find, getU16_agree hag (show 12 ≤ n by omega) (by omega)]
    split
    · rename_i h41
      refine ⟨rfl, fun off l h => ?_⟩
      cases h
      have hzero : m p = 0 := by simpa [h41] using hroot
      have hskip := (skipWireName_of_expand ht).symm.trans (skipWireName_root (by omega) hzero)
      obtain rfl := some.inj hskip
      rw [show p + 1 + 8 = p + 9 from rfl] at hends
      exact ⟨Nat.le_refl _, hzero, h41, by omega, by omega⟩
    refine ⟨heq, fun off l h => ?_⟩
    obtain ⟨hle, hrest⟩ := hfound off l h
    exact ⟨by omega, hrest⟩

/-- The way through the labels of a name that reads. -/
lemma questionNameEnd_spells {m : Buf} {len p e : Nat} {n : Name} (h : Spells m len p n e)
    {fuel : Nat} (hfuel : len ≤ p + fuel) : questionNameEnd m len fuel p = some e := by
  induction h generalizing fuel with
  | root hp h0 =>
    rcases fuel with _ | fuel
    · omega
    rw [questionNameEnd, if_neg (by omega), if_pos h0]
  | label hl hw hin hs ih =>
    rcases fuel with _ | fuel
    · omega
    obtain ⟨hlen, hptr, -, hne, -⟩ := labelOctet hl hw
    have hroom := spells_lt_len hs
    rw [questionNameEnd, if_neg (by omega), if_neg hne, if_neg (by simp [hptr]), hlen,
      if_neg (by omega)]
    rw [Nat.add_right_comm]
    exact ih (by omega)
  | pointer hp hptr hs _ =>
    rcases fuel with _ | fuel
    · omega
    have hne : m _ ≠ 0 := fun h0 => by rw [h0] at hptr; cases hptr
    rw [questionNameEnd, if_neg (by omega), if_neg hne, if_pos hptr, if_neg (by omega)]

lemma getQuestionEndOffset_walk {m : Buf} {len : Nat} (k : Nat) {p e : Nat} {qs : List Question}
    (h : walkQuestions m len k p = some (qs, e)) (he : e ≤ len) :
      getQuestionEndOffset m len k p = e := by
  induction k generalizing p qs with
  | zero =>
    cases h
    rw [getQuestionEndOffset, if_pos he]
  | succ k ih =>
    obtain ⟨t, e', qs', hx, hroom, hrest, -⟩ := walkQuestions_step h
    obtain ⟨n, -, hs, -⟩ := expandWireNameToBuffer_sound hx
    rw [getQuestionEndOffset, questionNameEnd_spells hs (by omega)]
    dsimp only
    rw [if_neg (by omega)]
    exact ih hrest

/-! ### What is left -/

/-- The octets of a kept record. -/
def keptLength (o : Option (Nat × Nat)) : Nat := o.elim 0 Prod.snd

def keptCount (o : Option (Nat × Nat)) : Nat := if o.isSome then 1 else 0

/-- The octets every cut keeps: the ID, QDCOUNT and the questions. -/
def SameFront (m b : Buf) (qEnd : Nat) : Prop :=
  ∀ i, i < 2 ∨ 4 ≤ i ∧ i < 6 ∨ 12 ≤ i ∧ i < qEnd → b i = m i

/-- The buffer `b` begins with what is left of the message in `m`: the record `o` of it, or none,
behind the questions. -/
structure Cut (m : Buf) (len qEnd : Nat) (o : Option (Nat × Nat)) (b : Buf) : Prop where
  front : SameFront m b qEnd
  empty : ∀ i, 6 ≤ i → i < 10 → b i = 0
  found : o = none ∨ o = dnsFindOptRr m len
  kept : ∀ off n, o = some (off, n) → ∀ i < n, b (qEnd + i) = m (off + i)

section Form

variable {m m' b : Buf} {len qEnd : Nat} {qs : List Question} {o : Option (Nat × Nat)}

lemma ResponseForm.bounds (hm : ResponseForm m len qs qEnd) : 12 ≤ qEnd ∧ qEnd ≤ len :=
  ⟨(walkQuestions_le _ hm.questions).1, walkRecords_le _ hm.records⟩

lemma ResponseForm.reread (hm : ResponseForm m len qs qEnd) (hb : SameFront m b qEnd) {len' : Nat}
    (hle : qEnd ≤ len') :
    walkQuestions b len' (getU16 b 4) 12 = some (qs, qEnd) := by
  have hqd : getU16 b 4 = getU16 m 4 := by
    unfold getU16
    rw [hb 4 (by omega), hb (4 + 1) (by omega)]
  rw [hqd]
  exact walkQuestions_inside (fun i hlo hhi => (hb i (by omega)).symm) hle _ (Nat.le_refl _)
    (Nat.le_refl _) hm.inside
    hm.questions

/-- The OPT record of a message in this form. -/
lemma ResponseForm.find (hm : ResponseForm m len qs qEnd) (hag : AgreeOn 4 len m m') :
    dnsFindOptRr m' len = dnsFindOptRr m len ∧ ∀ off n, dnsFindOptRr m len = some (off, n) →
      qEnd ≤ off ∧ m off = 0 ∧ getU16 m (off + 1) = 41 ∧ n = 11 + getU16 m (off + 9) ∧
        off + n ≤ len := by
  obtain ⟨h12, hle⟩ := hm.bounds
  have hfind : ∀ b, AgreeOn 4 len m b → walkQuestions b len (getU16 b 4) 12 = some (qs, qEnd) →
    dnsFindOptRr b len =
      findOptLoop b len (getU16 m 6 + getU16 m 8 + getU16 m 10) qEnd := by
    intro b hb hq
    rw [dnsFindOptRr, if_neg (by omega), skipWireQuestions_of_walk _ hq]
    dsimp only
    rw [getU16_agree hb (show 4 ≤ 6 by omega) (by omega),
      getU16_agree hb (show 4 ≤ 8 by omega) (by omega),
      getU16_agree hb (show 4 ≤ 10 by omega) (by omega)]
  have hq' : walkQuestions m' len (getU16 m' 4) 12 = some (qs, qEnd) := by
    rw [getU16_agree hag (Nat.le_refl _) (by omega)]
    exact walkQuestions_inside (fun i hlo hhi => hag i (by omega) (by omega)) hle _
      (Nat.le_refl _) (Nat.le_refl _)
      hm.inside hm.questions
  obtain ⟨heq, hfound⟩ :=
    findOptLoop_form (fun i hlo hhi => hag i (by omega) hhi) _ h12 hm.records hm.owners
  rw [hfind m' hag hq', hfind m (fun _ _ _ => rfl) hm.questions]
  exact ⟨heq, hfound⟩

lemma Cut.octets {off n : Nat} (c : Cut m len qEnd o b) (ho : o = some (off, n)) :
    slice b qEnd n = slice m off n := by
  refine ext_getElem? fun i => ?_
  rcases Nat.lt_or_ge i n with hi | hi
  · rw [slice_getElem? hi, slice_getElem? hi, c.kept off n ho i hi]
  · rw [getElem?_eq_none (by simpa using hi), getElem?_eq_none (by simpa using hi)]

/-- What is left of a message, with `j` records behind that are no OPT. -/
lemma Cut.down (c : Cut m len qEnd o b) (hm : ResponseForm m len qs qEnd) (j : Nat) {len' : Nat}
    (har : getU16 b 10 = j + keptCount o) (hle : qEnd + keptLength o ≤ len')
    (hwalk : walkRecords b len' j (qEnd + keptLength o) = some len')
    (hfind : findOptLoop b len' j (qEnd + keptLength o) = none) : CutDown m len qs qEnd b len' := by
  have h12 := hm.bounds.1
  have hq := hm.reread c.front (show qEnd ≤ len' by omega)
  have han : getU16 b 6 = 0 := by simp [getU16, c.empty]
  have hns : getU16 b 8 = 0 := by simp [getU16, c.empty]
  have hrest : walkRecords b len' (getU16 b 10) qEnd = some len' ∧
      ∀ off n, findOptLoop b len' (getU16 b 10) qEnd = some (off, n) →
        ∃ off', dnsFindOptRr m len = some (off', n) ∧ slice b off n = slice m off' n := by
    rw [har]
    cases o with
    | none => exact ⟨hwalk, fun _ _ h => absurd (hfind.symm.trans h) (by simp)⟩
    | some r =>
      obtain ⟨off, n⟩ := r
      have hopt := c.found.resolve_left (by simp)
      obtain ⟨-, hroot, h41, hn, -⟩ := (hm.find fun _ _ _ => rfl).2 off n hopt.symm
      have hkept := c.kept off n rfl
      have hle : qEnd + n ≤ len' := hle
      have hrd : getU16 b (qEnd + 9) = getU16 m (off + 9) := by
        unfold getU16
        rw [hkept 9 (by omega), Nat.add_assoc, hkept (9 + 1) (by omega), Nat.add_assoc]
      have htype : getU16 b (qEnd + 1) = 41 := by
        rw [← h41]
        unfold getU16
        rw [hkept 1 (by omega), Nat.add_assoc, hkept (1 + 1) (by omega), Nat.add_assoc]
      have hrec := @recordAt_root b len' qEnd ((hkept 0 (by omega)).trans hroot) (by omega)
      rw [hrd, Nat.add_assoc, ← hn] at hrec
      rw [show j + keptCount (some (off, n)) = j + 1 from rfl, hrec.walk, hrec.find, if_pos htype]
      refine ⟨hwalk, fun off' n' h => ?_⟩
      cases h
      rw [Nat.add_sub_cancel_left]
      exact ⟨off, hopt.symm, c.octets rfl⟩
  refine ⟨slice_congr fun i _ hi => c.front i (by omega), ?_,
    fun i hlo hhi => (c.front i (by omega)).symm, han, hns, ?_, ?_⟩
  · unfold getU16
    rw [c.front 4 (by omega), c.front (4 + 1) (by omega)]
  · rw [wholeMessage, if_neg (by omega), hq]
    dsimp only
    rw [han, hns, Nat.zero_add, hrest.1, if_pos rfl]
  rw [dnsFindOptRr, if_neg (by omega), skipWireQuestions_of_walk _ hq]
  dsimp only
  rw [han, hns, Nat.zero_add]
  exact hrest.2

/-- No records are counted. -/
lemma blit_cleared (b : Buf) {i : Nat} (hlo : 6 ≤ i) (hhi : i < 12) :
    blit b 6 [0, 0, 0, 0, 0, 0] i = 0 := by
  obtain ⟨d, rfl⟩ := Nat.exists_eq_add_of_le hlo
  have hd : d < (List.replicate 6 (0 : UInt8)).length := by
    rw [length_replicate]
    omega
  exact (blit_add hd).trans (getElem_replicate hd)

/-- `dns_truncate_keep_opt` leaves the questions and the OPT record, if there is one. -/
lemma dnsTruncateKeepOpt_cut (hm : ResponseForm m len qs qEnd) (hid : AgreeOn 0 2 m m')
    (hag : AgreeOn 4 len m m') :
    Cut m len qEnd (dnsFindOptRr m len) (dnsTruncateKeepOpt m' len qEnd).1 ∧
      getU16 (dnsTruncateKeepOpt m' len qEnd).1 10 = keptCount (dnsFindOptRr m len) ∧
      (dnsTruncateKeepOpt m' len qEnd).2 = qEnd + keptLength (dnsFindOptRr m len) ∧
      (dnsTruncateKeepOpt m' len qEnd).1 2 = m' 2 := by
  obtain ⟨h12, hle⟩ := hm.bounds
  obtain ⟨hsame, hfound⟩ := hm.find hag
  have hcleared : ∀ i, i < 6 ∨ 12 ≤ i → blit m' 6 [0, 0, 0, 0, 0, 0] i = m' i := by
    rintro i (hi | hi)
    · exact blit_lt hi
    · exact blit_ge hi
  have hzero : ∀ i, 6 ≤ i → i < 12 → blit m' 6 [0, 0, 0, 0, 0, 0] i = 0 := fun i => blit_cleared m'
  have hfront : ∀ i, i < 2 ∨ 4 ≤ i ∧ i < 6 ∨ 12 ≤ i ∧ i < qEnd → m' i = m i := by
    rintro i (hi | hi | hi)
    · exact (hid i (by omega) hi).symm
    · exact (hag i (by omega) (by omega)).symm
    · exact (hag i (by omega) (by omega)).symm
  rw [dnsTruncateKeepOpt, if_neg (by omega)]
  dsimp only
  rw [if_neg (by omega), hsame]
  cases hopt : dnsFindOptRr m len with
  | none =>
    refine ⟨⟨fun i hi => ?_, fun i hlo hhi => hzero i hlo (by omega), .inl rfl,
      fun _ _ h => by cases h⟩, ?_, rfl, ?_⟩
    · exact (hcleared i (by omega)).trans (hfront i hi)
    · simp [getU16, hzero, keptCount]
    · exact hcleared 2 (by omega)
  | some r =>
    obtain ⟨off, n⟩ := r
    obtain ⟨hoff, -, -, -, hin⟩ := hfound off n hopt
    rw [filter_some, if_pos (by simpa using hoff)]
    dsimp only
    generalize hcl : blit m' 6 [0, 0, 0, 0, 0, 0] = cleared at hcleared hzero
    have hbelow : ∀ i, i < 11 ∨ 12 ≤ i ∧ i < qEnd →
        blit (blit cleared qEnd (slice cleared off n)) 11 [1] i = cleared i := by
      rintro i (hi | hi)
      · rw [blit_lt hi, blit_lt (by omega)]
      · rw [blit_ge (by exact hi.1), blit_lt hi.2]
    have hone : blit (blit cleared qEnd (slice cleared off n)) 11 [1] 11 = 1 := rfl
    refine ⟨⟨fun i hi => ?_, fun i hlo hhi => ?_, .inr hopt.symm, ?_⟩, ?_, rfl, ?_⟩
    · rw [hbelow i (by omega), hcleared i (by omega), hfront i hi]
    · rw [hbelow i (by omega), hzero i hlo (by omega)]
    · intro off' n' h i hi
      cases h
      rw [blit_ge (by simp; omega), blit_add (by simpa using hi), ← some_inj, ← getElem?_eq_getElem,
        slice_getElem? hi, hcleared _ (by omega), hag _ (by omega) (by omega)]
    · rw [getU16, hbelow 10 (by omega), hzero 10 (by omega) (by omega), hone]
      rfl
    · rw [hbelow 2 (by omega), hcleared 2 (by omega)]

/-- What is left can be signed. -/
lemma Cut.signed (c : Cut m len qEnd o b) (hm : ResponseForm m len qs qEnd)
    (har : getU16 b 10 = keptCount o) {H : KeyedHash} {key : TsigKey} {error fudge : UInt16}
    {ctx : TsigContext} {now now48 : Nat} {kn an : Name} {out : SignedPacket}
    (hs : Signed H b (qEnd + keptLength o) key error ctx now fudge now48 kn an out) :
    CutDown m len qs qEnd out.buf out.len ∧ out.buf 2 = b 2 := by
  have h12 := hm.bounds.1
  have hkn := fold_valid (readName_valid hs.keyName)
  have han := fold_valid (readName_valid hs.algName)
  have hbody : ∀ i, i < qEnd + keptLength o → i < 10 ∨ 12 ≤ i → out.buf i = b i := fun i hi hi' =>
    hs.buf ▸ signedBuf_body hi hi'
  have hcount : keptCount o < 65535 := by
    unfold keptCount
    split <;> decide
  have hheld :=
    recordHeld (hs.buf ▸ signedBuf_holds (show 12 ≤ qEnd + keptLength o by omega)) han hs.mac_le
  have hlen := hs.length
  rw [signedOctets_length] at hlen
  have hrec : RecordAt out.buf out.len (qEnd + keptLength o)
      (qEnd + keptLength o + (wire (fold kn)).length) out.len := by
    refine ⟨⟨nameText (fold kn), ?_⟩, ?_, Nat.le_refl _⟩
    · exact expandWireNameToBuffer_reads (S := fun i => i < out.len) (fun _ hi => hi)
        (reads_wire 0 hkn.labels hheld.owner fun i _ hi => by omega) hkn (Nat.le_refl _)
    · rw [hheld.rdlen]
      omega
  have cut : Cut m len qEnd o out.buf := by
    refine ⟨fun i hi => ?_, fun i hlo hhi => ?_, c.found, fun off n ho i hi => ?_⟩
    · rw [hbody i (by omega) (by omega), c.front i hi]
    · rw [hbody i (by omega) (by omega), c.empty i hlo hhi]
    · rw [hbody _ (by rw [ho]; exact Nat.add_lt_add_left hi _) (by omega), c.kept off n ho i hi]
  refine ⟨cut.down hm 1 ?_ (by omega) ?_ ?_, hbody 2 (by omega) (by omega)⟩
  · rw [hs.buf, signedBuf_arcount (by omega), har, Nat.add_comm]
  · rw [hrec.walk]
    rfl
  · rw [hrec.find, if_neg (by rw [hheld.type]; decide)]
    rfl

/-- The header of the second attempt. -/
lemma cut_secondHeader (hb : SameFront m b qEnd) : Cut m len qEnd none (secondHeader b) ∧
    getU16 (secondHeader b) 10 = 0 ∧ Truncated (secondHeader b) := by
  have hfront : ∀ i, i < 2 ∨ 4 ≤ i ∧ i < 6 ∨ 12 ≤ i → secondHeader b i = b i := by
    rintro i (hi | hi | hi)
    · rw [secondHeader, blit_lt (by omega), blit_lt hi]
    · rw [secondHeader, blit_lt hi.2, blit_ge hi.1]
    · rw [secondHeader, blit_ge hi, blit_ge (by simp; omega)]
  have hzero : ∀ i, 6 ≤ i → i < 12 → secondHeader b i = 0 := fun i => blit_cleared _
  have htc : ∀ x : UInt8, (x ||| 2) &&& 2 = 2 := by decide +kernel
  refine ⟨⟨fun i hi => ?_, fun i hlo hhi => hzero i hlo (by omega), .inl rfl,
    fun _ _ h => by cases h⟩, ?_, htc (b 2)⟩
  · rw [hfront i (by omega), hb i hi]
  · simp [getU16, hzero]

end Form

/-! ### Signing -/

/-- The key can sign `len` octets within `maxLen`: there is room for the record, and its algorithm
is known if there is something to be computed with it. -/
def TsigRequest.canSign (t : TsigRequest) (key : TsigKey) (len maxLen : Nat) : Prop :=
  (readName key.name).isSome = true ∧ (readName key.alg).isSome = true ∧
    len + tsigRrWireSize key.name key.alg t.tells ≤ maxLen ∧
    ((t.tells = 16 ∨ t.tells = 17) ∨ key.secretDecoded = [] ∨
      (tsigAlgorithmFromName key.alg).isSome = true)

lemma TsigRequest.canSign.mono {t : TsigRequest} {key : TsigKey} {len len' maxLen : Nat}
    (h : t.canSign key len maxLen) (hle : len' ≤ len) : t.canSign key len' maxLen :=
  ⟨h.1, h.2.1, by have := h.2.2.1; omega, h.2.2.2⟩

lemma tsigMac_isSome {H : KeyedHash} {key : TsigKey} {error : UInt16} {digest : List UInt8} :
    (tsigMac H key error digest).isSome = true ↔
      (error = 16 ∨ error = 17) ∨ key.secretDecoded = [] ∨
        (tsigAlgorithmFromName key.alg).isSome = true := by
  rw [tsigMac]
  split
  · exact ⟨fun _ => .inl ‹_›, fun _ => rfl⟩
  split
  · exact ⟨fun _ => .inr (.inl ‹_›), fun _ => rfl⟩
  · rw [isSome_map]
    exact ⟨fun h => .inr (.inr h), fun h => (h.resolve_left ‹_›).resolve_left ‹_›⟩

lemma TsigRequest.attempt_isSome (H : KeyedHash) (t : TsigRequest) (key : TsigKey)
    (clocks : Nat × Nat) (b : Buf) {len : Nat} (maxLen : Nat) (h12 : 12 ≤ len) :
    (t.attempt H key clocks b len maxLen).isSome = true ↔ t.canSign key len maxLen := by
  constructor
  · intro h
    obtain ⟨out, hout⟩ := isSome_iff_exists.mp h
    obtain ⟨kn, an, hs⟩ := tsigSignPacketEx_ok hout
    refine ⟨by rw [hs.keyName]; rfl, by rw [hs.algName]; rfl, ?_,
      tsigMac_isSome.mp (by rw [hs.mac]; rfl)⟩
    by_contra hroom
    rw [TsigRequest.attempt, tsigSignPacketEx, if_neg (by omega), wireNameLength_of_read hs.keyName,
      wireNameLength_of_read hs.algName] at hout
    dsimp only at hout
    rw [if_pos (.inr (by omega))] at hout
    cases hout
  rintro ⟨hk, ha, hroom, hmac⟩
  obtain ⟨kn, hkn⟩ := isSome_iff_exists.mp hk
  obtain ⟨an, han⟩ := isSome_iff_exists.mp ha
  have hkl := wireNameLength_of_read hkn
  have hal := wireNameLength_of_read han
  have hsize : (wire kn).length + 10 + (wire an).length + 80 ≤
      tsigRrWireSize key.name key.alg t.tells := by
    rw [tsigRrWireSize, hkl, hal]
    dsimp only
    omega
  obtain ⟨mac, hmac⟩ := isSome_iff_exists.mp ((@tsigMac_isSome H key t.tells _).mpr hmac)
  rw [TsigRequest.attempt, tsigSignPacketEx, if_neg (by omega), hkl, hal]
  dsimp only
  rw [if_neg (by omega), tsigSignDigest_ok hkn han]
  dsimp only
  rw [hmac, writeUncompressedName_ok hkn (by omega)]
  dsimp only
  rw [length_wire_fold, writeUncompressedName_ok han (by omega)]
  rfl

section Responses

variable {H : KeyedHash} {t : TsigRequest} {key : TsigKey} {clocks clocks' : Nat × Nat} {m b : Buf}
  {len blen qEnd maxLen n : Nat} {qs : List Question} {b' : Buf}

/-- What signing comes to: a message cut down, or a buffer whose header tells of the questions
only. -/
def SignedOrBare (t : TsigRequest) (key : TsigKey) (m : Buf) (len : Nat) (qs : List Question)
    (qEnd : Nat) (b : Buf) (maxLen : Nat) (r : Buf × Option Nat) : Prop :=
  (t.canSign key qEnd maxLen ∧ ∃ b' n, r = (b', some n) ∧ CutDown m len qs qEnd b' n ∧
    Truncated b' ∧ 12 ≤ n) ∨
    (¬ t.canSign key qEnd maxLen ∧ r = (secondHeader b, none))

/-- The second attempt on a buffer that begins as the message does. -/
lemma tsigSecondAttempt_cut (hm : ResponseForm m len qs qEnd) (hb : SameFront m b qEnd)
    (hle : qEnd ≤ blen) :
    SignedOrBare t key m len qs qEnd b maxLen (tsigSecondAttempt H t key clocks b blen maxLen) := by
  have h12 := hm.bounds.1
  rw [tsigSecondAttempt, skipWireQuestions_of_walk _ (hm.reread hb hle)]
  dsimp only
  cases hout : t.attempt H key clocks (secondHeader b) qEnd maxLen with
  | none =>
    refine .inr ⟨fun hsign => ?_, rfl⟩
    have hsome := (t.attempt_isSome H key clocks (secondHeader b) maxLen h12).mpr hsign
    rw [hout] at hsome
    cases hsome
  | some out =>
    obtain ⟨cut, har, htc⟩ := @cut_secondHeader m b len qEnd hb
    obtain ⟨kn, an, hs⟩ := tsigSignPacketEx_ok hout
    obtain ⟨hdown, h2⟩ := cut.signed hm har hs
    have hsign :=
      (t.attempt_isSome H key clocks _ maxLen h12).mp (isSome_iff_exists.mpr ⟨out, hout⟩)
    have hlen := hs.length
    refine .inl ⟨hsign, out.buf, out.len, rfl, hdown, ?_, by omega⟩
    rw [Truncated, h2]
    exact htc

/-- `tsig_finish_response` on what is left, when it is to be signed. -/
lemma tsigFinishResponse_cut {o : Option (Nat × Nat)} (hm : ResponseForm m len qs qEnd)
    (c : Cut m len qEnd o b) (har : getU16 b 10 = keptCount o) (htc : Truncated b)
    (hsigns : t.signs = true) (hkey : t.signer = some key) :
    SignedOrBare t key m len qs qEnd b maxLen
      (tsigFinishResponse H t clocks clocks' b (qEnd + keptLength o) maxLen) := by
  have h12 := hm.bounds.1
  have hsigned : ¬ (!t.signs || decide (qEnd + keptLength o < 12)) = true := by
    rw [hsigns]
    simp
    omega
  rw [tsigFinishResponse, if_neg hsigned, hkey]
  dsimp only
  cases hout : t.attempt H key clocks b (qEnd + keptLength o) maxLen with
  | none => exact tsigSecondAttempt_cut hm c.front (by omega)
  | some out =>
    have hsign :=
      (t.attempt_isSome H key clocks b maxLen (by omega)).mp (isSome_iff_exists.mpr ⟨out, hout⟩)
    obtain ⟨kn, an, hs⟩ := tsigSignPacketEx_ok hout
    obtain ⟨hdown, h2⟩ := c.signed hm har hs
    have hlen := hs.length
    refine .inl ⟨hsign.mono (by omega), out.buf, out.len, rfl, hdown, ?_, by omega⟩
    rw [Truncated, h2]
    exact htc

/-- The message is a response that `tsig_finish_response` has let through within `limit`, signed if
it is to be. -/
def Finished (H : KeyedHash) (t : TsigRequest) (m : Buf) (len limit : Nat) : Prop :=
  ∃ clocks clocks' m₀ len₀ qs₀ qEnd₀, ResponseForm m₀ len₀ qs₀ qEnd₀ ∧
    tsigFinishResponse H t clocks clocks' m₀ len₀ limit = (m, some len)

/-- The questions of a message signed within the limit can be signed within it again. -/
lemma Finished.canSign (h : Finished H t m len maxLen) (hm : ResponseForm m len qs qEnd)
    (hsigns : t.signs = true) (hkey : t.signer = some key) : t.canSign key qEnd maxLen := by
  obtain ⟨clocks, clocks', m₀, len₀, qs₀, qEnd₀, hm₀, hfinish⟩ := h
  obtain ⟨h12, hle⟩ := hm₀.bounds
  -- either attempt signs octets that begin with the questions
  have hsigned : ∀ {clocks : Nat × Nat} {b : Buf} {blen : Nat} {out : SignedPacket}, SameFront m₀ b
    qEnd₀ → qEnd₀ ≤ blen →
      t.attempt H key clocks b blen maxLen = some out → (out.buf, some out.len) = (m, some len) →
      t.canSign key qEnd maxLen := by
    intro clocks b blen out hb hlong hout heq
    obtain ⟨rfl, hlen⟩ := Prod.mk.inj heq
    obtain rfl := some.inj hlen
    obtain ⟨kn, an, hs⟩ := tsigSignPacketEx_ok hout
    have hfront : SameFront m₀ out.buf qEnd₀ := fun i hi => by
      rw [hs.buf, signedBuf_body (by omega) (by omega), hb i hi]
    have hlen := hs.length
    have hq := hm₀.reread hfront (show qEnd₀ ≤ out.len by omega)
    rw [hm.questions] at hq
    obtain rfl : qEnd = qEnd₀ := (Prod.mk.inj (some.inj hq)).2
    have hsome :=
      (t.attempt_isSome H key clocks b maxLen (by omega)).mp (isSome_iff_exists.mpr ⟨out, hout⟩)
    exact hsome.mono hlong
  rw [tsigFinishResponse, hsigns, hkey, if_neg (by simp; omega)] at hfinish
  dsimp only at hfinish
  split at hfinish
  · exact hsigned (fun _ _ => rfl) hle ‹_› hfinish
  rw [tsigSecondAttempt, skipWireQuestions_of_walk _ hm₀.questions] at hfinish
  dsimp only at hfinish
  split at hfinish
  · exact hsigned (@cut_secondHeader m₀ m₀ len₀ qEnd₀ fun _ _ => rfl).1.front
      (Nat.le_refl _) ‹_› hfinish
  · cases hfinish

/-- The slip response of a response that could be signed is cut down, with TC. -/
lemma dnsRrlSlipResponse_cut {bufCap : Nat} (hm : ResponseForm m len qs qEnd)
    (hfinished : Finished H t m len (slipLimit t bufCap)) :
    let slip := dnsRrlSlipResponse H t clocks clocks' m len bufCap
    CutDown m len qs qEnd slip.1 slip.2 ∧ Truncated slip.1 := by
  obtain ⟨h12, hle⟩ := hm.bounds
  have hrest : ∀ i, i < 2 ∨ 3 ≤ i → blit m 2 [m 2 ||| 2] i = m i := by
    rintro i (hi | hi)
    · exact blit_lt hi
    · exact blit_ge hi
  have hflag : ∀ x : UInt8, (x ||| 2) &&& 2 = 2 := by decide +kernel
  have hq := hm.reread (b := blit m 2 [m 2 ||| 2]) (fun i _ => hrest i (by omega)) hle
  obtain ⟨cut, har, hlen, h2⟩ := @dnsTruncateKeepOpt_cut m (blit m 2 [m 2 ||| 2]) _ _ _ hm
    (fun i _ _ => (hrest i (by omega)).symm) (fun i _ _ => (hrest i (by omega)).symm)
  have htc : Truncated (dnsTruncateKeepOpt (blit m 2 [m 2 ||| 2]) len qEnd).1 := by
    rw [Truncated, h2]
    exact hflag (m 2)
  have hleft := cut.down hm 0 (by rw [har, Nat.zero_add]) (Nat.le_refl _) rfl rfl
  rw [dnsRrlSlipResponse, if_neg (by omega)]
  dsimp only
  rw [getQuestionEndOffset_walk _ hq hle, hlen]
  cases hsigns : t.signs with
  | false =>
    rw [Bool.not_false, if_pos rfl, hlen]
    exact ⟨hleft, htc⟩
  | true =>
    rw [Bool.not_true, if_neg (by decide)]
    cases hkey : t.signer with
    | none =>
      rw [tsigFinishResponse, hsigns, hkey, if_neg (by simp; omega)]
      exact ⟨hleft, htc⟩
    | some key =>
      have hfinish := @tsigFinishResponse_cut H t key clocks clocks' m _ len qEnd
        (slipLimit t bufCap) qs _ hm cut har htc
        hsigns hkey
      rcases hfinish with ⟨-, b', n, hr, hdown, htc', hn⟩ | ⟨hsign, -⟩
      · rw [hr]
        dsimp only
        rw [if_pos hn]
        exact ⟨hdown, htc'⟩
      · exact absurd (hfinished.canSign hm hsigns hkey) hsign

end Responses

/-- A response that is cut down stays a well-formed message with its ID, its questions and its OPT
record: by `dns_truncate_keep_opt`, by the second attempt of `tsig_finish_response`, and by
`dns_rrl_slip_response`, which is given what `tsig_finish_response` has let through within the same
limit. -/
theorem cutDown_responses (H : KeyedHash) (t : TsigRequest) (clocks clocks' : Nat × Nat) {m : Buf}
    {len qEnd : Nat} {qs : List Question} (bufCap : Nat) (hm : ResponseForm m len qs qEnd) :
    (CutDown m len qs qEnd (dnsTruncateKeepOpt m len qEnd).1 (dnsTruncateKeepOpt m len qEnd).2 ∧
      ∀ off n, dnsFindOptRr m len = some (off, n) → (dnsTruncateKeepOpt m len qEnd).2 = qEnd + n ∧
        slice (dnsTruncateKeepOpt m len qEnd).1 qEnd n = slice m off n) ∧
    (∀ key maxLen m' len', tsigSecondAttempt H t key clocks m len maxLen = (m', some len') →
      CutDown m len qs qEnd m' len' ∧ Truncated m') ∧
    (Finished H t m len (slipLimit t bufCap) →
      let slip := dnsRrlSlipResponse H t clocks clocks' m len bufCap
      CutDown m len qs qEnd slip.1 slip.2 ∧ Truncated slip.1) := by
  obtain ⟨h12, hle⟩ := hm.bounds
  refine ⟨?_, ?_, dnsRrlSlipResponse_cut hm⟩
  · obtain ⟨cut, har, hlen, -⟩ := dnsTruncateKeepOpt_cut hm (fun _ _ _ => rfl) (fun _ _ _ => rfl)
    rw [hlen]
    refine ⟨cut.down hm 0 (by rw [har, Nat.zero_add]) (Nat.le_refl _) rfl rfl,
      fun off n ho => ⟨?_, cut.octets ho⟩⟩
    rw [ho]
    rfl
  · intro key maxLen m' len' heq
    have hsecond :=
      @tsigSecondAttempt_cut H t key clocks m m len len qEnd maxLen qs hm (fun _ _ => rfl) hle
    rw [heq] at hsecond
    rcases hsecond with ⟨-, b', n, hr, hdown, htc, -⟩ | ⟨-, hr⟩
    · cases hr
      exact ⟨hdown, htc⟩
    · cases hr

/-- A response for `a.` of type A: the question, an answer that points to it, and an OPT record. -/
def slippedOctets : List UInt8 :=
  [7, 7, 0x84, 0] ++ be16 1 ++ be16 1 ++ be16 0 ++ be16 1 ++ [1, 97, 0] ++ be16 1 ++ be16 1 ++
    ([0xC0, 12] ++ be16 1 ++ be16 1 ++ be32 60 ++ be16 4 ++ [192, 0, 2, 1]) ++
    ([0] ++ be16 41 ++ be16 1232 ++ be32 0 ++ be16 0)

lemma slippedOctets_form : ResponseForm (bufOf slippedOctets) 46 [⟨ascii "a.", 1, 1⟩] 19 :=
  ⟨by decide +kernel, by decide +kernel, by decide +kernel, by decide +kernel⟩

/-- A request that was signed with the key `Key.`, and answered within 512 octets. -/
def signedRequest : TsigRequest :=
  ⟨.valid, 0, some plainKey, plainKey.name, ascii "hmac-sha256", [], 0, 300, 512⟩

/-- The response as it is signed. -/
def finishedResponse : Buf × Option Nat :=
  tsigFinishResponse zeroHash signedRequest (0, 0) (0, 0) (bufOf slippedOctets) 46 512

theorem slip_signed_wellFormed : finishedResponse.2 = some 122 ∧
    let slip := dnsRrlSlipResponse zeroHash signedRequest (0, 0) (0, 0) finishedResponse.1 122 65535
    CutDown finishedResponse.1 122 [⟨ascii "a.", 1, 1⟩] 19 slip.1 slip.2 ∧ Truncated slip.1 := by
  have hlen : finishedResponse.2 = some 122 := by decide +kernel
  have hform : ResponseForm finishedResponse.1 122 [⟨ascii "a.", 1, 1⟩] 19 :=
    ⟨by decide +kernel, by decide +kernel, by decide +kernel, by decide +kernel⟩
  have hpair : finishedResponse = (finishedResponse.1, some 122) := by rw [← hlen]
  have hfinished : Finished zeroHash signedRequest finishedResponse.1 122 512 :=
    ⟨(0, 0), (0, 0), bufOf slippedOctets, 46, _, 19, slippedOctets_form, hpair⟩
  have hlimit : slipLimit signedRequest 65535 = 512 := by decide
  refine ⟨hlen, (cutDown_responses zeroHash signedRequest (0, 0) (0, 0) 65535 hform).2.2 ?_⟩
  rw [hlimit]
  exact hfinished

end KariDns
