import KariDns.Edns.Opt
import KariDns.Libc

/-! Error responses (`dns_build_error_response` in `dns_wire.c`).

An error response is the header, the first questions of the request as they stand there, and an
OPT record. How many questions go back is what `dns_error_qd_echo` says; it reads them in the whole
request.
-/

namespace KariDns

open Octets DomainName List

/-! ### The questions of a request -/

/-- `wire_question_name_compressed`: the first name has a pointer, as far as it can be followed. -/
def questionNameCompressed (m : Buf) (len : Nat) : Nat → Nat → Bool
  | 0, _ => false
  | fuel + 1, p =>
    if p ≥ len then false
    else if m p = 0 then false
    else if m p &&& 0xC0 = 0xC0 then true
    else if m p > 63 then false
    else questionNameCompressed m len fuel (p + 1 + (m p).toNat)

/-- `(req[2] >> 3) & 0x0F`. -/
def opcodeOf (m : Buf) : Nat := (m 2).toNat / 8 % 16

/-- What a question must be: NOTIFY and UPDATE ask for no class NONE or ANY, and all questions are
for one name and class, no type twice. `first` is the name and class of the first question, `seen`
are the types so far. -/
def questionOk (m : Buf) (first : Option (Text × Nat)) (seen : List Nat) (name : Text)
    (type cls : Nat) : Bool :=
  let ok := !((opcodeOf m = 4 ∨ opcodeOf m = 5) ∧ (cls = 254 ∨ cls = 255))
  match first with
  | none => ok
  | some (name₀, cls₀) => ok && strcaseeq name₀ name && cls = cls₀ && type ∉ seen

/-- The loop of `question_section_walk`, `k` of `qd` questions to come: whether the rest is good and
how many of them were read. -/
def questionLoop (m : Buf) (len : Nat) : Nat → Nat → Option (Text × Nat) → List Nat → Bool × Nat
  | 0, _, _, _ => (true, 0)
  | k + 1, p, first, seen =>
    match expandWireNameToBuffer m len p dnsNameTextSize with
    | none => (false, 0)
    | some (name, e) =>
      if e + 4 > len then (false, 0)
      else if !questionOk m first seen name (getU16 m e) (getU16 m (e + 2)) then (false, 0)
      else
        let (good, n) := questionLoop m len k (e + 4) (first <|> some (name, getU16 m (e + 2)))
          (getU16 m e :: seen)
        (good, n + 1)

/-- `question_section_walk`: whether the question section is good, and how many questions were
read. -/
def questionSectionWalk (m : Buf) (len : Nat) : Bool × Nat :=
  let qd := getU16 m 4
  if qd = 0 then (true, 0)
  else if questionNameCompressed m len len 12 then (false, 0)
  else questionLoop m len qd 12 none []

/-- `dns_question_section_ok`. -/
def dnsQuestionSectionOk (m : Buf) (len : Nat) : Bool := 12 ≤ len && (questionSectionWalk m len).1

/-- `dns_error_qd_echo`: how many questions an error response gives back. -/
def dnsErrorQdEcho (m : Buf) (len : Nat) : Nat :=
  if len < 12 then 0
  else if opcodeOf m ≠ 0 ∧ opcodeOf m ≠ 4 ∧ opcodeOf m ≠ 5 then 0
  else
    let (ok, n) := questionSectionWalk m len
    if ok ∨ opcodeOf m = 5 then n else 0

/-! ### The response -/

/-- `dns_init_response_header`: ID and flags. -/
def dnsInitResponseHeader (req : Buf) (rcode : Nat) (aa : Bool) : List UInt8 :=
  let query := opcodeOf req = 0
  [req 0, req 1, 0x80 ||| (req 2 &&& 0x78) ||| (if query then req 2 &&& 0x01 else 0) |||
    (if aa then 0x04 else 0),
    (if query then req 3 &&& 0x10 else 0) ||| (UInt8.ofNat rcode &&& 0x0F)]

/-- The questions kept and the end of their section: none if they cannot be passed over or do not
fit. -/
def keptQuestions (req : Buf) (reqLen maxResLen qdKeep : Nat) : Nat × Nat :=
  match skipWireQuestions req reqLen qdKeep 12 with
  | none => (0, 12)
  | some qEnd => if qEnd > maxResLen ∨ qEnd > 65535 then (0, 12) else (qdKeep, qEnd)

/-- `dns_build_error_response`: the octets of the response and the length it returns, which has 16
bits. -/
def dnsBuildErrorResponse (req : Buf) (reqLen maxResLen rcode extRcode qdKeep : Nat)
    (edns : Option EdnsInfo) (isTcp : Bool) (cfg : Option EdnsConfig) : List UInt8 × Nat :=
  if reqLen < 12 ∨ maxResLen < 12 then ([], 0)
  else
    let edns := if rcode = 1 ∧ extRcode = 0 ∧ ¬ dnsQuestionSectionOk req reqLen then none else edns
    let (qdKeep, qEnd) := keptQuestions req reqLen maxResLen qdKeep
    let opt :=
      match edns with
      | some edns =>
        if edns.present then
          assembleEdnsOpt qEnd maxResLen { edns with mqtypes := none, sendExpire := none }
            extRcode isTcp cfg
        else []
      | none => []
    let res := dnsInitResponseHeader req rcode false ++ be16 qdKeep ++ [0, 0, 0, 0] ++
      be16 (if opt = [] then 0 else 1) ++
      slice req 12 (qEnd - 12) ++ opt
    (res, res.length % 65536)

/-! ### Questions that stay within their section -/

/-- The names of `k` questions from `p` on, with the pointers they go through, lie between `lo` and
`hi`. -/
def questionsInside (m : Buf) (len lo hi : Nat) : Nat → Nat → Bool
  | 0, _ => true
  | k + 1, p =>
    match skipWireName m len p with
    | none => false
    | some e => nameInside m lo hi expandFuel p && questionsInside m len lo hi k (e + 4)

lemma walkQuestions_le {m : Buf} {len : Nat} (k : Nat) {p e : Nat} {qs : List Question}
    (h : walkQuestions m len k p = some (qs, e)) : p ≤ e ∧ qs.length = k := by
  induction k generalizing p qs with
  | zero =>
    cases h
    exact ⟨Nat.le_refl _, rfl⟩
  | succ k ih =>
    obtain ⟨t, e', qs', hx, -, hrest, rfl⟩ := walkQuestions_step h
    obtain ⟨n, -, hs, -⟩ := expandWireNameToBuffer_sound hx
    have hlt := hs.lt
    obtain ⟨hle, hlen⟩ := ih hrest
    exact ⟨by omega, by rw [length_cons, hlen]⟩

/-- Questions that stay within the octets two messages share read the same in both. -/
lemma walkQuestions_inside {m m' : Buf} {len len' lo hi : Nat} (hag : AgreeOn lo hi m m')
    (hlen' : hi ≤ len') (k : Nat) {p e : Nat} {qs : List Question} (hp : lo ≤ p) (he : e ≤ hi)
    (hin : questionsInside m len lo hi k p = true) (h : walkQuestions m len k p = some (qs, e)) :
    walkQuestions m' len' k p = some (qs, e) := by
  induction k generalizing p qs with
  | zero => exact h
  | succ k ih =>
    obtain ⟨t, e', qs', hx, -, hrest, rfl⟩ := walkQuestions_step h
    rw [questionsInside, skipWireName_of_expand hx] at hin
    simp only [Bool.and_eq_true] at hin
    obtain ⟨n, -, hs, -⟩ := expandWireNameToBuffer_sound hx
    have hlt := hs.lt
    have hle := (walkQuestions_le k hrest).1
    rw [walkQuestions, expandWireNameToBuffer_inside hag hlen' hin.1 hx]
    simp only
    rw [if_neg (by omega), ih (by omega) hin.2 hrest, getU16_agree hag (by omega) (by omega),
      getU16_agree hag (by omega) (by omega)]
    rfl

/-- The questions that were read before the section ended or went bad can be walked through. -/
lemma questionLoop_walk {m : Buf} {len : Nat} (k : Nat) {p n : Nat} {first : Option (Text × Nat)}
    {seen : List Nat} {good : Bool} (h : questionLoop m len k p first seen = (good, n)) :
    n ≤ k ∧ ∃ qs e, walkQuestions m len n p = some (qs, e) := by
  induction k generalizing p n first seen with
  | zero =>
    cases h
    exact ⟨Nat.le_refl _, [], p, rfl⟩
  | succ k ih =>
    rw [questionLoop] at h
    cases hx : expandWireNameToBuffer m len p dnsNameTextSize with
    | none =>
      rw [hx] at h
      cases h
      exact ⟨Nat.zero_le _, [], p, rfl⟩
    | some r =>
      obtain ⟨t, e⟩ := r
      rw [hx] at h
      simp only at h
      split at h
      · cases h
        exact ⟨Nat.zero_le _, [], p, rfl⟩
      rename_i hroom
      split at h
      · cases h
        exact ⟨Nat.zero_le _, [], p, rfl⟩
      cases hrest : questionLoop m len k (e + 4) (first <|> some (t, getU16 m (e + 2)))
        (getU16 m e :: seen) with
      | mk good' n' =>
        rw [hrest] at h
        cases h
        obtain ⟨hle, qs, e', hwalk⟩ := ih hrest
        refine ⟨by omega, ⟨t, getU16 m e, getU16 m (e + 2)⟩ :: qs, e', ?_⟩
        rw [walkQuestions, hx]
        simp only
        rw [if_neg hroom, hwalk]
        rfl

/-- The questions `dns_error_qd_echo` counts can be walked through in the request. -/
lemma dnsErrorQdEcho_walk (m : Buf) (len : Nat) :
    dnsErrorQdEcho m len < 65536 ∧
      ∃ qs e, walkQuestions m len (dnsErrorQdEcho m len) 12 = some (qs, e) := by
  have hnone : (0 : Nat) < 65536 ∧ ∃ qs e, walkQuestions m len 0 12 = some (qs, e) :=
    ⟨by decide, [], 12, rfl⟩
  have hqd := getU16_lt m 4
  unfold dnsErrorQdEcho
  split
  · exact hnone
  split
  · exact hnone
  cases hw : questionSectionWalk m len with
  | mk ok n =>
    simp only
    split
    · unfold questionSectionWalk at hw
      simp only at hw
      split at hw
      · cases hw
        exact hnone
      split at hw
      · cases hw
        exact hnone
      · obtain ⟨hle, hwalk⟩ := questionLoop_walk _ hw
        exact ⟨by omega, hwalk⟩
    · exact hnone

/-! ### The whole response -/

/-- A header with these counts, the questions of a request up to `qEnd`, and a record or none behind
them make a whole message, if the questions stay within their section. -/
lemma wholeMessage_echo {req : Buf} {reqLen q qEnd : Nat} {head opt : List UInt8}
    {qs : List Question} (hhead : head.length = 4) (hq : q < 65536) (h12 : 12 ≤ qEnd)
    (hwalk : walkQuestions req reqLen q 12 = some (qs, qEnd))
    (hin : questionsInside req reqLen 12 qEnd q 12 = true)
    (hopt : opt = [] ∨ ∀ m, Holds m qEnd opt →
      walkRecords m (qEnd + opt.length) 1 qEnd = some (qEnd + opt.length)) :
    let res := head ++ be16 q ++ [0, 0, 0, 0] ++ be16 (if opt = [] then 0 else 1) ++
      slice req 12 (qEnd - 12) ++ opt
    res.length = qEnd + opt.length ∧ wholeMessage (bufOf res) res.length = some qs := by
  intro res
  have hlen : res.length = qEnd + opt.length := by
    simp only [res, length_append, be16_length, slice_length, length_cons, length_nil, hhead]
    omega
  have hqd : getU16 (bufOf res) 4 = q := by
    have := holds_bufOf_mid head (be16 q) ([0, 0, 0, 0] ++ be16 (if opt = [] then 0 else 1) ++
      slice req 12 (qEnd - 12) ++ opt)
    rw [hhead] at this
    refine getU16_of_holds ?_ hq
    simpa [res, append_assoc] using this
  have hzero : Holds (bufOf res) 6 [0, 0, 0, 0] := by
    have := holds_bufOf_mid (head ++ be16 q) [0, 0, 0, 0] (be16 (if opt = [] then 0 else 1) ++
      slice req 12 (qEnd - 12) ++ opt)
    rw [length_append, hhead, be16_length] at this
    simpa only [res, append_assoc] using this
  simp only [holds_cons, holds_nil, and_true] at hzero
  have har : getU16 (bufOf res) 10 = if opt = [] then 0 else 1 := by
    have := holds_bufOf_mid (head ++ be16 q ++ [0, 0, 0, 0]) (be16 (if opt = [] then 0 else 1))
      (slice req 12 (qEnd - 12) ++ opt)
    simp only [length_append, hhead, be16_length, length_cons, length_nil] at this
    refine getU16_of_holds ?_ (by split <;> decide)
    simpa only [res, append_assoc] using this
  have hcopy : AgreeOn 12 qEnd req (bufOf res) := by
    have := holds_bufOf_mid (head ++ be16 q ++ [0, 0, 0, 0] ++ be16 (if opt = [] then 0 else 1))
      (slice req 12 (qEnd - 12)) opt
    simp only [length_append, hhead, be16_length, length_cons, length_nil] at this
    rw [Holds, slice_length] at this
    intro i hlo hhi
    have hi : i - 12 < qEnd - 12 := by omega
    have hget := @slice_getElem? req 12 _ _ hi
    rw [← this, slice_getElem? hi,
      show 4 + 2 + (0 + 1 + 1 + 1 + 1) + 2 + (i - 12) = i by omega] at hget
    exact (Option.some.inj hget).symm
  have hbehind : Holds (bufOf res) qEnd opt := by
    have := (holds_append.mp (holds_bufOf res)).2
    rw [Nat.zero_add] at this
    rw [length_append] at hlen
    rwa [show qEnd = _ from (Nat.add_right_cancel hlen).symm]
  have hquestions := walkQuestions_inside hcopy (show qEnd ≤ res.length by omega) q (Nat.le_refl 12)
    (Nat.le_refl _) hin hwalk
  refine ⟨hlen, ?_⟩
  unfold wholeMessage
  rw [if_neg (by omega), hqd, hquestions]
  have han : getU16 (bufOf res) 6 = 0 := by simp [getU16, hzero]
  have hns : getU16 (bufOf res) 8 = 0 := by simp [getU16, hzero]
  simp only [han, hns, har]
  rcases hopt with rfl | hopt
  · simp only [if_true, walkRecords]
    rw [if_pos (by rw [hlen]; rfl)]
  by_cases hnil : opt = []
  · simp only [hnil, if_true, walkRecords]
    rw [if_pos (by rw [hlen, hnil]; rfl)]
  · rw [if_neg hnil, hlen, hopt _ hbehind, if_pos rfl]

/-- The questions of the request that an error response within this limit gives back, with the
pointers they go through, lie within the octets of the question section. -/
def EchoStays (req : Buf) (reqLen maxResLen : Nat) : Prop :=
  ∀ qEnd, skipWireQuestions req reqLen (dnsErrorQdEcho req reqLen) 12 = some qEnd →
    qEnd ≤ maxResLen →
    questionsInside req reqLen 12 qEnd (dnsErrorQdEcho req reqLen) 12 = true

/-- An error response is a whole message within its limit whose questions are the first ones of the
request: as long as the names it gives back stay within the question section. -/
theorem dnsBuildErrorResponse_whole (req : Buf) {reqLen maxResLen : Nat} (rcode extRcode : Nat)
    (edns : Option EdnsInfo) (isTcp : Bool) (cfg : Option EdnsConfig) (hreq : 12 ≤ reqLen)
    (hmax : 12 ≤ maxResLen) (h16 : maxResLen ≤ 65535) (hstays : EchoStays req reqLen maxResLen) :
    let res := dnsBuildErrorResponse req reqLen maxResLen rcode extRcode
      (dnsErrorQdEcho req reqLen) edns isTcp cfg
    res.2 = res.1.length ∧ res.1.length ≤ maxResLen ∧
      ∃ qs all e, wholeMessage (bufOf res.1) res.1.length = some qs ∧
        walkQuestions req reqLen (dnsErrorQdEcho req reqLen) 12 = some (all, e) ∧ qs <+: all := by
  obtain ⟨hqd, all, e, hwalk⟩ := dnsErrorQdEcho_walk req reqLen
  have hskip := skipWireQuestions_of_walk _ hwalk
  -- the questions that are kept
  obtain ⟨q, qEnd, qs, hkept, hq, h12, hle, hqwalk, hin, hprefix⟩ : ∃ q qEnd qs,
      keptQuestions req reqLen maxResLen (dnsErrorQdEcho req reqLen) = (q, qEnd) ∧
        q < 65536 ∧ 12 ≤ qEnd ∧
        qEnd ≤ maxResLen ∧ walkQuestions req reqLen q 12 = some (qs, qEnd) ∧
        questionsInside req reqLen 12 qEnd q 12 = true ∧ qs <+: all := by
    unfold keptQuestions
    rw [hskip]
    simp only
    split
    · exact ⟨0, 12, [], rfl, by decide, Nat.le_refl _, hmax, rfl, rfl, nil_prefix⟩
    · exact ⟨_, e, all, rfl, hqd, (walkQuestions_le _ hwalk).1, by omega, hwalk,
        hstays e hskip (by omega),
        prefix_refl _⟩
  unfold dnsBuildErrorResponse
  rw [if_neg (by omega), hkept]
  simp only
  -- the record behind them
  generalize hopt :
    (match (if rcode = 1 ∧ extRcode = 0 ∧ ¬ dnsQuestionSectionOk req reqLen = true then
      none else edns) with
    | some edns => if edns.present = true then
        assembleEdnsOpt qEnd maxResLen { edns with mqtypes := none, sendExpire := none } extRcode
          isTcp cfg else []
    | none => []) = opt
  have hrecord : opt = [] ∨ qEnd + opt.length ≤ maxResLen ∧
      ∀ m, Holds m qEnd opt →
        walkRecords m (qEnd + opt.length) 1 qEnd = some (qEnd + opt.length) := by
    rw [← hopt]
    split
    · rename_i e' he
      split
      · rcases @assembleEdnsOpt_cases qEnd maxResLen { e' with mqtypes := none, sendExpire := none }
          extRcode isTcp cfg with
          hnil | ⟨options, hlen, hroom, heq⟩
        · exact .inl hnil
        rw [heq, optRecord_length]
        refine .inr ⟨by omega, fun m hm => ?_⟩
        rw [← Nat.add_assoc]
        exact walkRecords_opt hlen hm
      · exact .inl rfl
    · exact .inl rfl
  obtain ⟨hlen, hwhole⟩ :=
    @wholeMessage_echo req reqLen q qEnd (dnsInitResponseHeader req rcode false) opt qs rfl hq h12
    hqwalk hin (hrecord.imp_right And.right)
  have hroom : qEnd + opt.length ≤ maxResLen := by
    rcases hrecord with rfl | ⟨h, -⟩
    · exact hle
    · exact h
  refine ⟨Nat.mod_eq_of_lt (by omega), by omega, qs, all, e, hwhole, hwalk, hprefix⟩

/-- A query for the A and the NS records of `a.`, with an A record of `a.` in the additional
section; the name of the second question is a pointer to `target`. -/
def twoQuestions (target : UInt8) : List UInt8 :=
  [0x12, 0x34, 0, 0, 0, 2, 0, 0, 0, 0, 0, 1, 1, 97, 0, 0, 1, 0, 1, 0xC0, target, 0, 2, 0, 1,
    1, 97, 0, 0, 1, 0, 1, 0, 0, 0, 0, 0, 4, 192, 0, 2, 1]

/-- Both questions come back if the second points to the first. -/
theorem dnsBuildErrorResponse_twoQuestions :
    wholeMessage (bufOf (dnsBuildErrorResponse (bufOf (twoQuestions 12)) 42 512 1 0
        (dnsErrorQdEcho (bufOf (twoQuestions 12)) 42) none false none).1) 25 =
      some [⟨[97, 46], 1, 1⟩, ⟨[97, 46], 2, 1⟩] ∧
    (dnsBuildErrorResponse (bufOf (twoQuestions 12)) 42 512 1 0
      (dnsErrorQdEcho (bufOf (twoQuestions 12)) 42) none false
      none).1.length ≤ 512 := by
  refine ⟨by decide +kernel, ?_⟩
  have hstays : EchoStays (bufOf (twoQuestions 12)) 42 512 := by
    have hskip : skipWireQuestions (bufOf (twoQuestions 12)) 42
        (dnsErrorQdEcho (bufOf (twoQuestions 12)) 42) 12 = some 25 := by
      decide +kernel
    intro qEnd h _
    rw [hskip] at h
    cases h
    decide +kernel
  exact (dnsBuildErrorResponse_whole (bufOf (twoQuestions 12)) 1 0 none false none (by decide)
    (by decide) (by decide)
    hstays).2.1

/-- A pointer into the additional section is given back as it is, but not the octets it points
to. -/
theorem dnsBuildErrorResponse_dangling :
    wholeMessage (bufOf (twoQuestions 25)) 42 = some [⟨[97, 46], 1, 1⟩, ⟨[97, 46], 2, 1⟩] ∧
      dnsErrorQdEcho (bufOf (twoQuestions 25)) 42 = 2 ∧
      (dnsBuildErrorResponse (bufOf (twoQuestions 25)) 42 512 1 0 2 none false none).2 = 25 ∧
      wholeMessage
        (bufOf (dnsBuildErrorResponse (bufOf (twoQuestions 25)) 42 512 1 0 2 none false none).1)
          25 = none := by
  decide +kernel

end KariDns
