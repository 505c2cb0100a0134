import KariDns.Query.Run

/-! Responses that are not truncated.

A run in any packet and a run in a packet with room for all take the same rounds; as long as
nothing that belongs to the Answer or Authority section fails to fit, they write the same.
-/

namespace KariDns

open Octets DomainName

variable {σ τ : Type}

/-- Two responses agree but for the Additional section. -/
structure SameMain (r : Resp σ) (r' : Resp τ) : Prop where
  answer : r.answer = r'.answer
  authority : r.authority = r'.authority
  rcode : r.rcode = r'.rcode
  aa : r.aa = r'.aa

/-- Two rounds end alike, unless the first is truncated. -/
inductive StepSame : Step σ → Step τ → Prop
  | truncated {r : Resp σ} {step : Step τ} (h : r.tc = true) : StepSame (.done r) step
  | done {r : Resp σ} {r' : Resp τ} (h : SameMain r r') : StepSame (.done r) (.done r')
  | again {c : Chain} {r : Resp σ} {r' : Resp τ} (h : SameMain r r') (hr : r.rcode = 0) :
    StepSame (.again c r) (.again c r')

section Same

variable {sec : Section} {es : List Emit} {r₁ r₂ : Resp σ} {r₁' r₂' : Resp τ}

lemma SameMain.grew (h : SameMain r₁ r₁') (hg : r₁.Grew sec es r₂) (hg' : r₁'.Grew sec es r₂') :
    SameMain r₂ r₂' := by
  obtain ⟨ha, hb, hc, hd⟩ := h
  obtain ⟨ga, gb, -, gaa, -, grc, -⟩ := hg
  obtain ⟨ga', gb', -, gaa', -, grc', -⟩ := hg'
  refine ⟨?_, ?_, by rw [grc, grc', hc], by rw [gaa, gaa', hd]⟩
  · rw [ga, ga']
    cases sec <;> simp [Resp.addAll, ha]
  · rw [gb, gb']
    cases sec <;> simp [Resp.addAll, hb]

/-- What is written into the Additional section does not count. -/
lemma SameMain.additional {es' : List Emit} (h : SameMain r₁ r₁') (hg : r₁.Grew .additional es r₂)
    (hg' : r₁'.Grew .additional es' r₂') : SameMain r₂ r₂' := by
  obtain ⟨ha, hb, hc, hd⟩ := h
  obtain ⟨ga, gb, -, gaa, -, grc, -⟩ := hg
  obtain ⟨ga', gb', -, gaa', -, grc', -⟩ := hg'
  exact ⟨by rw [ga, ga']; exact ha, by rw [gb, gb']; exact hb, by rw [grc, grc',
    hc], by rw [gaa, gaa', hd]⟩

lemma SameMain.servfail {init : Resp σ} {init' : Resp τ} {S : Sink σ} {S' : Sink τ}
    (hinit : SameMain init init') (h : SameMain r₁ r₁') :
      SameMain (init.servfail S r₁) (init'.servfail S' r₁') :=
  ⟨hinit.answer, hinit.authority, rfl, h.aa⟩

end Same

section Step

variable {q : Query} {c : Chain} {img : ZoneImage} {S : Sink σ} {init r : Resp σ}
    {init' r' : Resp Unit}

lemma closeAnswer_same (h : img.Loaded) (hq : q.Loaded) (hc : c.Loaded) (typeMatched : Bool)
    (v : Verdict) (hsame : SameMain r r') (hr : r.rcode = 0) :
    (closeAnswer S q c img typeMatched v r).tc = true ∨
      SameMain (closeAnswer S q c img typeMatched v r)
        (closeAnswer roomySink q c img typeMatched v r') := by
  obtain ⟨ok, r₁, hw, hres⟩ := closeAnswer_writes S h hc q typeMatched v r hr
  obtain ⟨ok', r₁', hw', hres'⟩ :=
    closeAnswer_writes roomySink h hc q typeMatched v r' (hsame.rcode ▸ hr)
  obtain rfl := hw'.roomy
  rw [hres, hres']
  cases ok with
  | false => exact .inl rfl
  | true =>
    have hstart : SameMain { r with rcode := if v.found then 0 else 3 }
        { r' with rcode := if v.found then 0 else 3 } :=
      ⟨hsame.answer, hsame.authority, rfl, hsame.aa⟩
    have hmain := hstart.grew hw.grew hw'.grew
    obtain ⟨ds, -, hadd⟩ := addressed_grew S h hq c.entry r₁
    obtain ⟨ds', -, hadd'⟩ := addressed_grew roomySink h hq c.entry r₁'
    exact .inr (hmain.additional hadd hadd')

/-- A question for one type has no further types. -/
lemma answerName_single (hone : q.more = []) (S : Sink σ) (aliasKey : Option Nat) (st : ScanState)
    (wcFound : Bool) (r : Resp σ) : answerName S q c img aliasKey st wcFound r =
      closeAnswer S q c img st.typeMatched
        (verdictOf c.entry img c.qname st st.typeMatched wcFound) r := by
  rw [answerName_eq, hone]
  cases st.found <;> rfl

lemma RoundEnd.step_same (hone : q.more = []) (h : img.Loaded) (hq : q.Loaded)
    (aliasKey : Option Nat) (hinit : SameMain init init') (hsame : SameMain r r')
    (hr : r.rcode = 0) :
    ∀ {last : RoundEnd}, (∀ c, last.chain = some c → c.Loaded) →
      StepSame (last.step S q init img aliasKey r) (last.step roomySink q init' img aliasKey r')
  | .stop, _ => .done hsame
  | .tooLong, _ => .done ⟨hsame.answer, hsame.authority, rfl, hsame.aa⟩
  | .servfail, _ => .done (hinit.servfail hsame)
  | .follow c target, _ => by
    obtain ⟨r₁, hw, hres⟩ := follow_eq S q c target r hr
    obtain ⟨r₁', hw', hres'⟩ := follow_eq roomySink q c target r' (hsame.rcode ▸ hr)
    have hmain := hsame.grew hw.grew hw'.grew
    rw [RoundEnd.step, RoundEnd.step, hres, hres']
    cases nextChain q c target with
    | none => exact .done hmain
    | some c' => exact .again hmain (hw.grew.rcode.trans hr)
  | .name c st wc, hload => by
    rw [RoundEnd.step, RoundEnd.step, answerName_single hone, answerName_single hone]
    rcases @closeAnswer_same σ q c img S r r' h hq (hload c rfl) st.typeMatched
      (verdictOf c.entry img c.qname st st.typeMatched wc) hsame hr with htc | hmain
    · exact .truncated htc
    · exact .done hmain

lemma resolveStep_same (hone : q.more = []) (hq : q.Loaded) (hc : c.Loaded) {depth : Nat}
    (hinit : SameMain init init') (hsame : SameMain r r') (hr : r.rcode = 0) :
    StepSame (resolveStep S q init depth c r) (resolveStep roomySink q init' depth c r') := by
  cases hk : roundKind q depth c with
  | lost =>
    rw [resolveStep_lost hk, resolveStep_lost hk]
    exact .done (hinit.servfail hsame)
  | hidden =>
    rw [resolveStep_hidden hk, resolveStep_hidden hk]
    exact .done hsame
  | referral img id name =>
    have h := hc.1 img (roundKind_image hk).1
    obtain ⟨ok, r₁, hw, hres⟩ := @resolveStep_referral _ _ _ _ _ S init r hc _ _ hk
    obtain ⟨ok', r₁', hw', hres'⟩ := @resolveStep_referral _ _ _ _ _ roomySink init' r' hc _ _ hk
    obtain rfl := hw'.roomy
    rw [hres, hres']
    cases ok with
    | false => exact .truncated rfl
    | true =>
      have hstart : SameMain { r with aa := false } { r' with aa := false } :=
        ⟨hsame.answer, hsame.authority, hsame.rcode, rfl⟩
      have hmain := hstart.grew hw.grew hw'.grew
      obtain ⟨cut, ds, r₂, -, hgrew, hglue, -⟩ :=
        referralGlue_adds S h hq c.entry name (img.ownRrs id) false r₁
      obtain ⟨cut', ds', r₂', -, hgrew', hglue', hfull, -⟩ :=
        referralGlue_adds roomySink h hq c.entry name (img.ownRrs id) false r₁'
      rw [if_pos rfl, if_pos rfl, hglue, hglue']
      cases cut' with
      | true => exact absurd (hfull rfl) roomySink_not_full
      | false =>
        cases cut with
        | true => exact .truncated rfl
        | false => exact .done (hmain.additional hgrew hgrew')
  | answer img =>
    have h := hc.1 img (roundKind_answer hk)
    obtain ⟨ok, r₁, hw, hres⟩ := @resolveStep_answer _ _ _ _ _ S init r hc hk
    obtain ⟨ok', r₁', hw', hres'⟩ := @resolveStep_answer _ _ _ _ _ roomySink init' r' hc hk
    obtain rfl := hw'.roomy
    rw [hres, hres']
    cases ok with
    | false => exact .truncated rfl
    | true =>
      exact RoundEnd.step_same hone h hq (roundAliasKey q c img) hinit (hsame.grew hw.grew hw'.grew)
        (hw.grew.rcode.trans hr) fun c' hc' => (roundPlan_chain hc').all hc

/-- A run that is not truncated writes what a run in a packet with room writes. -/
lemma resolveLoop_same (hone : q.more = []) (hq : q.Loaded) (hinit : SameMain init init') :
    ∀ (fuel depth : Nat) {c : Chain} {r : Resp σ} {r' : Resp Unit}, c.Loaded →
      SameMain r r' → r.rcode = 0 →
      (resolveLoop S q init fuel depth c r).tc = true ∨
        SameMain (resolveLoop S q init fuel depth c r)
          (resolveLoop roomySink q init' fuel depth c r')
  | 0, depth, c, r, r', hc, hsame, hr => by
    right
    rw [resolveLoop, resolveLoop, ← hsame.answer, ← hinit.answer]
    by_cases hlen : r.answer.length > init.answer.length
    · rw [if_pos hlen, if_pos hlen]
      exact ⟨rfl, hsame.authority, rfl, hsame.aa⟩
    · rw [if_neg hlen, if_neg hlen]
      exact hinit.servfail hsame
  | fuel + 1, depth, c, r, r', hc, hsame, hr => by
    have hstep := @resolveStep_same σ q c S init r init' r' hone hq hc depth hinit hsame hr
    rw [resolveLoop, resolveLoop]
    generalize resolveStep roomySink q init' depth c r' = step' at hstep ⊢
    cases hs : resolveStep S q init depth c r with
    | done r₁ =>
      rw [hs] at hstep
      cases hstep with
      | truncated htc => exact .inl htc
      | done hmain => exact .inr hmain
    | again c₁ r₁ =>
      have hnext := (resolveStep_again hc hr hs).1
      rw [hs] at hstep
      cases hstep with
      | again hmain hr₁ =>
        exact resolveLoop_same hone hq hinit fuel (depth + 1) (nextRound_all hq.entries hc hnext)
          hmain hr₁

end Step

end KariDns
