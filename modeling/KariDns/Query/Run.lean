import KariDns.Query.Closing

/-! Whole runs of the resolver.

The names an alias chain leads through depend on the zones and the question only (`chainAt`). For
every packet the loop goes through them and has written, when a round begins, exactly what the
rounds before it planned; it ends in a round that is done, or behind the sixteenth
(`resolveName_run`).
-/

namespace KariDns

open Octets DomainName Option

variable {q : Query} {P : ZoneEntry → Prop}

variable {σ : Type}

/-! ### The next name -/

/-- `follow` without the response: the chain with the target, if there is a round for it. -/
def nextChain (q : Query) (c : Chain) (target : Text) : Option Chain :=
  if c.visited.any fun v => domainNamesMatchCi target v then none
  else
    let c := { c with
      qname := target
      visited := if c.visited.length < 16 then c.visited ++ [target] else c.visited }
    match q.findZone target q.first with
    | .absent => none
    | .none => none
    | .entry e =>
      if ¬ e.served then none
      else if e.id = c.entry.id then some c
      else if ¬ e.permitted then none
      else some { c with entry := e }

/-- Another round, or the end. -/
def Step.of (next : Option Chain) (r : Resp σ) : Step σ :=
  match next with
  | none => .done r
  | some c => .again c r

lemma follow_eq (S : Sink σ) (q : Query) (c : Chain) (target : Text) (r : Resp σ)
    (hr : r.rcode = 0) :
    ∃ r', Writes S .answer [] true r r' ∧ follow q c target r = .of (nextChain q c target) r' := by
  have hsame : ∀ r' : Resp σ, r.Grew .answer [] r' → r'.glue = r.glue →
      Writes S .answer [] true r r' :=
    fun r' h hg => ⟨[], List.Sublist.refl _, h, fun _ => ⟨rfl, by simp [hg]⟩, by simp⟩
  have hcross : r.Grew .answer [] { r with crossedZone := true } := by constructor <;> simp
  have hrefl : Writes S .answer [] true r r := .nil S .answer r
  rw [follow, nextChain]
  split
  · refine ⟨{ r with rcode := 0 }, hsame _ ?_ rfl, rfl⟩
    constructor <;> simp [hr]
  dsimp only
  cases q.findZone target q.first with
  | absent => exact ⟨_, hsame _ hcross rfl, rfl⟩
  | none => exact ⟨r, hrefl, rfl⟩
  | entry e =>
    dsimp only
    split
    · exact ⟨r, hrefl, rfl⟩
    split
    · exact ⟨r, hrefl, rfl⟩
    split
    · exact ⟨_, hsame _ hcross rfl, rfl⟩
    · exact ⟨_, hsame _ hcross rfl, rfl⟩

lemma nextChain_all (hq : ∀ t type e, q.findZone t type = .entry e → P e) {c c' : Chain}
    {target : Text} (hc : c.All P) (h : nextChain q c target = some c') : c'.All P := by
  rw [nextChain] at h
  split at h
  · cases h
  dsimp only at h
  cases hz : q.findZone target q.first with
  | absent => simp [hz] at h
  | none => simp [hz] at h
  | entry e =>
    rw [hz] at h
    dsimp only at h
    split at h
    · cases h
    split at h
    · cases h
      exact hc
    split at h
    · cases h
    · cases h
      exact ⟨hq _ _ e hz, hc.2⟩

/-! ### One round -/

/-- What a round does: nothing without an image, or in a further zone without a SOA for the client;
a referral; an answer. -/
inductive RoundKind
  | lost
  | hidden
  | referral (img : ZoneImage) (id : Nat) (name : Text)
  | answer (img : ZoneImage)

def roundKind (q : Query) (depth : Nat) (c : Chain) : RoundKind :=
  match c.entry.image with
  | none => .lost
  | some img =>
    if depth > 0 ∧ img.soaAttr ∧ img.visibleSoa c.entry.view = none then .hidden
    else
      match findCut q c.entry img c.qname with
      | some (id, name) => .referral img id name
      | none => .answer img

/-- The chain of the round behind this one. -/
def nextRound (q : Query) (depth : Nat) (c : Chain) : Option Chain :=
  match roundKind q depth c with
  | .answer img =>
    match (roundPlan q c img).last with
    | .follow c' target => nextChain q c' target
    | _ => none
  | _ => none

/-- The chunks of a round's answer. -/
def roundChunks (q : Query) (depth : Nat) (c : Chain) : List (List Emit) :=
  match roundKind q depth c with
  | .answer img => (roundPlan q c img).answer
  | _ => []

section Round

variable {q : Query} {depth : Nat} {c c' : Chain} {img : ZoneImage} {S : Sink σ} {init r : Resp σ}

lemma roundKind_image {id : Nat} {name : Text} (h : roundKind q depth c = .referral img id name) :
    c.entry.image = some img ∧ findCut q c.entry img c.qname = some (id, name) := by
  rw [roundKind] at h
  split at h
  · cases h
  rename_i img' himg
  split at h
  · cases h
  split at h
  · rename_i hcut
    cases h
    exact ⟨himg, hcut⟩
  · cases h

lemma roundKind_answer (h : roundKind q depth c = .answer img) : c.entry.image = some img := by
  rw [roundKind] at h
  split at h
  · cases h
  rename_i img' himg
  split at h
  · cases h
  split at h
  · cases h
  · cases h
    exact himg

lemma resolveStep_lost (h : roundKind q depth c = .lost) :
    resolveStep S q init depth c r = .done (init.servfail S r) := by
  rw [roundKind] at h
  rw [resolveStep]
  cases himg : c.entry.image with
  | none => rfl
  | some img =>
    rw [himg] at h
    dsimp only at h
    split at h
    · cases h
    · split at h <;> cases h

lemma resolveStep_hidden (h : roundKind q depth c = .hidden) :
    resolveStep S q init depth c r = .done r := by
  rw [roundKind] at h
  rw [resolveStep]
  cases himg : c.entry.image with
  | none =>
    rw [himg] at h
    cases h
  | some img =>
    rw [himg] at h
    dsimp only at h ⊢
    split at h
    · rename_i hid
      rw [if_pos hid]
    · split at h <;> cases h

/-- A round that ends with a referral. -/
lemma resolveStep_referral (hc : c.Loaded) {id : Nat} {name : Text}
    (h : roundKind q depth c = .referral img id name) :
    ∃ ok r', Writes S .authority (referralChunks q c.entry img id name) ok
      { r with aa := false } r' ∧
      resolveStep S q init depth c r =
        .done (if ok then referralGlue S q c.entry img name (img.ownRrs id) false r'
          else r'.truncated) := by
  obtain ⟨himg, hcut⟩ := roundKind_image h
  obtain ⟨ok, r', hw, hres⟩ := findDelegation_cut S (hc.1 img himg) hcut r
  refine ⟨ok, r', hw, ?_⟩
  rw [roundKind, himg] at h
  rw [resolveStep, himg]
  dsimp only at h ⊢
  split at h
  · cases h
  · rename_i hid
    rw [if_neg hid, hres]

/-- A round that answers follows its plan. -/
lemma resolveStep_answer (hc : c.Loaded) (h : roundKind q depth c = .answer img) :
    Follows S q init c img (roundPlan q c img) r (resolveStep S q init depth c r) := by
  have himg := roundKind_answer h
  rw [roundKind, himg] at h
  rw [resolveStep, himg]
  dsimp only at h ⊢
  split at h
  · cases h
  rename_i hid
  split at h
  · cases h
  rename_i hcut
  rw [if_neg hid, findDelegation_none S (hc.1 img himg) hcut]
  exact answerFrom_follows (hc.1 img himg) r

/-- The chain a round hands on is its own, with the first name a wildcard gave an alias for. -/
def Chain.Extends (c c' : Chain) : Prop :=
  c' = c ∨ c' = { c with firstWc := c.firstWc.or (some (c.qname, c.entry)) }

lemma Chain.Extends.all (h : c.Extends c') (hc : c.All P) : c'.All P := by
  rcases h with rfl | rfl
  · exact hc
  refine ⟨hc.1, ?_⟩
  intro p hp
  cases hw : c.firstWc with
  | none =>
    simp only [hw, none_or, some.injEq] at hp
    rw [← hp]
    exact hc.1
  | some p' =>
    simp only [hw, some_or, some.injEq] at hp
    rw [← hp]
    exact hc.2 p' hw

lemma missingPlan_chain (h : (missingPlan q c img).last.chain = some c') : c.Extends c' := by
  rw [missingPlan] at h
  split at h
  · split at h
    · simp only [dnamePlan] at h
      split at h
      · cases h
      · cases h
        exact .inl rfl
    · cases h
      exact .inl rfl
  split at h
  · dsimp only at h
    split at h
    · cases h
      exact .inl rfl
    split at h
    · cases h
      exact .inr rfl
    · cases h
      exact .inr rfl
  · cases h
    exact .inl rfl

lemma roundPlan_chain (h : (roundPlan q c img).last.chain = some c') : c.Extends c' := by
  rw [roundPlan] at h
  dsimp only at h
  split at h
  · cases h
  split at h
  · cases h
    exact .inl rfl
  rw [expandedPlan] at h
  split at h
  · dsimp only at h
    split at h
    · cases h
    · cases h
      exact .inl rfl
  split at h
  · cases h
    exact .inl rfl
  · exact missingPlan_chain h

lemma nextRound_all (hq : ∀ t type e, q.findZone t type = .entry e → P e) (hc : c.All P)
    (h : nextRound q depth c = some c') : c'.All P := by
  rw [nextRound] at h
  split at h
  · split at h
    · rename_i hlast
      exact nextChain_all hq ((roundPlan_chain (by rw [hlast]; rfl)).all hc) h
    · cases h
  · cases h

/-- The loop goes on behind a round exactly as planned, and has then written the round's answer. -/
lemma resolveStep_again (hc : c.Loaded) (hr : r.rcode = 0) {r' : Resp σ}
    (h : resolveStep S q init depth c r = .again c' r') :
    nextRound q depth c = some c' ∧ Writes S .answer (roundChunks q depth c) true r r' := by
  rw [nextRound, roundChunks]
  cases hk : roundKind q depth c with
  | lost =>
    rw [resolveStep_lost hk] at h
    cases h
  | hidden =>
    rw [resolveStep_hidden hk] at h
    cases h
  | referral img id name =>
    obtain ⟨ok, r₁, -, hres⟩ := @resolveStep_referral _ _ _ _ _ S init r hc _ _ hk
    rw [hres] at h
    cases h
  | answer img =>
    obtain ⟨ok, r₁, hw, hres⟩ := @resolveStep_answer _ _ _ _ _ S init r hc hk
    rw [hres] at h
    cases ok with
    | false => cases h
    | true =>
      rw [if_pos rfl] at h
      dsimp only
      cases hlast : (roundPlan q c img).last with
      | stop =>
        rw [hlast] at h
        cases h
      | tooLong =>
        rw [hlast] at h
        cases h
      | servfail =>
        rw [hlast] at h
        cases h
      | name c₂ st wc =>
        rw [hlast] at h
        cases h
      | follow c₂ target =>
        rw [hlast, RoundEnd.step] at h
        obtain ⟨r₂, hw', hfol⟩ := follow_eq S q c₂ target r₁ (hw.grew.rcode.trans hr)
        rw [hfol] at h
        cases hn : nextChain q c₂ target with
        | none =>
          rw [hn] at h
          cases h
        | some c₃ =>
          rw [hn] at h
          cases h
          exact ⟨hn, by simpa using hw.seq hw'⟩

end Round

/-! ### The run -/

/-- The chain with which a round begins. -/
def chainAt (q : Query) (c : Chain) : Nat → Option Chain
  | 0 => some c
  | depth + 1 => (chainAt q c depth).bind (nextRound q depth)

/-- What the rounds before a round have answered. -/
def chunksBefore (q : Query) (c : Chain) : Nat → List (List Emit)
  | 0 => []
  | depth + 1 => chunksBefore q c depth ++ ((chainAt q c depth).map (roundChunks q depth)).getD []

lemma chainAt_all (hq : ∀ t type e, q.findZone t type = .entry e → P e) {c : Chain} (hc : c.All P) :
    ∀ {depth : Nat} {c' : Chain}, chainAt q c depth = some c' → c'.All P
  | 0, c', h => by
    cases h
    exact hc
  | depth + 1, c', h => by
    obtain ⟨c₁, h₁, h⟩ := bind_eq_some_iff.mp h
    exact nextRound_all hq (chainAt_all hq hc h₁) h

/-- The end of the loop behind the sixteenth round. -/
def outOfRounds (S : Sink σ) (init r : Resp σ) : Resp σ :=
  if r.answer.length > init.answer.length then { r with rcode := 0 } else init.servfail S r

lemma resolveLoop_run (S : Sink σ) (hq : q.Loaded) {c₀ : Chain} (hc₀ : c₀.Loaded) {init : Resp σ}
    (hinit : init.rcode = 0) :
      ∀ (fuel depth : Nat) {c : Chain} {r : Resp σ}, chainAt q c₀ depth = some c →
      Writes S .answer (chunksBefore q c₀ depth) true init r →
      ∃ depth' c' r', depth ≤ depth' ∧ depth' ≤ depth + fuel ∧ chainAt q c₀ depth' = some c' ∧
        Writes S .answer (chunksBefore q c₀ depth') true init r' ∧
        (resolveStep S q init depth' c' r' = .done (resolveLoop S q init fuel depth c r) ∧
          depth' < depth + fuel ∨
          depth' = depth + fuel ∧ resolveLoop S q init fuel depth c r = outOfRounds S init r')
  | 0, depth, c, r, hat, hw => ⟨depth, c, r, Nat.le_refl _, Nat.le_refl _, hat, hw, .inr ⟨rfl, rfl⟩⟩
  | fuel + 1, depth, c, r, hat, hw => by
    rw [resolveLoop]
    cases hstep : resolveStep S q init depth c r with
    | done r' => exact ⟨depth, c, r, Nat.le_refl _, by omega, hat, hw, .inl ⟨hstep, by omega⟩⟩
    | again c' r' =>
      obtain ⟨hnext, hw'⟩ :=
        resolveStep_again (chainAt_all hq.entries hc₀ hat) (hw.grew.rcode.trans hinit) hstep
      have hat' : chainAt q c₀ (depth + 1) = some c' := by
        rw [chainAt, hat]
        exact hnext
      have hwrote : Writes S .answer (chunksBefore q c₀ (depth + 1)) true init r' := by
        rw [chunksBefore, hat]
        exact hw.seq hw'
      obtain ⟨depth', c'', r'', hle, hle', hat'', hw'', hend⟩ :=
        resolveLoop_run S hq hc₀ hinit fuel (depth + 1) hat' hwrote
      refine ⟨depth', c'', r'', by omega, by omega, hat'', hw'', ?_⟩
      rcases hend with ⟨hdone, hlt⟩ | ⟨heq, hout⟩
      · exact .inl ⟨hdone, by omega⟩
      · exact .inr ⟨by omega, hout⟩

/-- The chain of a question. -/
def startChain (e : ZoneEntry) (qname : Text) : Chain := { qname, visited := [qname], entry := e }

/-- A run goes through the rounds of its chain: the last is done, or the sixteen rounds are over. -/
lemma resolveName_run (S : Sink σ) (hq : q.Loaded) {e : ZoneEntry} (he : e.Loaded) (qname : Text)
    (init : Resp σ) (hinit : init.rcode = 0) :
    ∃ depth c r, depth ≤ 16 ∧ chainAt q (startChain e qname) depth = some c ∧
      Writes S .answer (chunksBefore q (startChain e qname) depth) true init r ∧
      (resolveStep S q init depth c r = .done (resolveName S q e qname init) ∧ depth < 16 ∨
        depth = 16 ∧ resolveName S q e qname init = outOfRounds S init r) := by
  have hc : (startChain e qname).Loaded := ⟨he, by simp [startChain]⟩
  obtain ⟨depth, c, r, -, hle, hat, hw, hend⟩ :=
    resolveLoop_run S hq hc hinit 16 0 rfl (.nil S .answer init)
  exact ⟨depth, c, r, by omega, hat, hw, by simpa [resolveName, startChain] using hend⟩

end KariDns
