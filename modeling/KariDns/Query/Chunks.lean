import KariDns.Query.Writes

/-! Records that go into the packet together.

The engine writes chunks: an RRset as a whole, or a signature. A part of the engine that finds
room writes all its chunks; one that does not has left some of them out, and never a part of a
chunk. `Writes` says so, and its rules follow the way the parts are put together.
-/

namespace KariDns

open Octets DomainName List

variable {σ : Type}

/-- Some record does not fit. -/
def Sink.Full (S : Sink σ) : Prop := ∃ s x, (S.put s x).1 = false

lemma roomySink_not_full : ¬ roomySink.Full := by
  rintro ⟨s, x, h⟩
  cases h

/-- The targets of the records that addresses are looked for behind
(`collect_additional_rr_glue`). -/
def addressTargets (es : List Emit) : List Text :=
  es.filterMap fun
    | .rr _ rr _ _ => if rr.type = 15 ∨ rr.type = 33 ∨ rr.type = 2 then rrTargetText rr else none
    | .synth _ => none

lemma addressTargets_append (es es' : List Emit) :
    addressTargets (es ++ es') = addressTargets es ++ addressTargets es' :=
  filterMap_append

lemma mem_collectGlue {glue : List Text} {minimal : Bool} {rr : ImageRr} {t : Text}
    (h : t ∈ collectGlue minimal rr glue) :
    t ∈ glue ∨ (rr.type = 15 ∨ rr.type = 33 ∨ rr.type = 2) ∧ rrTargetText rr = some t := by
  rw [collectGlue] at h
  split at h
  · exact .inl h
  rename_i hopen
  split at h
  · exact .inl h
  rename_i t' ht'
  split at h
  · exact .inl h
  split at h
  · rcases mem_append.mp h with h | h
    · exact .inl h
    · rw [mem_singleton.mp h]
      exact .inr ⟨by tauto, ht'⟩
  · exact .inl h

/-! ### What stands behind what -/

/-- The records `es` behind those of a section, and nothing else in the response changed. -/
structure Resp.Grew (sec : Section) (es : List Emit) (r r' : Resp σ) : Prop where
  answer : r'.answer = (r.addAll sec es).answer
  authority : r'.authority = (r.addAll sec es).authority
  additional : r'.additional = (r.addAll sec es).additional
  aa : r'.aa = r.aa
  tc : r'.tc = r.tc
  rcode : r'.rcode = r.rcode
  included : r'.included = r.included

namespace Resp.Grew

variable {sec : Section} {es es' : List Emit} {r r' r'' : Resp σ}

lemma refl (sec : Section) (r : Resp σ) : Grew sec [] r r := by
  constructor <;> simp

lemma trans (h : Grew sec es r r') (h' : Grew sec es' r' r'') : Grew sec (es ++ es') r r'' := by
  obtain ⟨ha, hb, hc, hd, he, hf, hg⟩ := h
  obtain ⟨ha', hb', hc', hd', he', hf', hg'⟩ := h'
  cases sec
    <;> exact ⟨by simp [ha', ha, Resp.addAll], by simp [hb', hb, Resp.addAll], by simp [hc', hc,
      Resp.addAll],
    hd'.trans hd, he'.trans he, hf'.trans hf, hg'.trans hg⟩

/-- Going back leaves what was there before. -/
lemma restore (S : Sink σ) (h : Grew sec es r r') : Grew sec [] r (r.restore S r') := by
  obtain ⟨-, -, -, haa, htc, hrc, hinc⟩ := h
  constructor <;> simp [Resp.restore, haa, htc, hrc, hinc]

end Resp.Grew

/-! ### Chunks written -/

/-- A part of the engine writes chunks: all, if it succeeds; some, if the packet is full. -/
def Writes (S : Sink σ) (sec : Section) (cs : List (List Emit)) (ok : Bool)
    (r r' : Resp σ) : Prop :=
  ∃ ds : List (List Emit), ds.Sublist cs ∧ r.Grew sec ds.flatten r' ∧
    (ok = true → ds = cs ∧ r'.glue ⊆ r.glue ++ addressTargets cs.flatten) ∧
      (ok = false → S.Full ∧ cs ≠ [])

namespace Writes

variable {S : Sink σ} {sec : Section} {cs cs' : List (List Emit)} {ok : Bool} {r r' r'' : Resp σ}

lemma nil (S : Sink σ) (sec : Section) (r : Resp σ) : Writes S sec [] true r r :=
  ⟨[], List.Sublist.refl _, .refl sec r, fun _ => ⟨rfl, by simp⟩, by simp⟩

lemma seq (h : Writes S sec cs true r r') (h' : Writes S sec cs' ok r' r'') :
    Writes S sec (cs ++ cs') ok r r'' := by
  obtain ⟨ds, -, hgrew, hok, -⟩ := h
  obtain ⟨rfl, hglue⟩ := hok rfl
  obtain ⟨ds', hsub, hgrew', hok', hfull⟩ := h'
  refine ⟨ds ++ ds', hsub.append_left ds, ?_, ?_, fun h => ⟨(hfull h).1, fun hnil => ?_⟩⟩
  · rw [flatten_append]
    exact hgrew.trans hgrew'
  · intro h
    obtain ⟨rfl, hglue'⟩ := hok' h
    refine ⟨rfl, fun t ht => ?_⟩
    rw [flatten_append, addressTargets_append, ← append_assoc]
    rcases mem_append.mp (hglue' ht) with ht | ht
    · exact mem_append_left _ (hglue ht)
    · exact mem_append_right _ ht
  · exact (hfull h).2 (append_eq_nil_iff.mp hnil).2

/-- Nothing comes behind what did not fit. -/
lemma stop (h : Writes S sec cs false r r') (hsub : cs.Sublist cs') :
    Writes S sec cs' false r r' := by
  obtain ⟨ds, hds, hgrew, -, hfull⟩ := h
  refine ⟨ds, hds.trans hsub, hgrew, by simp, fun h => ⟨(hfull h).1, ?_⟩⟩
  rintro rfl
  exact (hfull h).2 (sublist_nil.mp hsub)

lemma grew (h : Writes S sec cs true r r') : r.Grew sec cs.flatten r' := by
  obtain ⟨ds, -, hgrew, hok, -⟩ := h
  obtain ⟨rfl, -⟩ := hok rfl
  exact hgrew

lemma targets (h : Writes S sec cs true r r') : r'.glue ⊆ r.glue ++ addressTargets cs.flatten := by
  obtain ⟨ds, -, -, hok, -⟩ := h
  exact (hok rfl).2

lemma full (h : Writes S sec cs false r r') : S.Full := by
  obtain ⟨ds, -, -, -, hfull⟩ := h
  exact (hfull rfl).1

/-- A part with nothing to write succeeds. -/
lemma of_nil (h : Writes S sec [] ok r r') : ok = true := by
  obtain ⟨ds, -, -, -, hfull⟩ := h
  cases ok with
  | true => rfl
  | false => exact absurd rfl (hfull rfl).2

/-- In a packet with room everything is written. -/
lemma roomy {r r' : Resp Unit} (h : Writes roomySink sec cs ok r r') : ok = true := by
  cases ok with
  | true => rfl
  | false => exact absurd h.full roomySink_not_full

/-- Other targets. -/
lemma glue (h : Writes S sec cs true r r') {g : List Text}
    (hg : ∀ t ∈ g, t ∈ r'.glue ∨ t ∈ addressTargets cs.flatten) :
    Writes S sec cs true r { r' with glue := g } := by
  obtain ⟨ds, hds, ⟨ha, hb, hc, hd, he, hf, hi⟩, hok, -⟩ := h
  refine ⟨ds, hds, ⟨ha, hb, hc, hd, he, hf, hi⟩, fun _ => ⟨(hok rfl).1, fun t ht => ?_⟩, by simp⟩
  exact (hg t ht).elim (fun h => (hok rfl).2 h) (mem_append_right _)

/-- What was written as a whole, in other chunks. -/
lemma regroup (h : Writes S sec cs true r r') (hflat : cs.flatten = cs'.flatten) :
    Writes S sec cs' true r r' := by
  obtain ⟨ds, -, hgrew, hok, -⟩ := h
  obtain ⟨rfl, hglue⟩ := hok rfl
  exact ⟨cs', List.Sublist.refl _, hflat ▸ hgrew, fun _ => ⟨rfl, hflat ▸ hglue⟩, by simp⟩

/-- What did not fit as a whole is taken back. -/
lemma restore (h : Writes S sec cs false r r') (hne : cs' ≠ []) :
    Writes S sec cs' false r (r.restore S r') := by
  obtain ⟨ds, -, hgrew, -, hfull⟩ := h
  exact ⟨[], nil_sublist _, hgrew.restore S, by simp, fun _ => ⟨(hfull rfl).1, hne⟩⟩

lemma ne_nil (h : Writes S sec cs false r r') : cs ≠ [] := by
  obtain ⟨ds, -, -, -, hfull⟩ := h
  exact (hfull rfl).2

end Writes

/-! ### Single records -/

lemma write_writes (S : Sink σ) (sec : Section) (x : Emit) (r : Resp σ) :
    Writes S sec [[x]] (r.write S sec x).1 r (r.write S sec x).2 := by
  rw [Resp.write]
  rcases hput : S.put r.sink x with ⟨_ | _, s⟩
  · refine ⟨[], nil_sublist _, ?_, by simp, fun _ => ⟨⟨r.sink, x, by rw [hput]⟩, by simp⟩⟩
    constructor <;> simp
  refine ⟨[[x]], List.Sublist.refl _, ?_, fun _ => ⟨rfl, fun t ht => ?_⟩, by simp⟩
  · cases sec <;> exact ⟨rfl, rfl, rfl, rfl, rfl, rfl, rfl⟩
  · cases sec <;> exact mem_append_left _ ht

lemma writeRr_writes {img : ZoneImage} {rr : ImageRr} {nm : ImageName}
    (h : img.names[rr.nameId]? = some nm) (S : Sink σ) (sec : Section) (owner : Option Text)
    (ttl : Nat) (r : Resp σ) :
    Writes S sec [img.emit rr owner ttl] (r.writeRr S sec img rr owner ttl).1 r
      (r.writeRr S sec img rr owner ttl).2 := by
  rw [Resp.writeRr, h, ZoneImage.emit, h]
  exact write_writes S sec _ r

/-- The signatures of an owner over a type, each by itself. -/
def sigChunks (img : ZoneImage) (owner : Option Text) (covered ttl : Nat)
    (l : List (ImageRr × Nat)) : List (List Emit) :=
  (sigsOf img owner covered ttl l).map ([·])

lemma flatten_singletons {α : Type} : ∀ l : List α, (l.map ([·])).flatten = l
  | [] => rfl
  | a :: l => by simp [flatten_singletons l]

@[simp] lemma sigChunks_flatten (img : ZoneImage) (owner : Option Text) (covered ttl : Nat)
    (l : List (ImageRr × Nat)) :
    (sigChunks img owner covered ttl l).flatten = sigsOf img owner covered ttl l :=
  flatten_singletons _

/-- Records are written as long as they fit. -/
def writeAll (S : Sink σ) (sec : Section) : List Emit → Resp σ → Bool × Resp σ
  | [], r => (true, r)
  | x :: xs, r =>
    match r.write S sec x with
    | (false, r) => (false, r)
    | (true, r) => writeAll S sec xs r

lemma writeAll_writes (S : Sink σ) (sec : Section) : ∀ (xs : List Emit) (r : Resp σ),
    Writes S sec (xs.map ([·])) (writeAll S sec xs r).1 r (writeAll S sec xs r).2
  | [], r => .nil S sec r
  | x :: xs, r => by
    have hw := write_writes S sec x r
    rw [writeAll, map_cons, ← singleton_append]
    generalize r.write S sec x = res at hw ⊢
    obtain ⟨_ | _, r₁⟩ := res
    · exact hw.stop (sublist_append_left _ _)
    · exact hw.seq (writeAll_writes S sec xs r₁)

lemma attachCoveringRrsig_eq {img : ZoneImage} (S : Sink σ) (owner : Option Text)
    (covered ttl : Nat) (sec : Section) :
    ∀ {l : List (ImageRr × Nat)}, img.Holds l → ∀ r : Resp σ,
      attachCoveringRrsig S sec img owner covered ttl l r =
        writeAll S sec (sigsOf img owner covered ttl l) r
  | [], _, r => rfl
  | (rr, k) :: l, h, r => by
    have ih := attachCoveringRrsig_eq S owner covered ttl sec fun v hv => h v (mem_cons_of_mem _ hv)
    obtain ⟨nm, hnm⟩ := h (rr, k) mem_cons_self
    rw [attachCoveringRrsig, sigsOf, flatMap_cons]
    by_cases hc : rr.type = 46 ∧ rrsigCovered rr = some covered
    · simp only [if_pos hc, ih, Resp.writeRr, ZoneImage.emit, hnm]
      rfl
    · rw [if_neg hc, if_neg hc, ih]
      rfl

lemma attachCoveringRrsig_writes {img : ZoneImage} (S : Sink σ) (owner : Option Text)
    (covered ttl : Nat) (sec : Section) {l : List (ImageRr × Nat)} (h : img.Holds l) (r : Resp σ) :
    Writes S sec (sigChunks img owner covered ttl l)
      (attachCoveringRrsig S sec img owner covered ttl l r).1 r
      (attachCoveringRrsig S sec img owner covered ttl l r).2 := by
  rw [attachCoveringRrsig_eq S owner covered ttl sec h]
  exact writeAll_writes S sec _ r

/-! ### RRsets -/

/-- A part of the engine that counts the records it writes. -/
def Counts (S : Sink σ) (sec : Section) (cs : List (List Emit)) (n : Nat) (r : Resp σ)
    (res : Option Nat × Resp σ) : Prop :=
  ∃ ok, Writes S sec cs ok r res.2 ∧ res.1 = if ok then some n else none

/-- The records of an RRset, each by itself. -/
def RrsetSpec.singles (spec : RrsetSpec) (img : ZoneImage) (l : List (ImageRr × Nat)) :
    List (List Emit) :=
  (spec.records img l).map fun v => img.emit v.1 spec.owner ((spec.serves v.1).getD 0)

lemma RrsetSpec.singles_flatten (spec : RrsetSpec) (img : ZoneImage) (l : List (ImageRr × Nat)) :
    (spec.singles img l).flatten = spec.emits img l := rfl

lemma emitLoop_counts {img : ZoneImage} (S : Sink σ) (spec : RrsetSpec) :
    ∀ {l : List (ImageRr × Nat)}, img.Holds l → ∀ (n : Nat) (r : Resp σ),
      Counts S spec.sec (spec.singles img l) (n + (spec.records img l).length) r
        (emitLoop S img spec l n r)
  | [], _, n, r => ⟨true, .nil S spec.sec r, rfl⟩
  | (rr, k) :: l, h, n, r => by
    have ih := emitLoop_counts S spec fun v hv => h v (mem_cons_of_mem _ hv)
    obtain ⟨nm, hnm⟩ := h (rr, k) mem_cons_self
    rw [emitLoop]
    cases hs : spec.serves rr with
    | none =>
      rw [RrsetSpec.singles, RrsetSpec.records_cons_none (v := (rr, k)) hs]
      exact ih n r
    | some ttl =>
      have hrecords : spec.records img ((rr, k) :: l) =
          (rr, k) :: if spec.type = 6 ∧ img.soaAttr then [] else spec.records img l := by
        by_cases hsoa : spec.type = 6 ∧ img.soaAttr <;> simp [RrsetSpec.records, hs, hsoa]
      have hsingles : spec.singles img ((rr, k) :: l) =
          [img.emit rr spec.owner ttl] ++ if spec.type = 6 ∧ img.soaAttr then []
            else spec.singles img l := by
        by_cases hsoa : spec.type = 6 ∧ img.soaAttr <;> simp [RrsetSpec.singles, hrecords, hs, hsoa]
      have hw := writeRr_writes hnm S spec.sec spec.owner ttl r
      rw [hsingles, hrecords]
      dsimp only
      generalize r.writeRr S spec.sec img rr spec.owner ttl = res at hw ⊢
      obtain ⟨_ | _, r₁⟩ := res
      · exact ⟨false, hw.stop (sublist_append_left _ _), rfl⟩
      -- what follows, whatever targets there are then
      have hrest : ∀ r₂ : Resp σ, Writes S spec.sec [img.emit rr spec.owner ttl] true r r₂ →
          Counts S spec.sec
            ([img.emit rr spec.owner ttl] ++
              if spec.type = 6 ∧ img.soaAttr then [] else spec.singles img l)
            (n + ((rr, k) ::
              if spec.type = 6 ∧ img.soaAttr then [] else spec.records img l).length) r
            (if spec.type = 6 ∧ img.soaAttr = true then (some (n + 1), r₂)
              else emitLoop S img spec l (n + 1) r₂) := by
        intro r₂ hone
        by_cases hsoa : spec.type = 6 ∧ img.soaAttr = true
        · simp only [if_pos hsoa]
          exact ⟨true, hone, rfl⟩
        obtain ⟨ok, hw', hn⟩ := ih (n + 1) r₂
        simp only [if_neg hsoa]
        refine ⟨ok, hone.seq hw', ?_⟩
        rw [hn, length_cons, Nat.add_right_comm, Nat.add_assoc]
      cases spec.collect with
      | none => exact hrest r₁ hw
      | some minimal =>
        refine hrest _ (hw.glue fun t ht => (mem_collectGlue ht).imp_right ?_)
        rintro ⟨htype, htarget⟩
        simp [ZoneImage.emit, hnm, addressTargets, htype, htarget]

/-- An RRset, and behind it its signatures. -/
def RrsetSpec.chunks (spec : RrsetSpec) (img : ZoneImage) (l : List (ImageRr × Nat)) :
    List (List Emit) :=
  if spec.records img l = [] then []
  else
    spec.emits img l ::
      if spec.mode = .none ∨ spec.type = 46 then []
      else sigChunks img spec.owner spec.type.toNat 0xFFFFFFFF l

lemma RrsetSpec.chunks_flatten (spec : RrsetSpec) (img : ZoneImage) (l : List (ImageRr × Nat)) :
    (spec.chunks img l).flatten = spec.signed img l := by
  rw [RrsetSpec.chunks, RrsetSpec.signed]
  by_cases hnil : spec.records img l = []
  · simp [hnil, RrsetSpec.emits]
  · by_cases hplain : spec.mode = .none ∨ spec.type = 46 <;> simp [hnil, hplain]

lemma RrsetSpec.emits_chunk {spec : RrsetSpec} {img : ZoneImage} {l : List (ImageRr × Nat)}
    (h : spec.records img l ≠ []) : [spec.emits img l].Sublist (spec.chunks img l) := by
  rw [RrsetSpec.chunks, if_neg h]
  exact List.Sublist.cons_cons _ (nil_sublist _)

/-- What `emit_rrset` writes: all, some of it for want of room, or the set without the signatures it
may go without. -/
lemma emitRrset_cases {img : ZoneImage} (S : Sink σ) (spec : RrsetSpec) {id : Option Nat}
    (h : img.Holds (img.rrsAt id)) (r : Resp σ) :
    Counts S spec.sec (spec.chunks img (img.rrsAt id)) (spec.records img (img.rrsAt id)).length r
      (emitRrset S img id spec r) ∨
      (spec.mode = .optional ∧ spec.records img (img.rrsAt id) ≠ [] ∧
        (emitRrset S img id spec r).1 = some (spec.records img (img.rrsAt id)).length ∧
        r.Grew spec.sec (spec.emits img (img.rrsAt id)) (emitRrset S img id spec r).2) := by
  obtain ⟨ok, hw, hn⟩ := emitLoop_counts S spec h 0 r
  rw [Nat.zero_add] at hn
  rw [emitRrset]
  generalize emitLoop S img spec (img.rrsAt id) 0 r = res at hw hn ⊢
  obtain ⟨o, r₁⟩ := res
  obtain rfl : o = _ := hn
  have hsome : spec.records img (img.rrsAt id) ≠ [] →
      spec.chunks img (img.rrsAt id) ≠ [] := fun hrec => by
    simp [RrsetSpec.chunks, hrec]
  cases ok with
  | false =>
    refine .inl ⟨false, hw.restore (hsome fun hnil => hw.ne_nil ?_), rfl⟩
    rw [RrsetSpec.singles, hnil, map_nil]
  | true =>
    simp only [if_true, length_eq_zero_iff]
    have hset := RrsetSpec.chunks_flatten spec img (img.rrsAt id)
    rw [RrsetSpec.signed] at hset
    by_cases hplain : spec.records img (img.rrsAt id) = [] ∨ spec.mode = .none ∨ spec.type = 46
    · rw [if_pos hplain] at hset ⊢
      exact .inl ⟨true, hw.regroup (by rw [hset, append_nil, spec.singles_flatten]), rfl⟩
    rw [if_neg hplain] at hset ⊢
    obtain ⟨hrec, hmode⟩ := not_or.mp hplain
    have hsig := attachCoveringRrsig_writes S spec.owner spec.type.toNat 0xFFFFFFFF spec.sec h r₁
    generalize attachCoveringRrsig S spec.sec img spec.owner spec.type.toNat 0xFFFFFFFF
      (img.rrsAt id) r₁ = res at hsig ⊢
    obtain ⟨_ | _, r₂⟩ := res
    · -- the set stays without its signatures
      obtain ⟨ds, -, hgrew, -, hfull⟩ := hsig
      have hback := hw.grew.trans (hgrew.restore S)
      rw [spec.singles_flatten, append_nil] at hback
      cases hm : spec.mode with
      | none => exact absurd (.inl hm) hmode
      | required =>
        exact .inl ⟨false,
          ⟨_, spec.emits_chunk hrec, by simpa using hback, by simp,
            fun _ => ⟨(hfull rfl).1, hsome hrec⟩⟩, rfl⟩
      | optional => exact .inr ⟨rfl, hrec, rfl, hback⟩
    · exact .inl ⟨true,
        (hw.seq hsig).regroup
          (by rw [hset, flatten_append, sigChunks_flatten, spec.singles_flatten]), rfl⟩

/-- What `emit_rrset` writes of a set that must be signed or is not signed at all. -/
lemma emitRrset_writes {img : ZoneImage} (S : Sink σ) (spec : RrsetSpec) {id : Option Nat}
    (h : img.Holds (img.rrsAt id)) (hmode : spec.mode ≠ .optional) (r : Resp σ) :
    ∃ ok, Writes S spec.sec (spec.chunks img (img.rrsAt id)) ok r (emitRrset S img id spec r).2 ∧
      (emitRrset S img id spec r).1 = if ok then
        some (spec.records img (img.rrsAt id)).length else none :=
  (emitRrset_cases S spec h r).resolve_right fun hopt => hmode hopt.1

/-! ### Denial -/

/-- A record of a proof, and behind it its signatures. -/
def Denial.chunks (d : Denial) (rr : ImageRr) : List (List Emit) :=
  d.img.emit rr none (d.ttl.getD rr.ttl) ::
    sigChunks d.img none rr.type.toNat 0xFFFFFFFF (d.img.rrsAt (some rr.nameId))

/-- The records of a proof, each once. -/
def denialChunks : List Denial → List (Nat × Nat) → List (List Emit)
  | [], _ => []
  | d :: rest, attached =>
    match d.place with
    | none => denialChunks rest attached
    | some (k, rr) =>
      if (d.zone, k) ∈ attached then denialChunks rest attached
      else d.chunks rr ++ denialChunks rest (attachedWith attached (d.zone, k))

lemma denialChunks_flatten : ∀ (ds : List Denial) (attached : List (Nat × Nat)),
    (denialChunks ds attached).flatten = denialEmits ds attached
  | [], _ => rfl
  | d :: rest, attached => by
    have ih := denialChunks_flatten rest
    rw [denialChunks, denialEmits]
    cases d.place with
    | none => exact ih attached
    | some p =>
      obtain ⟨k, rr⟩ := p
      dsimp only
      split
      · exact ih attached
      · rw [flatten_append, ih, Denial.chunks, Denial.emits, flatten_cons, sigChunks_flatten]

/-- What `attach_denial_record` does. -/
lemma attachDenialRecord_writes (S : Sink σ) {d : Denial} (h : d.img.Loaded)
    (attached : List (Nat × Nat)) (r : Resp σ) :
    (∃ k rr, d.place = some (k, rr) ∧ (d.zone, k) ∉ attached ∧
        ∃ ok r', attachDenialRecord S d.zone d.img d.rr d.ttl attached r =
            (ok, attachedWith attached (d.zone, k), r') ∧
              Writes S .authority (d.chunks rr) ok r r') ∨
      (attachDenialRecord S d.zone d.img d.rr d.ttl attached r = (true, attached, r) ∧
        ∀ k rr, d.place = some (k, rr) → (d.zone, k) ∈ attached) := by
  rw [attachDenialRecord]
  cases hp : d.rr.bind fun k => (d.img.rrs[k]?).map (k, ·) with
  | none =>
    refine .inr ⟨rfl, ?_⟩
    intro k rr hk
    rw [Denial.place, hp] at hk
    cases hk
  | some p =>
    obtain ⟨k, rr⟩ := p
    have hplace : d.place = some (k, rr) := hp
    by_cases hmem : (d.zone, k) ∈ attached
    · refine .inr ⟨by simp [hmem], ?_⟩
      intro k' rr' hk'
      rw [hplace] at hk'
      cases hk'
      exact hmem
    refine .inl ⟨k, rr, hplace, hmem, ?_⟩
    obtain ⟨nm, hnm⟩ := h.rrName (Denial.place_rr hplace).2
    have hw := writeRr_writes hnm S .authority none (d.ttl.getD rr.ttl) r
    simp only [if_neg hmem]
    rw [Denial.chunks, ← singleton_append]
    generalize r.writeRr S .authority d.img rr none (d.ttl.getD rr.ttl) = res at hw ⊢
    obtain ⟨_ | _, r₁⟩ := res
    · exact ⟨false, r₁, rfl, hw.stop (sublist_append_left _ _)⟩
    exact ⟨_, _, rfl, hw.seq (attachCoveringRrsig_writes S none rr.type.toNat 0xFFFFFFFF .authority
      (h.holds (some rr.nameId)) r₁)⟩

lemma attachDenials_writes (S : Sink σ) : ∀ {ds : List Denial}, (∀ d ∈ ds, d.img.Loaded) →
    ∀ (attached : List (Nat × Nat)) (r : Resp σ),
      Writes S .authority (denialChunks ds attached) (attachDenials S ds attached r).1 r
        (attachDenials S ds attached r).2
  | [], _, attached, r => .nil S .authority r
  | d :: rest, h, attached, r => by
    have ih := attachDenials_writes S fun d' hd' => h d' (mem_cons_of_mem _ hd')
    rw [attachDenials, denialChunks]
    rcases attachDenialRecord_writes S (h d mem_cons_self) attached r with
      ⟨k, rr, hplace, hmem, ok, r', hres, hw⟩ | ⟨hres, hold⟩
    · rw [hres, hplace]
      simp only [if_neg hmem]
      cases ok with
      | false => exact hw.stop (sublist_append_left _ _)
      | true => exact hw.seq (ih _ r')
    rw [hres]
    cases hp : d.place with
    | none => exact ih attached r
    | some p =>
      obtain ⟨k, rr⟩ := p
      simp only [if_pos (hold k rr hp)]
      exact ih attached r

end KariDns
