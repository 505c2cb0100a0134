import KariDns.Wire.Script

/-! What a script stores.

Every action leaves the octets before the write offset alone (`run_grows`). A script whose
actions do not depend on the compression table stores one fixed run of octets, its
`emission`, whenever that run fits, and otherwise fails with the table unchanged
(`run_plain`): neither the place nor the table has a say in what it writes.
-/

namespace KariDns

open Octets DomainName List

variable {hasCtx : Bool} {r r' : Bool × Out} {ctx : CompressCtx} {n : Name} {maxLen : Nat}
    {o : Option (List UInt8)}
  {w : Out} {s t : Script}

/-! ### Octets before the write offset -/

/-- `w'` continues `w`: it differs only at and past the write offset of `w`. -/
structure Grows (w w' : Out) : Prop where
  agree : AgreeOn 0 w.offset w.buf w'.buf
  le : w.offset ≤ w'.offset

lemma Grows.refl (w : Out) : Grows w w := ⟨fun _ _ _ => rfl, Nat.le_refl _⟩

lemma Grows.trans {w' w'' : Out} (h : Grows w w') (h' : Grows w' w'') : Grows w w'' := by
  refine ⟨fun i h0 hi => ?_, Nat.le_trans h.le h'.le⟩
  rw [h.agree i h0 hi, h'.agree i h0 (Nat.lt_of_lt_of_le hi h.le)]

lemma grows_put (w : Out) (bs : List UInt8) : Grows w (w.put bs) :=
  ⟨fun _ _ hi => (blit_lt hi).symm, by simp⟩

lemma writeNameLoop_grows : ∀ {fuel : Nat} {t : Text} {w : Out}, Grows w
    (writeNameLoop maxLen fuel t w).2
  | 0, _, w => Grows.refl w
  | fuel + 1, t, w => by
    have hput : ∀ l : Label, Grows w (if l = [] then w else w.put (labelWire l)) := by
      intro l
      split
      · exact Grows.refl w
      · exact grows_put _ _
    rw [writeNameLoop]
    rcases parseLabel [] t with _ | ⟨l, next⟩
    · exact Grows.refl w
    dsimp only
    split
    · exact Grows.refl w
    cases next with
    | none => exact hput l
    | some rest => exact (hput l).trans writeNameLoop_grows

lemma writeUncompressedNameExt_grows {t : Text} :
    Grows w (writeUncompressedNameExt maxLen t w).2 := by
  have hloop : Grows w (writeNameLoop maxLen (t.length + 1) t w).2 := writeNameLoop_grows
  unfold writeUncompressedNameExt
  generalize writeNameLoop maxLen (t.length + 1) t w = r at hloop
  obtain ⟨_ | _, w'⟩ := r
  · exact hloop
  dsimp only at hloop ⊢
  split_ifs
  · exact hloop
  · exact hloop.trans (grows_put _ _)
  · exact hloop.trans (grows_put _ _)

lemma packName_grows : Grows w (packName maxLen n w ctx).2 := by
  unfold packName compressName
  split_ifs
  · exact ⟨fun _ _ _ => rfl, Nat.le_refl _⟩
  obtain ⟨hag, hle⟩ :=
    compressLabels_frame (show compressLabels maxLen n ⟨w.buf, w.offset, ctx⟩ = (_, _) from rfl)
  exact ⟨hag, hle⟩

lemma exec_grows (a : Act) : Grows w (a.exec maxLen w).2 := by
  cases a with
  | need n => exact Grows.refl w
  | put bs =>
    rw [Act.exec]
    split
    · exact Grows.refl w
    · exact grows_put _ _
  | copyName n =>
    rw [Act.exec]
    split
    · exact Grows.refl w
    · exact grows_put _ _
  | textName t => exact writeUncompressedNameExt_grows
  | dnsName t =>
    cases h : w.ctx with
    | none =>
      rw [Act.exec, writeDnsNameStr_none h]
      exact writeUncompressedNameExt_grows
    | some ctx =>
      rw [Act.exec, writeDnsNameStr_some h]
      split
      · exact Grows.refl w
      · exact packName_grows
  | packName n =>
    rw [Act.exec]
    split
    · exact Grows.refl w
    · exact packName_grows
  | fail => exact Grows.refl w

/-- A run leaves everything before its first write offset alone, failed runs included. -/
lemma run_grows {maxLen : Nat} : ∀ (s : Script) (w : Out), Grows w (run maxLen s w).2
  | [], w => Grows.refl w
  | a :: s, w => by
    rw [run_cons]
    split
    · exact (exec_grows a).trans (run_grows s _)
    · exact exec_grows a

/-! ### Scripts without compression -/

/-- Actions whose stores do not depend on the compression table. -/
def Act.plain (hasCtx : Bool) : Act → Bool
  | .put _ | .copyName _ | .textName _ | .fail => true
  | .dnsName _ => !hasCtx
  | .need _ | .packName _ => false

/-- The octets an action stores, `none` when it gives up. -/
def Act.emission : Act → Option (List UInt8)
  | .need _ => some []
  | .put bs => some bs
  | .copyName n | .packName n => some (wire n)
  | .textName t | .dnsName t => (readName t).map wire
  | .fail => none

/-- The octets a script stores when every name is written in full. -/
def emission : Script → Option (List UInt8)
  | [] => some []
  | a :: s => a.emission.bind fun as => (emission s).map (as ++ ·)

/-- A plain action stores its emission if it fits. -/
lemma exec_plain {a : Act} (hw : w.offset ≤ maxLen) (ha : a.plain w.ctx.isSome = true) :
    Outcome maxLen w a.emission (a.exec maxLen w) := by
  have hstore : ∀ bs : List UInt8, Outcome maxLen w (some bs)
      (if w.offset + bs.length > maxLen then (false, w) else (true, w.put bs)) := by
    intro bs
    by_cases h : w.offset + bs.length ≤ maxLen
    · rw [if_neg (by omega)]
      exact (outcome_fits h).mpr rfl
    · rw [if_pos (by omega)]
      exact (outcome_full h).mpr ⟨rfl, rfl⟩
  cases a with
  | need n => cases ha
  | put bs => exact hstore bs
  | copyName n => exact hstore (wire n)
  | textName t => exact writeUncompressedNameExt_outcome hw
  | dnsName t =>
    have hctx : w.ctx = none := by simpa [Act.plain] using ha
    rw [Act.exec, writeDnsNameStr_none hctx]
    exact writeUncompressedNameExt_outcome hw
  | packName n => cases ha
  | fail => exact ⟨rfl, rfl⟩

/-- The rest of a script after one action with a known outcome. -/
lemma Outcome.bind {o' : Option (List UInt8)} (h : Outcome maxLen w o r)
    (hnext : ∀ bs, o = some bs → w.offset + bs.length ≤ maxLen → r = (true, w.put bs) →
      Outcome maxLen (w.put bs) o' r')
    (hfail : r.1 = false → r' = r) : Outcome maxLen w (o.bind fun as => o'.map (as ++ ·)) r' := by
  cases o with
  | none =>
    obtain ⟨hr, hctx⟩ := outcome_none.mp h
    rw [hfail hr]
    exact ⟨hr, hctx⟩
  | some bs =>
    rw [Option.bind_some]
    by_cases hfit : w.offset + bs.length ≤ maxLen
    · exact (hnext bs rfl hfit ((outcome_fits hfit).mp h)).append
    obtain ⟨hr, hctx⟩ := (outcome_full hfit).mp h
    obtain ⟨ok, w'⟩ := r
    rw [hfail hr]
    obtain rfl : ok = false := hr
    exact Outcome.full o' hfit hctx

/-- A plain script stores its emission if it fits and otherwise fails without a trace in the
table. -/
lemma run_plain : ∀ {s : Script} {w : Out}, w.offset ≤ maxLen →
    (∀ a ∈ s, a.plain w.ctx.isSome = true) → Outcome maxLen w (emission s) (run maxLen s w)
  | [], w, hw, _ => (outcome_fits (by simpa using hw)).mpr (by simp)
  | a :: s, w, hw, hs => by
    rw [emission, run_cons]
    refine (exec_plain hw (hs a mem_cons_self)).bind (fun bs _ hfit hr => ?_) fun hf => ?_
    · rw [hr, if_pos rfl]
      exact run_plain hfit fun b hb => hs b (mem_cons_of_mem _ hb)
    · rw [if_neg (by simp [hf])]

/-- A room check that asks for no more than what follows stores anyway changes nothing. -/
lemma outcome_need {n : Nat} (hn : ∀ bs, o = some bs → n ≤ bs.length)
    (h : Outcome maxLen w o (run maxLen s w)) :
    Outcome maxLen w o (run maxLen (.need n :: s) w) := by
  rw [run_cons, Act.exec]
  by_cases hroom : w.offset + n ≤ maxLen
  · simpa [hroom] using h
  simp only [hroom, decide_false, Bool.false_eq_true, if_false]
  cases o with
  | none => exact ⟨rfl, rfl⟩
  | some bs =>
    have := hn bs rfl
    exact (outcome_full (by omega)).mpr ⟨rfl, rfl⟩

lemma emission_append (s t : Script) : emission (s ++ t) = (emission s).bind fun as =>
    (emission t).map (as ++ ·) := by
  induction s with
  | nil => simp [emission]
  | cons a s ih =>
    rw [cons_append, emission, emission, ih]
    cases a.emission <;> cases emission s <;> cases emission t <;> simp

/-! ### Scripts that cannot be told apart -/

/-- Two runs with one result: the same return value, the same table, and after success the
same output altogether. What two failed runs left past the write offset may differ. -/
structure SameRun (r r' : Bool × Out) : Prop where
  ok : r.1 = r'.1
  out : r.1 = true → r.2 = r'.2
  ctx : r.2.ctx = r'.2.ctx

lemma SameRun.refl (r : Bool × Out) : SameRun r r := ⟨rfl, fun _ => rfl, rfl⟩

lemma SameRun.symm (h : SameRun r r') : SameRun r' r :=
  ⟨h.ok.symm, fun hr => (h.out (h.ok.trans hr)).symm, h.ctx.symm⟩

lemma SameRun.trans {r'' : Bool × Out} (h : SameRun r r') (h' : SameRun r' r'') : SameRun r r'' :=
  ⟨h.ok.trans h'.ok, fun hr => (h.out hr).trans (h'.out (h.ok ▸ hr)), h.ctx.trans h'.ctx⟩

/-- What an outcome describes is determined up to `SameRun`. -/
lemma Outcome.same (h : Outcome maxLen w o r) (h' : Outcome maxLen w o r') : SameRun r r' := by
  have hfail : ∀ {r r' : Bool × Out}, r.1 = false ∧ r.2.ctx = w.ctx →
      r'.1 = false ∧ r'.2.ctx = w.ctx → SameRun r r' := by
    rintro r r' ⟨h1, h2⟩ ⟨h3, h4⟩
    exact ⟨h1.trans h3.symm, fun hr => absurd hr (by simp [h1]), h2.trans h4.symm⟩
  cases o with
  | none => exact hfail h h'
  | some bs =>
    by_cases hfit : w.offset + bs.length ≤ maxLen
    · rw [(outcome_fits hfit).mp h, (outcome_fits hfit).mp h']
      exact SameRun.refl _
    · exact hfail ((outcome_full hfit).mp h) ((outcome_full hfit).mp h')

/-- No action takes the context away or brings one in. -/
lemma exec_isSome (hw : w.offset ≤ maxLen) (a : Act) :
    (a.exec maxLen w).2.ctx.isSome = w.ctx.isSome := by
  have hout : ∀ {o : Option (List UInt8)} {r : Bool × Out}, Outcome maxLen w o r →
      r.2.ctx = w.ctx := by
    intro o r h
    cases o with
    | none => exact h.2
    | some bs =>
      by_cases hfit : w.offset + bs.length ≤ maxLen
      · rw [(outcome_fits hfit).mp h]
        rfl
      · exact ((outcome_full hfit).mp h).2
  cases a with
  | need n => rfl
  | put bs => rw [hout (exec_plain hw rfl)]
  | copyName n => rw [hout (exec_plain hw rfl)]
  | textName t => rw [hout (exec_plain hw rfl)]
  | fail => rfl
  | dnsName t =>
    cases h : w.ctx with
    | none => rw [hout (exec_plain hw (by simp [Act.plain, h])), h]
    | some ctx =>
      rw [Act.exec, writeDnsNameStr_some h]
      split
      · rw [h]
      · rfl
  | packName n =>
    rw [Act.exec]
    split
    · rfl
    rename_i ctx h
    rw [h]
    rfl

lemma packName_le (hw : w.offset ≤ maxLen) : (packName maxLen n w ctx).2.offset ≤ maxLen := by
  unfold packName compressName
  split_ifs
  · exact hw
  · exact compressLabels_le hw

/-- An action that succeeds ends within the buffer. -/
lemma exec_le (hw : w.offset ≤ maxLen) {a : Act} (h : (a.exec maxLen w).1 = true) :
    (a.exec maxLen w).2.offset ≤ maxLen := by
  have hout : ∀ {o : Option (List UInt8)} {r : Bool × Out}, Outcome maxLen w o r →
      r.1 = true → r.2.offset ≤ maxLen := by
    intro o r hr htrue
    cases o with
    | none => exact absurd htrue (by simp [hr.1])
    | some bs =>
      by_cases hfit : w.offset + bs.length ≤ maxLen
      · rw [(outcome_fits hfit).mp hr]
        exact hfit
      · exact absurd htrue (by simp [((outcome_full hfit).mp hr).1])
  cases a with
  | need n => exact hw
  | put bs => exact hout (exec_plain hw rfl) h
  | copyName n => exact hout (exec_plain hw rfl) h
  | textName t => exact hout (exec_plain hw rfl) h
  | fail => exact hw
  | dnsName t =>
    cases hc : w.ctx with
    | none => exact hout (exec_plain hw (by simp [Act.plain, hc])) h
    | some ctx =>
      rw [Act.exec, writeDnsNameStr_some hc]
      split
      · exact hw
      · exact packName_le hw
  | packName n =>
    rw [Act.exec]
    split
    · exact hw
    · exact packName_le hw

/-- Scripts with one result wherever there is (or is not) a compression context. -/
def ScriptEquiv (hasCtx : Bool) (s t : Script) : Prop :=
  ∀ maxLen w, w.ctx.isSome = hasCtx → w.offset ≤ maxLen → SameRun (run maxLen s w) (run maxLen t w)

lemma ScriptEquiv.refl (hasCtx : Bool) (s : Script) : ScriptEquiv hasCtx s s :=
  fun _ _ _ _ => SameRun.refl _

lemma ScriptEquiv.symm (h : ScriptEquiv hasCtx s t) : ScriptEquiv hasCtx t s :=
  fun maxLen w hc hw => (h maxLen w hc hw).symm

lemma ScriptEquiv.trans {u : Script} (h : ScriptEquiv hasCtx s t) (h' : ScriptEquiv hasCtx t u) :
    ScriptEquiv hasCtx s u :=
  fun maxLen w hc hw => (h maxLen w hc hw).trans (h' maxLen w hc hw)

lemma ScriptEquiv.cons {hasCtx : Bool} {s t : Script} (a : Act) (h : ScriptEquiv hasCtx s t) :
    ScriptEquiv hasCtx (a :: s) (a :: t) := by
  intro maxLen w hc hw
  rw [run_cons, run_cons]
  split
  · rename_i hok
    exact h maxLen _ ((exec_isSome hw a).trans hc) (exec_le hw hok)
  · exact SameRun.refl _

lemma run_isSome {maxLen : Nat} : ∀ {s : Script} {w : Out}, w.offset ≤ maxLen →
    (run maxLen s w).2.ctx.isSome = w.ctx.isSome
  | [], w, _ => rfl
  | a :: s, w, hw => by
    rw [run_cons]
    split
    · rename_i hok
      rw [run_isSome (exec_le hw hok), exec_isSome hw a]
    · exact exec_isSome hw a

lemma run_le {maxLen : Nat} : ∀ {s : Script} {w : Out}, w.offset ≤ maxLen →
    (run maxLen s w).1 = true → (run maxLen s w).2.offset ≤ maxLen
  | [], w, hw, _ => hw
  | a :: s, w, hw, h => by
    rw [run_cons] at h ⊢
    split at h
    · rename_i hok
      rw [if_pos hok]
      exact run_le (exec_le hw hok) h
    · rename_i hok
      exact absurd h hok

lemma ScriptEquiv.append {s' t' : Script} (h : ScriptEquiv hasCtx s s')
    (h' : ScriptEquiv hasCtx t t') :
    ScriptEquiv hasCtx (s ++ t) (s' ++ t') := by
  intro maxLen w hc hw
  have hs := h maxLen w hc hw
  rw [run_append, run_append, ← hs.ok]
  split
  · rename_i hok
    rw [← hs.out hok]
    exact h' maxLen _ ((run_isSome hw).trans hc) (run_le hw hok)
  · exact hs

end KariDns
