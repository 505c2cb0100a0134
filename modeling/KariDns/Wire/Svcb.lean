import KariDns.Image.Thaw

/-! Service bindings (RFC 9460), from the text of a record to its RDATA.

The writer collects the parameters, refuses a key that comes twice and sorts them. What it does not
look at is the text of a single parameter: a name that it does not know is passed over, and a value
may be missing where one is needed.
-/

namespace KariDns

open Octets DomainName List Option

/-! ### Well-formed parameters -/

/-- The value has the form that RFC 9460 asks for under its key; `keys` are the keys of the
record. -/
def SvcValueOk (keys : List Nat) (key : Nat) (v : List UInt8) : Prop :=
  (key = 0 → ∃ ks : List Nat, ks ≠ [] ∧ ks.Pairwise (· < ·) ∧ (∀ k ∈ ks, k ≠ 0 ∧ k ∈ keys) ∧
    v = ks.flatMap be16) ∧
    (key = 1 → ∃ ids : List Text, ids ≠ [] ∧ (∀ i ∈ ids, i ≠ [] ∧ i.length ≤ 255) ∧
      v = stringsWire ids) ∧
    (key = 2 → v = []) ∧ (key = 3 → v.length = 2) ∧ (key = 4 → v ≠ [] ∧ 4 ∣ v.length) ∧
    (key = 6 → v ≠ [] ∧ 16 ∣ v.length)

structure SvcParamsOk (ps : List (Nat × List UInt8)) : Prop where
  increasing : (ps.map Prod.fst).Pairwise (· < ·)
  valid : 65535 ∉ ps.map Prod.fst
  values : ∀ p ∈ ps, SvcValueOk (ps.map Prod.fst) p.1 p.2

/-- Parameters, one behind the other. -/
def paramsWire (ps : List (Nat × List UInt8)) : List UInt8 :=
  ps.flatMap fun p => be16 p.1 ++ be16 p.2.length ++ p.2

/-! ### One parameter -/

section Parameter
variable (t : Text)

/-- The text of the value without the quotes around it. -/
def svcText : Option Text := (splitAt 61 t).2.map unquote

/-- A parameter as the writer stores it. -/
def svcEntry : Option (Nat × List UInt8) :=
  (svcKey ((splitAt 61 t).1.take 63)).join.bind fun key =>
    ((svcText t).elim (some []) (svcValue key)).map (key, ·)

/-- A parameter as it is meant: the name of a key has at most 63 octets (RFC 9460 2.1). -/
def svcMeant : Option (Nat × List UInt8) :=
  if (splitAt 61 t).1.length ≤ 63 then svcEntry t else none

/-- There is a value where one is needed, and none where none is allowed. -/
def svcSuits (key : Nat) (v : Text) : Bool :=
  if key = 1 then unquote v ≠ [] ∧ [] ∉ (commaPieces (unquote v)).map unquote
  else if key = 2 then unquote v = []
  else key ∈ [0, 3, 4, 6] → v ≠ []

/-- The text means a parameter, and the value suits the key. -/
def svcSound : Bool := (svcMeant t).any fun p => svcSuits p.1 ((svcText t).getD [])

end Parameter

/-! ### Values -/

section Values
variable {t v : Text} {key : Nat} {bs : List UInt8} {keys ks : List Nat}

lemma splitOn_ne_nil (c : UInt8) : ∀ t : Text, splitOn c t ≠ []
  | [] => by simp [splitOn]
  | d :: t => by
    rw [splitOn]
    split
    · simp
    · split <;> simp

lemma commaPieces_eq_nil : commaPieces t = [] ↔ t = [] := by
  refine ⟨fun h => ?_, fun h => by rw [h]; rfl⟩
  cases t with
  | nil => rfl
  | cons d t =>
    obtain ⟨p, ps, hp⟩ := exists_cons_of_ne_nil (splitOn_ne_nil 44 t)
    rw [commaPieces, splitOn, hp] at h
    by_cases hd : d = 44
    · simp [hd] at h
      split at h <;> cases h
    · cases ps <;> simp [hd] at h
      split at h <;> cases h

lemma mandatoryKeys_some (h : mandatoryKeys v = some ks) :
    ks.Nodup ∧ 0 ∉ ks ∧ (ks = [] ↔ v = []) := by
  obtain ⟨l, hl, h⟩ := bind_eq_some_iff.mp h
  obtain ⟨hno, h⟩ := ite_none_left_eq_some.mp h
  cases h
  refine ⟨by_contra fun hd => hno (.inr hd), fun h0 => ?_, ?_⟩
  · obtain ⟨p, -, hp⟩ := mapM_mem hl h0
    have hnames : ∀ e ∈ svcKeyNames, e.2 ≠ 0 := by decide
    obtain ⟨-, hp⟩ := ite_none_left_eq_some.mp hp
    split at hp
    · rename_i e he
      exact hnames e (mem_of_find?_eq_some he) (some.inj hp)
    obtain ⟨-, hp⟩ := ite_none_right_eq_some.mp hp
    obtain ⟨hpos, hp⟩ := ite_none_left_eq_some.mp hp
    have := some.inj hp
    omega
  · rw [← length_eq_zero_iff, ← mapM_length hl, length_eq_zero_iff, commaPieces_eq_nil]

lemma hintWire_some {pton : Text → Option (List UInt8)} {n : Nat} (hn : n ≠ 0)
    (hpton : ∀ {t a}, pton t = some a → a.length = n) (h : hintWire pton v = some bs) :
    n ∣ bs.length ∧ (bs = [] ↔ v = []) := by
  obtain ⟨addrs, haddrs, h⟩ := bind_eq_some_iff.mp h
  obtain ⟨-, h⟩ := ite_none_left_eq_some.mp h
  cases h
  have hall : ∀ a ∈ addrs, a.length = n := by
    intro a ha
    obtain ⟨p, -, hp⟩ := mapM_mem haddrs ha
    exact hpton (ite_none_left_eq_some.mp hp).2
  have hlen : addrs.flatten.length = addrs.length * n := by
    simp [length_flatten, map_congr_left hall]
  rw [← length_eq_zero_iff, hlen, ← mapM_length haddrs, Nat.mul_eq_zero, or_iff_left hn,
    length_eq_zero_iff, commaPieces_eq_nil]
  exact ⟨Dvd.intro_left _ rfl, .rfl⟩

lemma alpnWire_some (h : alpnWire v = some bs) :
    bs = stringsWire ((commaPieces (unquote v)).map unquote) ∧
      ∀ i ∈ (commaPieces (unquote v)).map unquote, i.length ≤ 255 := by
  rw [alpnWire] at h
  dsimp only [bind_eq_bind] at h
  split at h
  · cases h
  rename_i hlong
  split at h
  · cases h
  cases h
  exact ⟨rfl, by simpa using hlong⟩

lemma svcSound_iff : svcSound t = true ↔ ∃ p, svcMeant t = some p ∧ svcSuits p.1
    ((svcText t).getD []) = true := by
  cases h : svcMeant t <;> simp [svcSound, h]

lemma svcMeant_entry {p : Nat × List UInt8} (h : svcMeant t = some p) : svcEntry t = some p :=
  (ite_none_right_eq_some.mp h).2

/-- A missing value is stored as an empty one, but for two keys. -/
lemma svcValue_missing {o : Option Text} (h3 : key ≠ 3) (h5 : key ≠ 5)
    (h : o.elim (some []) (svcValue key) = some bs) :
    svcValue key (o.getD []) = some bs := by
  cases o with
  | none =>
    cases h
    rw [svcValue, getD_none, if_neg h3, if_neg h5,
      if_neg (show ¬ (unquote []).length > 4096 by decide)]
    split_ifs <;> rfl
  | some v => exact h

/-- What is stored is well-formed exactly if the text suits the key; `mandatory` apart. -/
lemma svcValue_ok {o : Option Text} (h : o.elim (some []) (svcValue key) = some bs) (h0 : key ≠ 0) :
    SvcValueOk keys key bs ↔ svcSuits key (o.getD []) = true := by
  by_cases h3 : key = 3
  · subst h3
    cases o with
    | none =>
      cases h
      simp [SvcValueOk, svcSuits]
    | some v =>
      obtain ⟨n, hn, rfl⟩ := map_eq_some_iff.mp h
      have hv : v ≠ [] := by
        rintro rfl
        cases hn
      simp [SvcValueOk, svcSuits, hv]
  by_cases h5 : key = 5
  · simp [SvcValueOk, svcSuits, h5]
  replace h := svcValue_missing h3 h5 h
  generalize o.getD [] = v at h ⊢
  by_cases h1 : key = 1
  · subst h1
    obtain ⟨rfl, hshort⟩ := alpnWire_some h
    rw [svcSuits, if_pos rfl, decide_eq_true_eq, Ne, ← commaPieces_eq_nil,
      ← map_eq_nil_iff (f := unquote)]
    generalize (commaPieces (unquote v)).map unquote = ids at hshort ⊢
    simp only [SvcValueOk, OfNat.one_ne_ofNat, one_ne_zero, false_imp_iff, forall_const, true_and,
      and_true]
    constructor
    · rintro ⟨ids', hne, hids, hwire⟩
      obtain rfl := stringsWire_inj (by decide) hshort (fun i hi => (hids i hi).2) hwire
      exact ⟨hne, fun h => (hids [] h).1 rfl⟩
    · rintro ⟨hne, hnil⟩
      exact ⟨ids, hne, fun i hi => ⟨fun h => hnil (h ▸ hi), hshort i hi⟩, rfl⟩
  by_cases h2 : key = 2
  · subst h2
    obtain ⟨-, h⟩ :=
      ite_none_left_eq_some.mp
        (show (if (unquote v).length > 4096 then none else _) = some bs from h)
    simp [SvcValueOk, svcSuits, some.inj h]
  by_cases h4 : key = 4
  · subst h4
    obtain ⟨hdvd, hnil⟩ := hintWire_some (by decide) inetPton4_length h
    simp [SvcValueOk, svcSuits, hdvd, hnil]
  by_cases h6 : key = 6
  · subst h6
    obtain ⟨hdvd, hnil⟩ := hintWire_some (by decide) inetPton6_length h
    simp [SvcValueOk, svcSuits, hdvd, hnil]
  · simp [SvcValueOk, svcSuits, h0, h1, h2, h3, h4, h6]

end Values

/-! ### The loop -/

section Loop
variable {st st' : SvcState} {t : Text} {ts : List Text} {ps : List (Nat × List UInt8)}

lemma svcKey_le {t : Text} {key : Nat} (h : svcKey t = some (some key)) : key ≤ 65535 := by
  rw [svcKey] at h
  split at h
  · cases h
    omega
  split at h
  · rename_i e he
    have hnames : ∀ e ∈ svcKeyNames, e.2 ≤ 65535 := by decide
    cases h
    exact hnames e (mem_of_find?_eq_some he)
  split at h
  · obtain ⟨hle, h⟩ := ite_none_left_eq_some.mp h
    cases h
    omega
  · cases h

lemma svcStep_cases (h : svcStep st t = some st') : (svcEntry t = none ∧ st' = st) ∨
      ∃ p, svcEntry t = some p ∧ p.1 < 65535 ∧ p.1 ∉ st.params.map Prod.fst ∧ p.2.length ≤ 8192 ∧
        st'.params = st.params ++ [p] ∧
        st'.mandatory = if p.1 = 0 then ((svcText t).bind mandatoryKeys).or st.mandatory
          else st.mandatory := by
  unfold svcStep at h
  dsimp only [bind_eq_bind] at h
  obtain ⟨-, h⟩ := ite_none_left_eq_some.mp h
  obtain ⟨o, hkey, h⟩ := bind_eq_some_iff.mp h
  rw [svcEntry, hkey]
  cases o with
  | none => exact .inl ⟨rfl, (some.inj h).symm⟩
  | some key =>
    have hle := svcKey_le hkey
    dsimp only at h
    obtain ⟨hfree, h⟩ := ite_none_left_eq_some.mp h
    simp only [not_or] at hfree
    have hlt : key < 65535 := by omega
    rw [← svcText] at h
    cases hv : svcText t with
    | none =>
      simp only [hv, bind_some] at h
      obtain ⟨-, h⟩ := ite_none_left_eq_some.mp h
      cases h
      exact .inr ⟨(key, []), rfl, hlt, hfree.2.2, by simp, rfl, by simp⟩
    | some v =>
      simp only [hv] at h
      obtain ⟨bs, hbs, h⟩ := bind_eq_some_iff.mp h
      obtain ⟨hfit, h⟩ := ite_none_left_eq_some.mp h
      refine .inr ⟨(key, bs), by simp [hbs], hlt, hfree.2.2, by simp at hfit ⊢; omega, ?_⟩
      dsimp only at h ⊢
      split at h
      · rename_i h0
        obtain ⟨m, hm, h⟩ := bind_eq_some_iff.mp h
        obtain ⟨ks, hks, rfl⟩ := map_eq_some_iff.mp hm
        cases h
        simp [h0, hks]
      rename_i h0
      cases h
      simp [h0]

/-- What the loop has collected from the texts `ts`. -/
structure SvcState.Collects (st : SvcState) (ts : List Text) : Prop where
  params : st.params = ts.filterMap svcEntry
  nodup : (st.params.map Prod.fst).Nodup
  bounds : ∀ p ∈ st.params, p.1 < 65535 ∧ p.2.length ≤ 8192
  mandatory : ∀ t ∈ ts, ∀ bs, svcEntry t = some (0, bs) →
    st.mandatory = (svcText t).bind mandatoryKeys
  unset : 0 ∉ st.params.map Prod.fst → st.mandatory = none

lemma SvcState.Collects.step (h : st.Collects ts) (hs : svcStep st t = some st') :
    st'.Collects (ts ++ [t]) := by
  rcases svcStep_cases hs with ⟨hnone, rfl⟩ | ⟨⟨key, bs⟩, hentry, hlt, hnew, hfit, hparams, hmand⟩
  · refine ⟨by simp [h.params, hnone], h.nodup, h.bounds, ?_, h.unset⟩
    exact forall_mem_append.mpr ⟨h.mandatory, forall_mem_singleton.mpr (by simp [hnone])⟩
  have hkeys : st'.params.map Prod.fst = st.params.map Prod.fst ++ [key] := by simp [hparams]
  refine ⟨by simp [hparams, h.params, hentry], ?_, ?_, ?_, ?_⟩
  · rw [hkeys]
    simpa using h.nodup.concat hnew
  · rw [hparams]
    exact forall_mem_append.mpr ⟨h.bounds, forall_mem_singleton.mpr ⟨hlt, hfit⟩⟩
  · rw [hmand]
    refine forall_mem_append.mpr ⟨fun u hu cs hcs => ?_, forall_mem_singleton.mpr fun cs hcs => ?_⟩
    · have h0 : key ≠ 0 := by
        rintro rfl
        refine hnew ?_
        rw [h.params]
        exact mem_map.mpr ⟨_, mem_filterMap.mpr ⟨u, hu, hcs⟩, rfl⟩
      rw [if_neg h0]
      exact h.mandatory u hu cs hcs
    · cases hentry.symm.trans hcs
      rw [if_pos rfl, h.unset hnew, or_none]
  rw [hkeys, hmand, mem_append, not_or, mem_singleton]
  intro h0
  rw [if_neg (Ne.symm h0.2), h.unset h0.1]

lemma SvcState.Collects.run : ∀ {us ts : List Text} {st : SvcState}, st.Collects ts →
    us.foldlM svcStep st = some st' →
    st'.Collects (ts ++ us)
  | [], ts, st, h, hr => by
    cases hr
    rwa [append_nil]
  | u :: us, ts, st, h, hr => by
    obtain ⟨st₁, hs, hr⟩ := bind_eq_some_iff.mp (foldlM_cons.symm.trans hr)
    rw [append_cons]
    exact run (h.step hs) hr

/-- A value of `mandatory`, whose keys are all there. -/
lemma mandatory_ok {o : Option Text} {bs : List UInt8} {keys : List Nat}
    (h : o.elim (some []) (svcValue 0) = some bs)
    (hthere : ∀ k ∈ (o.bind mandatoryKeys).getD [], k ∈ keys) :
    SvcValueOk keys 0 bs ↔ svcSuits 0 (o.getD []) = true := by
  obtain ⟨ks, hks, rfl⟩ := map_eq_some_iff.mp (svcValue_missing (by decide) (by decide) h)
  obtain ⟨hnodup, h0, hnil⟩ := mandatoryKeys_some hks
  have hlist : (o.bind mandatoryKeys).getD [] = ks := by
    cases o with
    | none => exact some.inj hks
    | some v => simp [show mandatoryKeys v = _ from hks]
  rw [hlist] at hthere
  have hperm := perm_insertionSort (· ≤ ·) ks
  have hle : (ks.insertionSort (· ≤ ·)).Pairwise (· ≤ ·) := pairwise_insertionSort _ _
  rw [show svcSuits 0 (o.getD []) = true ↔ ks ≠ [] by simp [svcSuits, hnil]]
  simp only [SvcValueOk, OfNat.zero_ne_ofNat, zero_ne_one, false_imp_iff, forall_const, and_true]
  constructor
  · rintro ⟨_ | ⟨k, ks'⟩, hne, -, -, hbs⟩ rfl
    · exact hne rfl
    · cases hbs
  intro hne
  refine ⟨ks.insertionSort (· ≤ ·), fun h => ?_, ?_, fun k hk => ?_, rfl⟩
  · exact hne (h ▸ hperm).nil_eq.symm
  · exact hle.imp₂ (fun _ _ => lt_of_le_of_ne) (hperm.nodup_iff.mpr hnodup)
  · have hk := hperm.mem_iff.mp hk
    exact ⟨ne_of_mem_of_not_mem hk h0, hthere k hk⟩

/-- The parameters of a record are well-formed and complete exactly if each of their texts is
sound. -/
lemma svcParams_iff (h : svcParams ts = some ps) : (∀ p ∈ ps, p.1 < 65536 ∧ p.2.length < 65536) ∧
    ((SvcParamsOk ps ∧ ∀ t ∈ ts, ∃ p ∈ ps, svcMeant t = some p) ↔ ∀ t ∈ ts, svcSound t = true) := by
  obtain ⟨st, hfold, h⟩ := bind_eq_some_iff.mp h
  have hinit : SvcState.Collects {} [] := ⟨rfl, nodup_nil, by simp, by simp, by simp⟩
  have hst : st.Collects ts := hinit.run hfold
  dsimp only [bind_eq_bind] at h
  split at h
  · cases h
  rename_i hthere
  have hperm : ps.Perm st.params := some.inj h ▸ perm_insertionSort _ _
  have hmem : ∀ {p}, p ∈ ps ↔ ∃ t ∈ ts, svcEntry t = some p := by
    intro p
    rw [hperm.mem_iff, hst.params, mem_filterMap]
  have hbounds := fun p hp => hst.bounds p (hperm.mem_iff.mp hp)
  have hincreasing : (ps.map Prod.fst).Pairwise (· < ·) := by
    have hle : (ps.map Prod.fst).Pairwise (· ≤ ·) := by
      rw [pairwise_map, ← some.inj h]
      exact pairwise_insertionSort (fun a b : Nat × List UInt8 => a.1 ≤ b.1) _
    exact hle.imp₂ (fun _ _ => lt_of_le_of_ne) ((hperm.map _).nodup_iff.mpr hst.nodup)
  have hvalue : ∀ t ∈ ts, ∀ p, svcEntry t = some p →
      (SvcValueOk (ps.map Prod.fst) p.1 p.2 ↔ svcSuits p.1 ((svcText t).getD []) = true) := by
    intro t ht p hp
    obtain ⟨key, -, hval⟩ := bind_eq_some_iff.mp hp
    obtain ⟨bs, hbs, rfl⟩ := map_eq_some_iff.mp hval
    by_cases h0 : key = 0
    · subst h0
      refine mandatory_ok hbs ?_
      rw [← hst.mandatory t ht bs hp]
      simpa [(hperm.map Prod.fst).mem_iff] using hthere
    · exact svcValue_ok hbs h0
  refine ⟨fun p hp => ?_, ?_⟩
  · have := hbounds p hp
    omega
  constructor
  · rintro ⟨hok, hall⟩ t ht
    obtain ⟨p, hp, hmeant⟩ := hall t ht
    exact svcSound_iff.mpr ⟨p, hmeant, (hvalue t ht p (svcMeant_entry hmeant)).mp (hok.values p hp)⟩
  intro hall
  refine ⟨⟨hincreasing, ?_, ?_⟩, ?_⟩
  · intro hin
    obtain ⟨p, hp, hkey⟩ := mem_map.mp hin
    have := (hbounds p hp).1
    omega
  · intro p hp
    obtain ⟨t, ht, hentry⟩ := hmem.mp hp
    obtain ⟨p', hmeant, hsuits⟩ := svcSound_iff.mp (hall t ht)
    obtain rfl : p = p' := some.inj (hentry.symm.trans (svcMeant_entry hmeant))
    exact (hvalue t ht p hentry).mpr hsuits
  intro t ht
  obtain ⟨p, hmeant, -⟩ := svcSound_iff.mp (hall t ht)
  exact ⟨p, hmem.mpr ⟨t, ht, svcMeant_entry hmeant⟩, hmeant⟩

end Loop

/-! ### The record -/

lemma emission_put_cons (bs : List UInt8) (s : Script) :
    emission (.put bs :: s) = (emission s).map (bs ++ ·) := by
  simp [emission, Act.emission]

lemma emission_puts {α : Type} (f : α → List UInt8) : ∀ l : List α,
    emission (l.map fun x => .put (f x)) = some (l.flatMap f)
  | [] => rfl
  | x :: l => by
    rw [map_cons, emission_put_cons, emission_puts f l]
    rfl

/-- The RDATA of a service binding: priority, target and parameters. These are well-formed and
complete exactly if the text of each of them is sound. -/
theorem svcb_rdata {rec : DnsRecord} {rd : List UInt8} (htruth : rec.Truthful)
    (htype : rec.typeCode = 64 ∨ rec.typeCode = 65) (hgen : rec.generic = none)
    (hclass : rec.classVal ≠ classKaridnsExt) (h : captureRdata rec = some rd) :
    ∃ prio target ps, prio < 65536 ∧ rd = be16 prio ++ wire target ++ paramsWire ps ∧
      (∀ p ∈ ps, p.1 < 65536 ∧ p.2.length < 65536) ∧
      ((SvcParamsOk ps ∧ ∀ t ∈ rec.rdata.drop 2, ∃ p ∈ ps, svcMeant t = some p) ↔
        ∀ t ∈ rec.rdata.drop 2, svcSound t = true) := by
  rw [capture_uncached htruth] at h
  obtain ⟨-, hem⟩ := capture_spec (truthful_uncached rec).wiresOk h
  have hform : rdataForm rec.uncached.typeCode.toNat = .svcb := by
    rcases htype with h | h <;> rw [show rec.uncached.typeCode = _ from h] <;> decide
  have hscript : fullRdataScript false rec.uncached = svcbScript rec := by
    rw [fullRdataScript, show rec.uncached.generic = none from hgen,
      if_neg (show rec.uncached.classVal ≠ _ from hclass), rdataScript, hform]
    rfl
  rw [hscript] at hem
  obtain ⟨vs, hlen, hlt, hfields⟩ := withFields_u16 (k := 1) hem
  obtain ⟨prio, rfl⟩ := length_eq_one_iff.mp hlen
  rw [show svcbScript rec = _ from hfields, emission_put_cons] at hem
  obtain ⟨bs, hbs, rfl⟩ := map_eq_some_iff.mp hem
  obtain ⟨as, has, hbs⟩ := bind_eq_some_iff.mp hbs
  obtain ⟨target, -, rfl⟩ := map_eq_some_iff.mp has
  obtain ⟨cs, hcs, rfl⟩ := map_eq_some_iff.mp hbs
  obtain ⟨ps, hps, hcs⟩ := emission_orFail hcs
  obtain rfl := some.inj ((emission_puts _ ps).symm.trans hcs)
  rw [tail_drop] at hps
  obtain ⟨hbounds, hiff⟩ := svcParams_iff hps
  exact ⟨prio, target, ps,
    hlt prio mem_cons_self, by simp [valuesWire, FieldValue.wire, paramsWire], hbounds, hiff⟩

/-- A service binding with these parameters. -/
def serviceBinding (params : List String) : DnsRecord :=
  { name := ascii "a.test.", ttl := ascii "60", classVal := 1, typeCode := 64,
    rdata := [ascii "1", ascii "."] ++ params.map ascii }

theorem svcb_rdata_port : ∃ prio target ps,
    [0, 1, 0, 0, 1, 0, 3, 2, 104, 50, 0, 3, 0, 2, 0, 53] = be16 prio ++ wire target ++
      paramsWire ps ∧ SvcParamsOk ps := by
  have hrd : captureRdata (serviceBinding ["port=53", "alpn=h2"]).uncached =
      some [0, 1, 0, 0, 1, 0, 3, 2, 104, 50, 0, 3, 0, 2, 0, 53] := by decide +kernel
  obtain ⟨prio, target, ps, -, hwire, -, hiff⟩ :=
    svcb_rdata (truthful_uncached _) (.inl rfl) rfl (by decide) hrd
  exact ⟨prio, target, ps, hwire, (hiff.mpr (by decide +kernel)).1⟩

/-- A parameter is dropped, and a list of protocols is empty. -/
theorem svcb_silent :
    captureRdata (serviceBinding ["color=red"]) = some (be16 1 ++ wire [] ++ paramsWire []) ∧
    captureRdata (serviceBinding ["alpn"]) = some (be16 1 ++ wire [] ++ paramsWire [(1, [])]) ∧
    ¬ SvcParamsOk [(1, [])] := by
  refine ⟨by decide +kernel, by decide +kernel, fun h => ?_⟩
  obtain ⟨ids, hne, -, hids⟩ := (h.values _ mem_cons_self).2.1 rfl
  cases ids with
  | nil => exact hne rfl
  | cons i ids => cases hids

end KariDns
