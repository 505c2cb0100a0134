import KariDns.Image.Thaw
import KariDns.Tinydns.Partition

/-! TXT lines of a tinydns data file, from their escapes to the RDATA that is served.

The octets of a line pass through the text fields of a record. Those are C strings, so an octet 0
ends the piece it is in, and the rest of that piece is never served.
-/

namespace KariDns

open Octets DomainName List Option

/-- The RDATA holds the octets in order and completely, in character-strings of at most 127
octets. -/
def HoldsText (rd octets : List UInt8) : Prop :=
  ∃ parts : List Text, (∀ p ∈ parts, p.length ≤ 127) ∧ rd = stringsWire parts ∧
    parts.flatten = octets

/-! ### The pieces -/

/-- A piece is short and has no octet 0, and there are not many. -/
lemma chunks127_pieces :
    ∀ (fuel : Nat) (raw : List UInt8), (stringsWire (chunks127 fuel raw)).length ≤ fuel * 128 ∧
    ∀ p ∈ chunks127 fuel raw, p.length ≤ 127 ∧ 0 ∉ p
  | 0, _ => by simp [chunks127, stringsWire]
  | fuel + 1, raw => by
    obtain ⟨hlen, hall⟩ := chunks127_pieces fuel (raw.drop 127)
    rw [chunks127]
    split
    · simp [stringsWire]
    have hpiece : (cstrOf (raw.take 127)).length ≤ 127 :=
      (takeWhile_sublist _).length_le.trans (length_take_le 127 raw)
    refine ⟨?_, forall_mem_cons.mpr ⟨⟨hpiece, ?_⟩, hall⟩⟩
    · simp only [stringsWire, flatMap_cons, length_append, length_cons] at hlen ⊢
      omega
    · intro hzero
      simpa using mem_takeWhile_imp hzero

/-- Without an octet 0 nothing is lost. -/
lemma chunks127_flatten : ∀ (fuel : Nat) {raw : List UInt8}, 0 ∉ raw → raw.length ≤ fuel * 127 →
    (chunks127 fuel raw).flatten = raw
  | 0, raw, _, hlen => by simp_all [chunks127]
  | fuel + 1, raw, hzero, hlen => by
    rw [chunks127]
    split
    · rename_i hnil
      rw [hnil]
      rfl
    have hwhole : cstrOf (raw.take 127) = raw.take 127 := by
      rw [cstrOf, takeWhile_eq_self_iff]
      intro c hc
      simpa using ne_of_mem_of_not_mem (mem_of_mem_take hc) hzero
    rw [flatten_cons, hwhole,
      chunks127_flatten fuel (fun h => hzero (mem_of_mem_drop h)) (by simp; omega),
      take_append_drop]

/-! ### The RDATA -/

lemma txtWire_short {parts : List Text} (h : ∀ p ∈ parts, p.length ≤ 127) :
    txtWire parts = stringsWire parts :=
  flatMap_congr fun p hp => by
    rw [txtChunks, if_pos (by have := h p hp; omega)]

/-- A TXT record made from text fields serves their character-strings. -/
lemma capture_txt {rec : DnsRecord} (htype : rec.typeCode = 16) (hgen : rec.generic = none)
    (hclass : rec.classVal = 1) (hne : rec.rdata ≠ []) (hfit : (txtWire rec.rdata).length ≤ 65524) :
    captureRdata rec.uncached = some (txtWire rec.rdata) := by
  have hform : rdataForm rec.uncached.typeCode.toNat = .txt := by
    rw [show rec.uncached.typeCode = 16 from htype]
    decide
  have hscript : fullRdataScript false rec.uncached = [.put (txtWire rec.rdata)] := by
    rw [fullRdataScript, show rec.uncached.generic = none from hgen,
      show rec.uncached.classVal = 1 from hclass, rdataScript, hform]
    simp [txtScript_uncached, hne, classKaridnsExt]
  rw [capture_eq (truthful_uncached rec).wiresOk, hscript,
    if_neg (by rw [show rec.uncached.typeCode = 16 from htype]; decide)]
  simp [emission, Act.emission, hfit]

/-! ### Lines of a file -/

lemma tinydnsOwned_counted (ctx : TinyContext) (owner : Text) (counted : Bool) :
    (tinydnsOwned ctx owner counted).1 = (tinydnsOwned ctx owner true).1 := by
  simp only [tinydnsOwned]
  repeat' split
  all_goals rfl

/-- The record a TXT line defines is among those of the zone that owns it, and its RDATA holds the
octets of the line exactly when none of them is 0. -/
theorem txtLine_served {s : TinySettings} {ctx : TinyContext} {file owner : Text} {a : TinyArena}
    {l : TinyLine} (h : parseTinydnsData s ctx file = .ok a) (hl : l ∈ tinyLines file)
    (hkind : l.kind = 39) (howner : tinydnsDecodeFqdn (l.f 0).text = some owner)
    (howned : (tinydnsOwned ctx owner true).1 = true)
    (hlen : (tinydnsDecodeBytes (l.f 1).text).length ≤ 6096) :
    ∃ rec ∈ a.records, (lineRecords s l).map (preparseCache fun _ => true) = [rec] ∧
      rec.name = owner ∧
      ((∃ rd, captureRdata rec = some rd ∧ HoldsText rd (tinydnsDecodeBytes (l.f 1).text)) ↔
        0 ∉ tinydnsDecodeBytes (l.f 1).text) := by
  generalize hraw : tinydnsDecodeBytes (l.f 1).text = raw at hlen ⊢
  generalize hd : ({ typeCode := 16, ttl := (l.f 2).number ttlPositive, ts := l.f 3, lo := l.f 4
                     rdata := if raw = [] then [[]] else chunks127 maxRdata raw } : TinyData) = d
  have hrecords : lineRecords s l = [tinydnsNewRecord owner d] := by
    have hitems : lineItems s l = .ok [.record owner true (.ok (some d))] := by
      simp [lineItems, hkind, txtItems, TinyLine.fqdn, howner, hraw, maxRdata, Nat.not_lt.mpr hlen]
      exact hd
    simp [lineRecords, hitems, TinyItem.defined]
  have htruth : (preparseCache (fun _ => true) (tinydnsNewRecord owner d)).Truthful :=
    truthful_preparse (fun _ => true) (tinydnsNewRecord owner d)
  have hrdata : d.rdata ≠ [] ∧ (stringsWire d.rdata).length ≤ 6144 ∧
      ∀ p ∈ d.rdata, p.length ≤ 127 ∧ 0 ∉ p := by
    subst hd
    dsimp only
    split
    · simp [stringsWire]
    rename_i hne
    obtain ⟨hsize, hpieces⟩ := chunks127_pieces maxRdata raw
    exact ⟨by simp [maxRdata, chunks127, hne], hsize, hpieces⟩
  obtain ⟨hne, hsize, hpieces⟩ := hrdata
  have hshort := fun p hp => (hpieces p hp).1
  have hserved : captureRdata (preparseCache (fun _ => true) (tinydnsNewRecord owner d)) =
      some (stringsWire d.rdata) := by
    have hfit : (txtWire d.rdata).length ≤ 65524 := by
      rw [txtWire_short hshort]
      omega
    rw [capture_uncached htruth, uncached_preparse, ← txtWire_short hshort]
    exact capture_txt (by subst hd; rfl) (by subst hd; rfl) rfl hne hfit
  refine ⟨_, ?_, by rw [hrecords]; rfl, ?_, ?_⟩
  · rw [parse_records (tinydnsOwned_counted ctx) h, mem_filter, definedRecords]
    refine ⟨mem_map_of_mem (mem_flatMap.mpr ⟨l, hl, hrecords ▸ mem_singleton_self _⟩), ?_⟩
    rw [preparse_keeps DnsRecord.name fun _ _ _ => rfl]
    exact howned
  · rw [preparse_keeps DnsRecord.name fun _ _ _ => rfl]
    rfl
  rw [hserved]
  constructor
  · rintro ⟨rd, hrd, parts, hparts, hwire, rfl⟩ hzero
    cases hrd
    obtain ⟨p, hp, hmem⟩ := mem_flatten.mp hzero
    exact (hpieces p (stringsWire_inj (by decide) hshort hparts hwire ▸ hp)).2 hmem
  intro hzero
  refine ⟨_, rfl, d.rdata, hshort, rfl, ?_⟩
  subst hd
  dsimp only
  split
  · rename_i hnil
    rw [hnil]
    rfl
  · exact chunks127_flatten maxRdata hzero hlen

/-- Two texts, one of them with an octet 0. -/
def txtFile : Text := ascii "'a.z.test:x\\000y\n'b.z.test:text\n"

def txtKept : TinyArena :=
  (parseTinydnsData nestedSettings { defaultOrigin := ascii "z.test." } txtFile).toOption.getD {}

theorem txtLine_served_text : ∃ l ∈ tinyLines txtFile, ∃ rec ∈ txtKept.records,
    ∃ rd, captureRdata rec = some rd ∧ HoldsText rd (ascii "text") := by
  have hok :
      (parseTinydnsData nestedSettings { defaultOrigin := ascii "z.test." }
        txtFile).toOption.isSome := by decide +kernel
  have hline : ∃ l ∈ tinyLines txtFile, l.kind = 39 ∧
    tinydnsDecodeFqdn (l.f 0).text = some (ascii "b.z.test.") ∧
      tinydnsDecodeBytes (l.f 1).text = ascii "text" := by decide +kernel
  obtain ⟨l, hl, hkind, howner, htext⟩ := hline
  obtain ⟨rec, hrec, -, -, hiff⟩ :=
    txtLine_served (eq_ok_of_toOption hok {}) hl hkind howner (by decide +kernel)
    (by rw [htext]; decide)
  rw [htext] at hiff
  exact ⟨l, hl, rec, hrec, hiff.mpr (by decide)⟩

/-- Behind the octet 0 the text is lost. -/
theorem txtLine_zero_cut :
    txtKept.records.map captureRdata = [some [1, 120], some [4, 116, 101, 120, 116]] ∧
    (tinyLines txtFile).map (fun l => tinydnsDecodeBytes (l.f 1).text) =
      [[120, 0, 121], ascii "text"] := by
  decide +kernel

end KariDns
