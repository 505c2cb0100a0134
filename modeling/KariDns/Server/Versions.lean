import KariDns.Query.Content
import KariDns.Transfer.Extended
import KariDns.Update.Policy

/-! The owners of a zone's records, whatever transfers and UPDATEs bring. -/

namespace KariDns

open Octets DomainName List Option

/-- The owners of a version of a zone that was loaded with the owners `loaded`. A transfer or an
UPDATE starts from the image of any earlier version, so they may overlap; images keep the owners. -/
inductive ZoneVersion (domain : Text) (loaded : List Text) : List Text → Prop
  | loaded : ZoneVersion domain loaded loaded
  | transferred {owners : List Text} {T : Type} {req : XferRequest T}
    {clientSerial : Nat} {isIxfr : Bool}
      {msgs : List XferMessage} {records : List DnsRecord} (hv : ZoneVersion domain loaded owners)
      (hdomain : req.domain = domain) (hthaw : ∀ base ∈ req.thaw, base.1.map (·.name) = owners)
      (h : handleAxfrEvent req clientSerial isIxfr msgs = some (.installed records)) :
      ZoneVersion domain loaded (records.map (·.name))
  | updated {before after : List Slot} {env : UpdateEnv} {signer : Option Text} {m : Buf}
    {len serial : Nat}
      (hv : ZoneVersion domain loaded (before.map (·.record.name)))
      (h : updateRecords env domain signer m len before = .ok (some (serial, after))) :
      ZoneVersion domain loaded (after.map (·.record.name))

lemma inZone_update (domain : Text) : UpdateInvariant domain (inZone domain · = true) where
  ttl heq hin := by
    rw [inZone, show _ = _ from (DnsRecord.mk.inj heq).1]
    exact hin
  added hin _ := by rwa [inZone, preparse_keeps DnsRecord.name fun _ _ _ => rfl]
  soa _ _ _ hin := by rwa [inZone, soaWriteSerial, preparse_keeps DnsRecord.name fun _ _ _ => rfl]

lemma inZone_transfer {T : Type} (env : XferEnv T) :
    StreamInvariant env fun _ r => ∀ z ∈ r.records, inZone env.domain z = true ∨ z ∈ env.inUse where
  rr hr h z hz := (xferRr_records h hz).elim (hr z) id
  gotFirst hr := hr
  extVersion _ hr := hr

variable {domain : Text} {loaded owners : List Text}

lemma ZoneVersion.atOrBelow (h₀ : ∀ t ∈ loaded, domainNameIsAtOrBelow t domain = true)
    (h : ZoneVersion domain loaded owners) :
      ∀ t ∈ owners, domainNameIsAtOrBelow t domain = true := by
  induction h with
  | loaded => exact h₀
  | @transferred _ T req clientSerial isIxfr msgs records _ hdomain hthaw h ih =>
    subst hdomain
    obtain ⟨-, -, -, -, -, r, -, -, -, hr, -, rfl⟩ :=
      @xferRun_installed T req _ (inZone_transfer req.toXferEnv) records msgs []
      (xferStart req clientSerial isIxfr) (fun z hz => by cases hz) rfl h
    rw [List.forall_mem_map]
    intro z hz
    have hmem : z ∈ r.records := by
      unfold XferRequest.kept at hz
      split at hz
      · exact (mem_filter.mp hz).1
      · exact hz
    rcases hr z hmem with hin | hz
    · exact hin
    rw [XferEnv.inUse] at hz
    cases hbase : req.thaw with
    | none => simp [hbase] at hz
    | some base => exact ih _ (hthaw base hbase ▸ List.mem_map_of_mem (by simpa [hbase] using hz))
  | updated _ h ih =>
    rw [List.forall_mem_map] at ih ⊢
    exact (inZone_update domain).updateRecords ih h

/-- Whatever servers and clients send, in whatever order: if all that was loaded is at or below the
apex, so is all of every version, and its image has nothing at other names. -/
theorem version_inZone (h₀ : ∀ t ∈ loaded, domainNameIsAtOrBelow t domain = true)
    (h : ZoneVersion domain loaded owners) : (∀ t ∈ owners, domainNameIsAtOrBelow t domain = true) ∧
      ∀ (a : ZoneArena) (apex : Option Text) (img : ZoneImage),
        a.records.map (·.record.name) = owners →
        zoneImageFreeze a apex = some img → ∀ t d, img.Content t d →
          domainNameIsAtOrBelow t domain = true := by
  refine ⟨h.atOrBelow h₀, fun a apex img howners hfreeze t d hd => ?_⟩
  obtain ⟨ix, hf⟩ := frozen_of_freeze hfreeze
  obtain ⟨s, hs, -, hmatch, -⟩ := hf.content_iff.mp hd
  rw [← atOrBelow_congr hmatch (matchCi_refl domain)]
  exact h.atOrBelow h₀ _ (howners ▸ List.mem_map_of_mem hs)

/-- The server of `hostZone` with memory for everything. -/
def hostEnv : UpdateEnv :=
  { evicted := false, transferring := false, policy := some addressPolicy,
    method := .increment, limits := {},
    clock := ⟨0, none⟩, thaw := fun _ _ => true, mem := ampleMemory, serial :=
      ⟨fun _ => true, fun _ _ => true⟩,
    scratch := true, reindex := ampleMemory, measure := true, version := true }

/-- An UPDATE moves an address to `b.z.`, and an incremental transfer then deletes it. -/
theorem version_inZone_address : ∃ serial after records,
    updateRecords hostEnv (ascii "z.") (some (ascii "k.")) (blit (fun _ => 0) 0 moveAddress)
      moveAddress.length hostZone =
        .ok (some (serial, after)) ∧
      after.map (·.record.name) = addressesInUse.map (·.name) ∧
      handleAxfrEvent addressesGoneRequest 4 true [addressesGoneMessage] =
        some (.installed records) ∧
      ∀ t ∈ records.map (·.name), domainNameIsAtOrBelow t (ascii "z.") = true := by
  have hupdated :
    ∃ o ∈ (updateRecords hostEnv (ascii "z.") (some (ascii "k.")) (blit (fun _ => 0) 0 moveAddress)
      moveAddress.length hostZone).toOption,
        ∃ p ∈ o, p.2.map (·.record.name) = addressesInUse.map (·.name) := by
    decide +kernel
  obtain ⟨o, ho, p, hp, hnames⟩ := hupdated
  obtain rfl : o = some p := hp
  have hupdate := ok_of_mem_toOption ho
  obtain ⟨records, h⟩ := addressesGone_installed
  have hthaw : ∀ base ∈ addressesGoneRequest.thaw,
      base.1.map (·.name) = p.2.map (·.record.name) := by
    rintro base ⟨⟩
    exact hnames.symm
  have hloaded : ∀ t ∈ hostZone.map (·.record.name),
      domainNameIsAtOrBelow t (ascii "z.") = true := by
    decide +kernel
  refine ⟨p.1, p.2, records, hupdate, hnames, h, ?_⟩
  exact (version_inZone hloaded (.transferred (.updated .loaded hupdate) rfl hthaw h)).1

end KariDns
