import KariDns.Server.QueryAcl
import Mathlib.Data.Set.Function

/-! Server cookies (`dns_edns_ecs.c`, RFC 9018).

A cookie is eight octets (version, three reserved ones, the time it was made) and a keyed hash over
the client's cookie, these octets and the client's address. It is taken for an hour, and up to five
minutes before its time, under any of the secrets that are listed.
-/

namespace KariDns

open Octets DomainName List

/-- A keyed hash of eight octets; `dns_siphash24` is one. -/
structure CookieHash (Secret : Type) where
  octets : Secret → List UInt8 → List UInt8
  length : ∀ secret data, (octets secret data).length = 8

/-- `server_cookie_status_t`. -/
inductive CookieStatus
  | invalid | valid | refresh
  deriving DecidableEq, Repr

section

variable {Secret : Type} (hash : CookieHash Secret) (process : Secret)

/-- What is hashed, in the order of RFC 9018. -/
def cookieData (client head addr : List UInt8) : List UInt8 := client ++ head ++ addr

/-- `compute_server_cookie_hash`; an address that cannot be read gives no hash. -/
def computeServerCookieHash (secret : Secret) (ip : Text) (client head : List UInt8) :
    Option (List UInt8) :=
  (addrOfIp ip).map fun a => hash.octets secret (cookieData client head a.octets)

/-- The secrets that are tried: those of the configuration, or else the one the process has
drawn. -/
def cookieSecrets (listed : List Secret) : List Secret := if listed = [] then [process] else listed

/-- `cookie_active_secret`. -/
def cookieActiveSecret (listed : List Secret) : Secret := listed.headD process

/-- `generate_server_cookie`. -/
def generateServerCookie (listed : List Secret) (ip : Text) (client : List UInt8)
    (timestamp : UInt32) : Option (List UInt8) :=
  let head := [1, 0, 0, 0] ++ be32 timestamp.toNat
  (computeServerCookieHash hash (cookieActiveSecret process listed) ip client head).map (head ++ ·)

/-- `now - ts` as an `int32_t`. -/
def cookieAge (now ts : UInt32) : Int := (now - ts).toInt32.toInt

/-- `verify_server_cookie`; a null pointer is a cookie without octets. -/
def verifyServerCookie (listed : List Secret) (ip : Text) (client cookie : List UInt8)
    (now : UInt32) : CookieStatus :=
  if cookie.length ≠ 16 ∨ cookie.getD 0 0 ≠ 1 then .invalid
  else
    let age := cookieAge now (UInt32.ofNat (getU32 (cookie.getD · 0) 4))
    if age > 3600 ∨ age < -300 then .invalid
    else if (cookieSecrets process listed).any fun secret =>
        computeServerCookieHash hash secret ip client (cookie.take 8) == some (cookie.drop 8) then
      if age > 1800 then .refresh else .valid
    else .invalid

variable {hash process} {listed : List Secret} {ip : Text} {client cookie : List UInt8}
    {now t : UInt32}

lemma verifyServerCookie_iff :
    verifyServerCookie hash process listed ip client cookie now ≠ .invalid ↔
    (cookie.length = 16 ∧ cookie.getD 0 0 = 1) ∧
      (-300 ≤ cookieAge now (UInt32.ofNat (getU32 (cookie.getD · 0) 4)) ∧
        cookieAge now (UInt32.ofNat (getU32 (cookie.getD · 0) 4)) ≤ 3600) ∧
      ∃ secret ∈ cookieSecrets process listed,
        computeServerCookieHash hash secret ip client (cookie.take 8) = some (cookie.drop 8) := by
  unfold verifyServerCookie
  split
  · rename_i hshape
    refine ⟨fun h => absurd rfl h, fun h => ?_⟩
    rcases hshape with hlen | hver
    · exact absurd h.1.1 hlen
    · exact absurd h.1.2 hver
  rename_i hshape
  simp only [not_or, ne_eq, not_not] at hshape
  dsimp only
  split
  · rename_i hage
    refine ⟨fun h => absurd rfl h, fun h => ?_⟩
    omega
  rename_i hage
  simp only [any_eq_true, beq_iff_eq]
  split
  · rename_i hsecret
    refine ⟨fun _ => ⟨hshape, by omega, hsecret⟩, fun _ => ?_⟩
    split <;> nofun
  · rename_i hsecret
    exact ⟨fun h => absurd rfl h, fun h => absurd h.2.2 hsecret⟩

/-- The window, on the circle of times. -/
lemma cookieAge_iff : (-300 ≤ cookieAge now t ∧ cookieAge now t ≤ 3600) ↔
    (now - t).toNat ≤ 3600 ∨ 2 ^ 32 - 300 ≤ (now - t).toNat := by
  have hlt := (now - t).toNat_lt
  have hage : cookieAge now t = if 2 * (now - t).toNat < 2 ^ 32 then ((now - t).toNat : Int)
      else ((now - t).toNat : Int) - 2 ^ 32 := BitVec.toInt_eq_toNat_cond _
  rw [hage]
  split <;> omega

/-- What is made has the shape that is looked for, and the time it was made at. -/
lemma generateServerCookie_shape
    (h : generateServerCookie hash process listed ip client t = some cookie) :
    (cookie.length = 16 ∧ cookie.getD 0 0 = 1) ∧ UInt32.ofNat (getU32 (cookie.getD · 0) 4) = t ∧
      computeServerCookieHash hash (cookieActiveSecret process listed) ip client (cookie.take 8) =
        some (cookie.drop 8) := by
  obtain ⟨tag, htag, rfl⟩ := Option.map_eq_some_iff.mp h
  have hhead : ([1, 0, 0, 0] ++ be32 t.toNat).length = 8 := rfl
  have hlen : tag.length = 8 := by
    obtain ⟨a, -, rfl⟩ := Option.map_eq_some_iff.mp htag
    exact hash.length _ _
  refine ⟨⟨by rw [length_append, hhead, hlen], rfl⟩, ?_, ?_⟩
  · have hlt := t.toNat_lt
    refine UInt32.toNat_inj.mp ?_
    simp only [be32, cons_append, nil_append, getU32, getU16, getD_cons_succ, getD_cons_zero,
      UInt32.toNat_ofNat', UInt8.toNat_ofNat']
    omega
  · rw [← hhead, take_left, drop_left, htag]

end

/-- A cookie that was made is taken for its client, as long as its secret is listed, exactly in the
window around its time. A cookie that is taken is the hash under a listed secret, and no other
secret, client cookie, head or address has this hash as far as the hash tells its inputs apart. -/
theorem serverCookie_binds {Secret : Type} (hash : CookieHash Secret) (process : Secret) (ip : Text)
    (client : List UInt8) (hclient : client.length = 8) :
    (∀ listed later cookie t now, generateServerCookie hash process listed ip client
      t = some cookie →
      cookieActiveSecret process listed ∈ cookieSecrets process later →
      (verifyServerCookie hash process later ip client cookie now ≠ .invalid ↔
        (now - t).toNat ≤ 3600 ∨ 2 ^ 32 - 300 ≤ (now - t).toNat)) ∧
    ∀ inputs : Set (Secret × List UInt8), Set.InjOn (fun i => hash.octets i.1 i.2) inputs →
      ∀ listed cookie now, verifyServerCookie hash process listed ip client cookie now ≠ .invalid →
        ∃ secret ∈ cookieSecrets process listed, ∃ a, addrOfIp ip = some a ∧
          hash.octets secret (cookieData client (cookie.take 8) a.octets) = cookie.drop 8 ∧
          ((secret, cookieData client (cookie.take 8) a.octets) ∈ inputs →
            ∀ secret' client' head' addr', client'.length = 8 → head'.length = 8 →
              (secret', cookieData client' head' addr') ∈ inputs →
              hash.octets secret' (cookieData client' head' addr') = cookie.drop 8 →
              secret' = secret ∧ client' = client ∧ head' = cookie.take 8 ∧ addr' = a.octets) := by
  constructor
  · intro listed later cookie t now hmade hlisted
    obtain ⟨hshape, htime, hhash⟩ := generateServerCookie_shape hmade
    rw [verifyServerCookie_iff, htime, cookieAge_iff]
    exact ⟨fun h => h.2.1, fun h => ⟨hshape, h, _, hlisted, hhash⟩⟩
  · intro inputs hinj listed cookie now hvalid
    obtain ⟨⟨hlen, -⟩, -, secret, hsecret, hhash⟩ := verifyServerCookie_iff.mp hvalid
    obtain ⟨a, ha, htag⟩ := Option.map_eq_some_iff.mp hhash
    refine ⟨secret, hsecret, a, ha, htag,
      fun hin secret' client' head' addr' hc hh hin' htag' => ?_⟩
    obtain ⟨hs, hdata⟩ := Prod.mk.inj (hinj hin' hin (htag'.trans htag.symm))
    obtain ⟨hfront, haddr⟩ := append_inj hdata (by simp [hc, hh, hclient, hlen])
    obtain ⟨hcl, hhd⟩ := append_inj hfront (by rw [hc, hclient])
    exact ⟨hs, hcl, hhd, haddr⟩

/-- A hash that tells secrets apart. -/
def sampleHash : CookieHash UInt8 :=
  ⟨fun secret data => [secret, UInt8.ofNat data.length, 0, 0, 0, 0, 0, 0], fun _ _ => rfl⟩

theorem serverCookie_binds_rollover : ∃ cookie, generateServerCookie sampleHash 0 [1]
    (ascii "10.0.0.1") (replicate 8 7) 0 = some cookie ∧
    ∃ secret ∈ [2, 1], ∀ secret' ∈ [2, 1], sampleHash.octets secret'
      (cookieData (replicate 8 7) (cookie.take 8) [10, 0, 0, 1]) =
      cookie.drop 8 → secret' = secret := by
  obtain ⟨hmade, hbinds⟩ := serverCookie_binds sampleHash 0 (ascii "10.0.0.1") (replicate 8 7) rfl
  have hgen : generateServerCookie sampleHash 0 [1] (ascii "10.0.0.1") (replicate 8 7) 0 =
      some [1, 0, 0, 0, 0, 0, 0, 0, 1, 20, 0, 0, 0, 0, 0, 0] := by decide +kernel
  have hvalid := (hmade [1] [2, 1] _ 0 3600 hgen (by decide)).mpr (by decide)
  have hinj : Set.InjOn (fun i => sampleHash.octets i.1 i.2) {i : UInt8 × List UInt8 |
      i.2 = cookieData (replicate 8 7) [1, 0, 0, 0, 0, 0, 0, 0] [10, 0, 0, 1]} := by
    intro ⟨s, d⟩ hd ⟨s', d'⟩ hd' heq
    exact Prod.ext (List.cons.inj heq).1 (hd.trans hd'.symm)
  obtain ⟨secret, hsecret, a, ha, -, honly⟩ := hbinds _ hinj [2, 1] _ 3600 hvalid
  obtain rfl : a = ⟨afInet, [10, 0, 0, 1]⟩ := Option.some.inj (ha.symm.trans (by decide +kernel))
  exact ⟨_, hgen, secret, hsecret,
    fun secret' _ htag => (honly rfl secret' _ _ _ rfl rfl rfl htag).1⟩

end KariDns
