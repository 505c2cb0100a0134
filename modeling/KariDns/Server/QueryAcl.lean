import KariDns.Server.MatchList
import KariDns.Name.Tree

/-! Who may ask (`allow-query` and `allow-query-on`).

A statement is taken from the first level that writes it: the zone as a view shares it, the zone,
the view, the options. The list found there decides. `acl_chain_of` collects the levels from the
configuration of the zone; a zone without one (a member of a catalog zone) is not known by name
there, and is treated as if no view shared it.
-/

namespace KariDns

open Octets DomainName List Option

/-! ### The configuration -/

/-- The statements about queries of `acl_set_t`; `none` for one that is not written. -/
structure AclSet where
  query : Option Aml := none
  queryOn : Option Aml := none

inductive AclKind
  | query
  | queryOn

/-- `acl_set_get`. -/
def AclSet.get (a : AclSet) : AclKind → Option Aml
  | .query => a.query
  | .queryOn => a.queryOn

structure ZoneConfig where
  domain : Text
  acl : AclSet := {}

/-- Whose lists hold for a shared zone (`in-view-settings`). -/
inductive InViewSettings
  | owner
  | view
  deriving DecidableEq

/-- `zone "domain" { in-view "view"; }`. -/
structure InViewZone where
  domain : Text
  view : Text
  acl : AclSet := {}
  settings : Option InViewSettings := none

structure ViewConfig where
  name : Text
  acl : AclSet := {}
  zones : List ZoneConfig := []
  inViewZones : List InViewZone := []
  inViewSettings : Option InViewSettings := none

structure ServerConfig where
  acl : AclSet := {}
  views : List ViewConfig := []
  inViewSettings : Option InViewSettings := none

/-- `config_in_view_mode`. -/
def configInViewMode (cfg : ServerConfig) (v : ViewConfig) (stub : InViewZone) : InViewSettings :=
  ((stub.settings.or v.inViewSettings).or cfg.inViewSettings).getD .owner

/-- `view_find_in_view`. -/
def viewFindInView (v : ViewConfig) (domain : Text) : Option InViewZone :=
  v.inViewZones.find? fun s => domainNamesMatchCi s.domain domain

def ServerConfig.findView (cfg : ServerConfig) (name : Text) : Option ViewConfig :=
  cfg.views.find? fun v => strcaseeq v.name name

def AclSet.written (a : AclSet) : Bool := a.query.isSome || a.queryOn.isSome

/-- `acl_query_active`, as `resolve_all_acl_lists` sets it. -/
def ServerConfig.aclQueryActive (cfg : ServerConfig) : Bool :=
  cfg.acl.written || cfg.views.any fun v =>
    v.acl.written || v.zones.any (·.acl.written) || v.inViewZones.any (·.acl.written)

/-! ### The check -/

/-- `acl_chain_t`. -/
structure AclChain where
  ss : Option AclSet := none
  zs : AclSet
  vs : Option AclSet := none

/-- `acl_chain_of`. -/
def aclChainOf (cfg : ServerConfig) (zone : Option ZoneConfig) (viewName : Text) : AclChain :=
  let zs := zone.elim {} (·.acl)
  if viewName = [] then { zs }
  else
    match cfg.findView viewName with
    | none => { zs }
    | some v =>
      match zone.bind fun z => viewFindInView v z.domain with
      | none => { zs, vs := some v.acl }
      | some stub =>
        if configInViewMode cfg v stub = .view then { ss := some stub.acl, zs, vs := some v.acl }
        else { zs, vs := (cfg.findView stub.view).map (·.acl) }

/-- `acl_pick`. -/
def aclPick (cfg : ServerConfig) (ch : AclChain) (which : AclKind) : Option Aml :=
  (((ch.ss.bind (·.get which)).or (ch.zs.get which)).or (ch.vs.bind (·.get which))).or
    (cfg.acl.get which)

/-- Who asks, and where: the address from the transport or else read from its text, the key of a
valid signature, and the address the query came to. -/
structure Client where
  sa : Option Addr := none
  ip : Text := []
  key : Option Text := none
  localAddr : Option Addr := none

/-- `aml_subject_from_ip` reads the address. -/
def addrOfIp (ip : Text) : Option Addr :=
  match inetPton4 ip with
  | some a => some ⟨afInet, a⟩
  | none => (inetPton6 ip).map (⟨afInet6, ·⟩)

def Client.addr (c : Client) : Option Addr := c.sa.or (addrOfIp c.ip)

/-- `query_acl_permits_sa`. -/
def queryAclPermits (cfg : ServerConfig) (ifaces : List Iface) (zone : Option ZoneConfig)
    (viewName : Text) (c : Client) : Bool :=
  if ¬ cfg.aclQueryActive then true
  else
    let ch := aclChainOf cfg zone viewName
    (match aclPick cfg ch .query with
      | none => true
      | some l =>
        match c.addr with
        | none => false
        | some a => amlMatch ifaces ⟨some a, c.key⟩ l.elems = some true) &&
    (match aclPick cfg ch .queryOn with
      | none => true
      | some l => amlMatch ifaces ⟨c.localAddr, c.key⟩ l.elems = some true)

/-! ### The lists in force -/

/-- The statement by which a view shares a zone. -/
def ServerConfig.stub (cfg : ServerConfig) (viewName domain : Text) : Option InViewZone :=
  (if viewName = [] then none else cfg.findView viewName).bind (viewFindInView · domain)

/-- The levels that hold for a zone in a view, the nearest first: of a zone that the view shares
its own statements and those of the view, or those of the view it is from. -/
def ServerConfig.levels (cfg : ServerConfig) (viewName domain : Text)
    (own : AclSet) : List AclSet :=
  match if viewName = [] then none else cfg.findView viewName with
  | none => [own, cfg.acl]
  | some v =>
    match viewFindInView v domain with
    | none => [own, v.acl, cfg.acl]
    | some stub =>
      if configInViewMode cfg v stub = .view then [stub.acl, own, v.acl, cfg.acl]
      else own :: ((cfg.findView stub.view).map (·.acl)).toList ++ [cfg.acl]

/-- The list in force: of the nearest level that writes the statement. -/
def ServerConfig.inForce (cfg : ServerConfig) (viewName domain : Text) (own : AclSet)
    (which : AclKind) : Option Aml :=
  (cfg.levels viewName domain own).findSome? (·.get which)

/-- Lists let a client ask: its address or key, and the address it asks at. -/
structure Admits (ifaces : List Iface) (query queryOn : Option Aml) (c : Client) : Prop where
  client : ∀ l, query = some l → ∃ a, c.addr = some a ∧ l.Allows ifaces ⟨some a, c.key⟩
  here : ∀ l, queryOn = some l → l.Allows ifaces ⟨c.localAddr, c.key⟩

/-- The configuration of a zone (`zone_entry_config`): its block in a view, a copy of that, or for a
zone of the database settings without such lists; nothing for a member of a catalog zone. -/
structure ConfigOf (cfg : ServerConfig) (domain : Text) (zone : Option ZoneConfig) : Prop where
  name : ∀ z, zone = some z → domainNamesMatchCi z.domain domain = true
  lists : ∀ z, zone = some z → z.acl.written = true →
    ∃ v ∈ cfg.views, ∃ z' ∈ v.zones, z'.acl = z.acl

section Check

variable {cfg : ServerConfig} {ifaces : List Iface} {zone : Option ZoneConfig}
    {viewName domain : Text} {c : Client}

/-! ### Without any list -/

lemma AclSet.get_none {a : AclSet} (h : a.written = false) (which : AclKind) :
    a.get which = none := by
  simp only [AclSet.written, Bool.or_eq_false_iff, isSome_eq_false_iff, isNone_iff_eq_none] at h
  cases which with
  | query => exact h.1
  | queryOn => exact h.2

lemma findView_mem {name : Text} {v : ViewConfig} (h : cfg.findView name = some v) :
    v ∈ cfg.views :=
  mem_of_find?_eq_some h

/-- Nothing is written at any level of a chain. -/
lemma aclPick_inactive (hinactive : cfg.aclQueryActive = false) (hzone : ConfigOf cfg domain zone)
    (which : AclKind) :
    aclPick cfg (aclChainOf cfg zone viewName) which = none := by
  simp only [ServerConfig.aclQueryActive, Bool.or_eq_false_iff, List.any_eq_false,
    Bool.not_eq_true] at hinactive
  obtain ⟨hopts, hviews⟩ := hinactive
  have hview : ∀ {name v}, cfg.findView name = some v → v.acl.get which = none := fun h =>
    AclSet.get_none (hviews _ (findView_mem h)).1.1 which
  have hown : (zone.elim {} (·.acl) : AclSet).get which = none := by
    cases zone with
    | none => cases which <;> rfl
    | some z =>
      refine AclSet.get_none (Bool.eq_false_iff.2 fun hw => ?_) which
      have hw : z.acl.written = true := hw
      obtain ⟨v, hv, z', hz', hacl⟩ := hzone.lists z rfl hw
      have hnone := (hviews v hv).1.2 z' hz'
      rw [hacl, hw] at hnone
      cases hnone
  have hstub : ∀ {name v d stub}, cfg.findView name = some v → viewFindInView v d = some stub →
      stub.acl.get which = none := fun hv hs =>
    AclSet.get_none ((hviews _ (findView_mem hv)).2 _ (mem_of_find?_eq_some hs)) which
  rw [aclPick, AclSet.get_none hopts, aclChainOf]
  split
  · simpa using hown
  split
  · simpa using hown
  rename_i v hv
  split
  · simpa [hview hv] using hown
  rename_i stub hs
  obtain ⟨z, -, hs⟩ := bind_eq_some_iff.1 hs
  split
  · simpa [hview hv, hstub hv hs] using hown
  cases ho : cfg.findView stub.view with
  | none => simpa using hown
  | some o => simpa [hview ho] using hown

/-! ### The levels of a chain -/

lemma firstWritten_cons (which : AclKind) (a : AclSet) (l : List AclSet) :
    (a :: l).findSome? (·.get which) = (a.get which).or (l.findSome? (·.get which)) := by
  rw [findSome?_cons]
  cases a.get which <;> rfl

lemma viewFindInView_congr {d d' : Text} (h : domainNamesMatchCi d d' = true) (v : ViewConfig) :
    viewFindInView v d = viewFindInView v d' := by
  rw [viewFindInView, viewFindInView]
  congr 1
  funext s
  rw [Bool.eq_iff_iff, matchCi_iff, matchCi_iff, matchCi_iff.1 h]

/-- The list of a view for its zones. -/
def ServerConfig.viewList (cfg : ServerConfig) (viewName : Text) (which : AclKind) : Option Aml :=
  ((cfg.findView viewName).bind (·.acl.get which)).or (cfg.acl.get which)

/-- Without a configuration of the zone the view's list is picked, shared or not. -/
lemma aclPick_none (hname : viewName ≠ []) (which : AclKind) :
    aclPick cfg (aclChainOf cfg none viewName) which = cfg.viewList viewName which := by
  rw [aclPick, aclChainOf, if_neg hname, ServerConfig.viewList]
  cases cfg.findView viewName <;> cases which <;> rfl

/-- The list that is picked is the one in force, for a zone that has a configuration or that the
view does not share. -/
lemma aclPick_inForce (hzone : ConfigOf cfg domain zone)
    (hnamed : zone.isSome = true ∨ cfg.stub viewName domain = none) (which : AclKind) :
    aclPick cfg (aclChainOf cfg zone viewName) which =
      cfg.inForce viewName domain (zone.elim {} (·.acl)) which := by
  have hstub : ∀ v, (if viewName = [] then none else cfg.findView viewName) = some v →
      (zone.bind fun z => viewFindInView v z.domain) = viewFindInView v domain := by
    intro v hv
    cases zone with
    | none =>
      obtain hsome | hnone := hnamed
      · cases hsome
      · rw [ServerConfig.stub, hv] at hnone
        exact hnone.symm
    | some z => exact viewFindInView_congr (hzone.name z rfl) v
  rw [aclPick, aclChainOf, ServerConfig.inForce, ServerConfig.levels]
  by_cases hname : viewName = []
  · simp [hname, firstWritten_cons]
  simp only [if_neg hname] at hstub ⊢
  cases hv : cfg.findView viewName with
  | none => simp [firstWritten_cons]
  | some v =>
    dsimp only
    rw [hstub v hv]
    cases hs : viewFindInView v domain with
    | none => simp [firstWritten_cons, Option.or_assoc]
    | some stub =>
      dsimp only
      split
      · simp [firstWritten_cons, Option.or_assoc]
      · cases cfg.findView stub.view <;> simp [firstWritten_cons, Option.or_assoc]

/-- The check lets in whom the lists that it picks let in. -/
lemma queryAclPermits_iff_pick (hzone : ConfigOf cfg domain zone) :
    queryAclPermits cfg ifaces zone viewName c = true ↔
      Admits ifaces (aclPick cfg (aclChainOf cfg zone viewName) .query)
        (aclPick cfg (aclChainOf cfg zone viewName) .queryOn) c := by
  rw [queryAclPermits]
  by_cases hactive : cfg.aclQueryActive = true
  · rw [if_neg (by simpa using hactive), Bool.and_eq_true]
    refine (and_congr ?_ ?_).trans ⟨fun h => ⟨h.1, h.2⟩, fun h => ⟨h.client, h.here⟩⟩
    · cases aclPick cfg (aclChainOf cfg zone viewName) .query with
      | none => simp
      | some l => cases c.addr <;> simp [amlMatch_iff]
    cases aclPick cfg (aclChainOf cfg zone viewName) .queryOn with
    | none => simp
    | some l => simp [amlMatch_iff]
  have hinactive : cfg.aclQueryActive = false := by simpa using hactive
  rw [if_pos (by simpa using hactive), aclPick_inactive hinactive hzone,
    aclPick_inactive hinactive hzone]
  exact iff_of_true rfl ⟨by simp, by simp⟩

/-- The zone is for the client, by the lists in force. -/
def Permitted (cfg : ServerConfig) (ifaces : List Iface) (viewName domain : Text)
    (zone : Option ZoneConfig) (c : Client) : Prop :=
  Admits ifaces (cfg.inForce viewName domain (zone.elim {} (·.acl)) .query)
    (cfg.inForce viewName domain (zone.elim {} (·.acl)) .queryOn) c

lemma queryAclPermits_iff (hzone : ConfigOf cfg domain zone)
    (hnamed : zone.isSome = true ∨ cfg.stub viewName domain = none) :
    queryAclPermits cfg ifaces zone viewName c = true ↔
      Permitted cfg ifaces viewName domain zone c := by
  rw [queryAclPermits_iff_pick hzone, aclPick_inForce hzone hnamed, aclPick_inForce hzone hnamed,
    Permitted]

end Check

end KariDns
