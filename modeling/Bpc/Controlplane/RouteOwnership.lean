/-
  ROUTE OWNERSHIP — `validateRouteOwnershipInvariant` (fsm.go) and what it establishes.

  1. **Program** — before a commit, ALL routes and Nodes are checked as the mutation will leave
     them. Go's map order decides only which message is reported; here it is the key order.
  2. **Specification** — `RouteOwnershipInvariant`, on SETS of addresses; `validate_sound`.
-/
import Bpc.Controlplane.Mutation
import Bpc.Lib.Prefix4

namespace Bpc.Controlplane

open SlashPath

variable {Payload Data : Type}

/-! ## The validator -/

/-- Where route records lie. -/
def routesPrefix : Str := "control/routes/"

/-- Where Node records lie. -/
def nodesPrefix : Str := "control/nodes/"

/-- The record of a Node. -/
def nodePath (owner : Str) : Str := nodesPrefix ++ owner ++ (".json" : Str)

/-- The owner a route record names: `owner_node_id`, else `node_id`. -/
def routeOwner (record : RouteOwnershipRecord) : Str :=
  if trimSpace record.ownerNodeID = [] then trimSpace record.nodeID
  else trimSpace record.ownerNodeID

/-- `authorized_routes` when the record has it, else `advertised_routes`. -/
def routeGrants (node : RouteOwnerNodeRecord) : List Str :=
  match node.authorizedRoutes with
  | some routes => routes
  | none => node.advertisedRoutes

/-- One grant against a masked route prefix. -/
def grantCovers (pre : Prefix4) (rawGrant : Str) : Bool :=
  match Prefix4.parse rawGrant with
  | some grant =>
    decide (0 < grant.bits) && decide (grant.bits ≤ pre.bits) && grant.masked.contains pre.addr
  | none => false

/-- `validatedRouteOwnership`. -/
structure ValidatedRouteOwnership where
  path : Str
  owner : Str
  pre : Prefix4

/-- The body of the loop over the routes. -/
def validateRoute (C : Codec Payload Data) (nodes : Bucket Data) (path : Str) (raw : Data) :
    Except Str ValidatedRouteOwnership :=
  match C.unmarshalRoute raw with
  | none => .error ("invalid route ownership record: " ++ path)
  | some record =>
    let owner := routeOwner record
    if owner = [] ∨ (record.nodeID ≠ [] ∧ trimSpace record.nodeID ≠ owner) then
      .error ("route owner identity mismatch: " ++ path)
    else
      match Prefix4.parse (trimSpace record.cidr) with
      | none => .error ("invalid or default route ownership: " ++ path)
      | some parsed =>
        if parsed.bits = 0 then .error ("invalid or default route ownership: " ++ path)
        else
          match nodes[nodePath owner]? with
          | none => .error ("route owner Node does not exist: " ++ owner)
          | some nodeRaw =>
            match C.unmarshalNode nodeRaw with
            | none => .error ("invalid route owner Node record: " ++ owner)
            | some node =>
              if trimSpace node.nodeID ≠ owner ∨ node.revoked ∨ ¬ node.roles "site_router" then
                .error ("route owner is not an active site_router: " ++ owner)
              else if (routeGrants node).any (grantCovers parsed.masked) then
                .ok ⟨path, owner, parsed.masked⟩
              else .error ("route is outside Controller route policy: " ++ path)

/-- The loop over the routes: the first error stops it. -/
def validateRoutes (C : Codec Payload Data) (nodes : Bucket Data) :
    List (Str × Data) → Except Str (List ValidatedRouteOwnership)
  | [] => .ok []
  | (path, raw) :: rest =>
    match validateRoute C nodes path raw with
    | .error e => .error e
    | .ok v =>
      match validateRoutes C nodes rest with
      | .error e => .error e
      | .ok vs => .ok (v :: vs)

/-- The message for two routes that overlap. -/
def overlapMessage (v w : ValidatedRouteOwnership) : Str :=
  "route ownership conflict: " ++ v.pre.toText ++ " owned by " ++ v.owner ++
    " overlaps " ++ w.pre.toText ++ " owned by " ++ w.owner

/-- The double loop over pairs `i < j`. -/
def firstOverlap : List ValidatedRouteOwnership → Option Str
  | [] => none
  | v :: rest =>
    match rest.find? fun w => !(v.owner == w.owner) && v.pre.overlaps w.pre with
    | some w => some (overlapMessage v w)
    | none => firstOverlap rest

/-- `validateRouteOwnershipInvariant`; `none` is the empty string. -/
def validateRouteOwnershipInvariant (C : Codec Payload Data) (canonical : Bucket Data)
    (ops : List (Operation Data)) : Option Str :=
  let routes := resultingPrefixRecords canonical routesPrefix ops
  let nodes := resultingPrefixRecords canonical nodesPrefix ops
  match validateRoutes C nodes routes.toList with
  | .error e => some e
  | .ok validated => firstOverlap validated

/-! ## The specification -/

/-- A stored route, its owner and its prefix. -/
structure RouteGranted (C : Codec Payload Data) (canonical : Bucket Data) (raw : Data)
    (owner : Str) (pre : Prefix4) : Prop where
  /-- The record names the owner and a valid IPv4 prefix. -/
  record : ∃ record, C.unmarshalRoute raw = some record ∧ routeOwner record = owner ∧
    Prefix4.parse (trimSpace record.cidr) = some pre
  /-- The prefix is not the default route. -/
  not_default : 0 < pre.bits
  /-- The owner is a site router in good standing with that grant. -/
  node : ∃ nodeRaw node, canonical[nodePath owner]? = some nodeRaw ∧
    C.unmarshalNode nodeRaw = some node ∧ node.revoked = false ∧
    node.roles "site_router" = true ∧
    ∃ rawGrant ∈ routeGrants node, ∃ grant, Prefix4.parse rawGrant = some grant ∧
      ∀ a ∈ pre, a ∈ grant

/-- Routes are granted, and those of two owners are disjoint. -/
structure RouteOwnershipInvariant (C : Codec Payload Data) (canonical : Bucket Data) : Prop where
  granted : ∀ path raw, canonical[path]? = some raw → routesPrefix <+: path →
    ∃ owner pre, RouteGranted C canonical raw owner pre
  disjoint : ∀ path raw path' raw', canonical[path]? = some raw → canonical[path']? = some raw' →
    routesPrefix <+: path → routesPrefix <+: path' →
    ∀ owner owner' pre pre', RouteGranted C canonical raw owner pre →
      RouteGranted C canonical raw' owner' pre' → owner ≠ owner' → ∀ a, ¬ (a ∈ pre ∧ a ∈ pre')

/-! ## One route -/

theorem grantCovers_sound {parsed : Prefix4} {rawGrant : Str}
    (h : grantCovers parsed.masked rawGrant = true) :
    ∃ grant, Prefix4.parse rawGrant = some grant ∧ ∀ a ∈ parsed, a ∈ grant := by
  unfold grantCovers at h
  split at h
  · next grant hgrant =>
    simp only [Bool.and_eq_true, decide_eq_true_eq] at h
    refine ⟨grant, hgrant, fun a ha => ?_⟩
    exact Prefix4.subset_of_contains h.1.2 h.2 a (Prefix4.mem_masked.mpr ha)
  · cases h

variable {C : Codec Payload Data} {nodes : Bucket Data} {raw : Data}

theorem validateRoute_sound {path : Str} {v : ValidatedRouteOwnership}
    (h : validateRoute C nodes path raw = .ok v) :
    v.path = path ∧ ∃ parsed, v.pre = parsed.masked ∧ RouteGranted C nodes raw v.owner parsed := by
  unfold validateRoute at h
  cases hrec : C.unmarshalRoute raw with
  | none => rw [hrec] at h; cases h
  | some record =>
    simp only [hrec] at h
    split at h
    · cases h
    cases hparse : Prefix4.parse (trimSpace record.cidr) with
    | none => rw [hparse] at h; cases h
    | some parsed =>
      simp only [hparse] at h
      split at h
      · cases h
      next hbits =>
      cases hnode : nodes[nodePath (routeOwner record)]? with
      | none => rw [hnode] at h; cases h
      | some nodeRaw =>
        simp only [hnode] at h
        cases hun : C.unmarshalNode nodeRaw with
        | none => rw [hun] at h; cases h
        | some node =>
          simp only [hun] at h
          split at h
          · cases h
          next hactive =>
          split at h
          · next hgrant =>
            cases h
            simp only [not_or, not_not] at hactive
            obtain ⟨g, hg, hcov⟩ := List.any_eq_true.mp hgrant
            obtain ⟨grant, hparseG, hsub⟩ := grantCovers_sound hcov
            exact ⟨rfl, parsed, rfl,
              { record := ⟨record, hrec, rfl, hparse⟩
                not_default := Nat.pos_of_ne_zero hbits
                node := ⟨nodeRaw, node, hnode, hun, Bool.eq_false_iff.mpr hactive.2.1,
                  hactive.2.2, g, hg,
                  grant, hparseG, hsub⟩ }⟩
          · cases h

theorem RouteGranted.unique {b b' : Bucket Data} {owner owner' : Str} {pre pre' : Prefix4}
    (h : RouteGranted C b raw owner pre) (h' : RouteGranted C b' raw owner' pre') :
    owner = owner' ∧ pre = pre' := by
  obtain ⟨r, hr, rfl, hp⟩ := h.record
  obtain ⟨r', hr', rfl, hp'⟩ := h'.record
  obtain rfl : r = r' := Option.some.inj (hr.symm.trans hr')
  exact ⟨rfl, Option.some.inj (hp.symm.trans hp')⟩

/-! ## The loop and the pairwise comparison -/

theorem validateRoutes_forall2 :
    ∀ {routes : List (Str × Data)} {validated : List ValidatedRouteOwnership},
      validateRoutes C nodes routes = .ok validated →
        List.Forall₂ (fun r v => validateRoute C nodes r.1 r.2 = .ok v) routes validated
  | [], validated, h => by
    cases h
    exact .nil
  | (path, raw) :: rest, validated, h => by
    unfold validateRoutes at h
    cases hv : validateRoute C nodes path raw with
    | error e => rw [hv] at h; cases h
    | ok v =>
      simp only [hv] at h
      cases hvs : validateRoutes C nodes rest with
      | error e => rw [hvs] at h; cases h
      | ok vs =>
        rw [hvs] at h
        cases h
        exact .cons hv (validateRoutes_forall2 hvs)

theorem firstOverlap_none : ∀ {validated : List ValidatedRouteOwnership},
    firstOverlap validated = none →
      validated.Pairwise fun v w => v.owner ≠ w.owner → v.pre.overlaps w.pre = false
  | [], _ => .nil
  | v :: rest, h => by
    unfold firstOverlap at h
    split at h
    · cases h
    · next hfind =>
      refine List.pairwise_cons.mpr ⟨fun w hw hne => ?_, firstOverlap_none h⟩
      have hw' := List.find?_eq_none.mp hfind w hw
      simpa [hne] using hw'

theorem exists_validated {routes : List (Str × Data)} {validated : List ValidatedRouteOwnership}
    (hall : List.Forall₂ (fun r v => validateRoute C nodes r.1 r.2 = .ok v) routes validated)
    {path : Str} (hmem : (path, raw) ∈ routes) :
    ∃ v ∈ validated, validateRoute C nodes path raw = .ok v := by
  induction hall with
  | nil => cases hmem
  | cons hv _ ih =>
    rcases List.mem_cons.mp hmem with heq | hmem
    · exact ⟨_, List.mem_cons_self .., by rw [← heq] at hv; exact hv⟩
    · obtain ⟨v, hvm, hvr⟩ := ih hmem
      exact ⟨v, List.mem_cons_of_mem _ hvm, hvr⟩

theorem disjoint_of_pairwise {validated : List ValidatedRouteOwnership}
    (hpw : validated.Pairwise fun v w => v.owner ≠ w.owner → v.pre.overlaps w.pre = false)
    {v w : ValidatedRouteOwnership} (hv : v ∈ validated) (hw : w ∈ validated)
    (hne : v.owner ≠ w.owner) : ∀ a, ¬ (a ∈ v.pre ∧ a ∈ w.pre) := by
  -- overlapping is symmetric, so the comparison of `i < j` speaks of both orders
  have : Std.Symm fun v w : ValidatedRouteOwnership =>
      v.owner ≠ w.owner → v.pre.overlaps w.pre = false := by
    constructor
    intro x y h hyx
    have hxy := h (Ne.symm hyx)
    rw [← Bool.not_eq_true, Prefix4.overlaps_iff] at hxy ⊢
    rintro ⟨a, ha, hb⟩
    exact hxy ⟨a, hb, ha⟩
  have hov : v.pre.overlaps w.pre = false :=
    List.Pairwise.forall_of_forall (fun x _ hx => absurd rfl hx) hpw hv hw hne
  rintro a ⟨ha, hb⟩
  rw [Prefix4.overlaps_iff.mpr ⟨a, ha, hb⟩] at hov
  cases hov

/-! ## Soundness of the validator -/

theorem RouteGranted.of_prediction {canonical : Bucket Data} {ops : List (Operation Data)}
    {owner : Str} {pre : Prefix4}
    (h : RouteGranted C (resultingPrefixRecords canonical nodesPrefix ops) raw owner pre) :
    RouteGranted C (applyOps canonical ops) raw owner pre := by
  obtain ⟨nodeRaw, node, hget, hrest⟩ := h.node
  rw [get_resultingPrefixRecords] at hget
  split at hget
  · exact { record := h.record, not_default := h.not_default, node := ⟨nodeRaw, node, hget, hrest⟩ }
  · cases hget

/-- **The validator is sound.** -/
theorem validate_sound {canonical : Bucket Data} {ops : List (Operation Data)}
    (h : validateRouteOwnershipInvariant C canonical ops = none) :
    RouteOwnershipInvariant C (applyOps canonical ops) := by
  unfold validateRouteOwnershipInvariant at h
  simp only at h
  split at h
  · cases h
  next validated hvalid =>
  have hall := validateRoutes_forall2 hvalid
  -- every committed route was enumerated, hence validated
  have hroute : ∀ path raw, (applyOps canonical ops)[path]? = some raw → routesPrefix <+: path →
      ∃ v ∈ validated, ∃ parsed, v.pre = parsed.masked ∧
        RouteGranted C (applyOps canonical ops) raw v.owner parsed := by
    intro path raw hget hpre
    have hmem : (path, raw) ∈ (resultingPrefixRecords canonical routesPrefix ops).toList := by
      rw [SortedMap.mem_toList, get_resultingPrefixRecords,
        if_pos (List.isPrefixOf_iff_prefix.mpr hpre), hget]
    obtain ⟨v, hv, hvr⟩ := exists_validated hall hmem
    obtain ⟨-, parsed, hpre', hgr⟩ := validateRoute_sound hvr
    exact ⟨v, hv, parsed, hpre', hgr.of_prediction⟩
  constructor
  · intro path raw hget hpre
    obtain ⟨v, -, parsed, -, hgr⟩ := hroute path raw hget hpre
    exact ⟨v.owner, parsed, hgr⟩
  · intro path raw path' raw' hget hget' hp hp' owner owner' pre pre' hg hg' hne a ha
    obtain ⟨v, hv, parsed, hvp, hgr⟩ := hroute path raw hget hp
    obtain ⟨w, hw, parsed', hwp, hgr'⟩ := hroute path' raw' hget' hp'
    obtain ⟨rfl, rfl⟩ := hg.unique hgr
    obtain ⟨rfl, rfl⟩ := hg'.unique hgr'
    apply disjoint_of_pairwise (firstOverlap_none h) hv hw hne a
    rw [hvp, hwp]
    exact ⟨Prefix4.mem_masked.mpr ha.1, Prefix4.mem_masked.mpr ha.2⟩

theorem routeOwnershipInvariant_empty (C : Codec Payload Data) :
    RouteOwnershipInvariant C (∅ : Bucket Data) where
  granted := by
    intro path raw h
    rw [SortedMap.get_empty] at h
    cases h
  disjoint := by
    intro path raw path' raw' h
    rw [SortedMap.get_empty] at h
    cases h

end Bpc.Controlplane
