/-
  THE ACCESS FIREWALL — the chain `BPC-ACCESS` that `_sync_access_firewall_locked` builds.

  1. **Rules** — per Device RECORD: flows towards its routes ACCEPT, all others of its address
     DROP; around them, DROPs for known addresses.  A flow is recognised by conntrack's ORIGINAL
     tuple.
  2. **Soundness** — what is accepted has a grant (`access_chain_sound`).
  3. **Completeness** — unless a record BEFORE the Device's own has its address
     (`access_chain_complete_iff`).
-/
import Bpc.Deploy.EffectiveAccess
import Bpc.Lib.FirstMatch

namespace Bpc.Deploy

open SlashPath Controlplane Interaction FirstMatch

variable {Data : Type} (P : Runtime Data)

/-! ## Packets -/

/-- The states of conntrack. -/
inductive ConnState where
  | new
  | established
  | related
  | invalid
  | untracked
  deriving DecidableEq

/-- A forwarded packet, with what conntrack knows of it. -/
structure Packet where
  source : Nat
  destination : Nat
  out : Str
  state : ConnState
  original : Option (Nat × Nat)

/-- An operand: `a.b.c.d/32` or a route. -/
inductive Net where
  | host (address : Nat)
  | block (network : Cidr 32)

/-- The address is in the network. -/
def Net.has : Net → Nat → Bool
  | host address, a => a = address
  | block network, a => a ∈ network

/-- A condition of a rule. -/
inductive Condition where
  | s (net : Net)
  | d (net : Net)
  | ctorigsrc (net : Net)
  | ctorigdst (net : Net)
  | ctstate (states : List ConnState)
  | notOut (interface : Str)

/-- A packet without an original tuple matches no condition on it. -/
def Condition.holds : Condition → Packet → Bool
  | s net, p => net.has p.source
  | d net, p => net.has p.destination
  | ctorigsrc net, p => p.original.any fun o => net.has o.1
  | ctorigdst net, p => p.original.any fun o => net.has o.2
  | ctstate states, p => p.state ∈ states
  | notOut interface, p => p.out ≠ interface

/-! ## Devices -/

/-- `is_compat_site_router`. -/
def isCompatSiteRouter (device : Record) : Bool := P.strField device "role" = ("gateway" : Str)

/-- The Device of a file, with its address. -/
def clientDevice (includeInactive : Bool) (file : Option Data) : Option (Record × Nat) :=
  match file with
  | none => none
  | some data =>
    match P.loads data with
    | .object device =>
      if isCompatSiteRouter P device then none
      else if !includeInactive && !deviceIsActive device then none
      else
        let rawAddress := strip (P.strField device "wireguard_address")
        if rawAddress = [] then none
        else
          match P.ipInterface rawAddress with
          | some (.v4 address) => some (device, address)
          | _ => none
    | _ => none

/-- `_active_client_devices`. -/
def activeClientDevices (includeInactive : Bool) : AccessHandler Data (List (Record × Nat)) :=
  (Prog.ask (Req.glob .devices) : AccessHandler Data (List Str)).bind fun names =>
    Prog.collect (fun name => (askAccess (filePath .devices name)).bind fun file =>
      Prog.ret (clientDevice P includeInactive file)) (sortedNames names)

/-! ## Rules -/

/-- What `sync_mesh_ingress` left behind. -/
structure MeshIngress where
  sources : List Nat
  routes : List (Cidr 32)

/-- `BPC-MESH-GUARD`; what it does not drop returns. -/
def meshGuard (mesh : MeshIngress) : List (Rule Condition) :=
  mesh.sources.flatMap fun source => mesh.routes.map fun route =>
    ⟨[.s (.host source), .d (.block route), .notOut "bpcrt0"], .drop⟩

/-- The text of an address, by which the addresses are sorted. -/
def sourceText (address : Nat) : Str := P.ipText address ++ "/32"

/-- `sorted(set(addresses))`. -/
def sortedSources (addresses : List Nat) : List Nat :=
  addresses.dedup.insertionSort fun a b => (compare (sourceText P a) (sourceText P b)).isLE = true

/-- Everything from or to an address is dropped. -/
def isolate (address : Nat) : List (Rule Condition) :=
  [⟨[.s (.host address)], .drop⟩, ⟨[.d (.host address)], .drop⟩]

/-- The flows that a Device may start, and no others. -/
def initiate (authorized : Nat × List (Cidr 32)) : List (Rule Condition) :=
  (authorized.2.map fun route =>
    ⟨[.ctorigsrc (.host authorized.1), .ctorigdst (.block route)], .accept⟩) ++
    [⟨[.ctorigsrc (.host authorized.1)], .drop⟩]

/-- The flows that may be started towards a Device. -/
def respond (authorized : Nat × List (Cidr 32)) : List (Rule Condition) :=
  authorized.2.map fun route =>
    ⟨[.ctorigdst (.host authorized.1), .ctorigsrc (.block route)], .accept⟩

/-- The rules after the jump to the mesh guard. -/
def accessRules (known active : List Nat) (authorized : List (Nat × List (Cidr 32))) :
    List (Rule Condition) :=
  (sortedSources P (known.filter (· ∉ active))).flatMap isolate ++
  (authorized.flatMap initiate ++
  ((sortedSources P (known.filter (· ∉ authorized.map Prod.fst))).map
    (fun source => ⟨[.ctorigsrc (.host source)], .drop⟩) ++
  (authorized.flatMap respond ++
  ((sortedSources P known).map (fun source => ⟨[.ctorigdst (.host source)], .drop⟩) ++
  ((sortedSources P known).flatMap isolate ++
  [⟨[.ctstate [.established, .related]], .accept⟩])))))

/-- The addresses of the state file, and the chain in two parts. -/
structure Installed where
  sources : List Nat
  guard : List (Rule Condition)
  rules : List (Rule Condition)

/-- The whole chain; the rules of the guard stand for the jump. -/
def Installed.chain (i : Installed) : List (Rule Condition) := i.guard ++ i.rules

/-- The addresses in the state file. -/
def knownAddresses : List Str → Except AccessRaise (List Nat)
  | [] => .ok []
  | text :: texts =>
    match P.ipInterface text with
    | some (.v4 address) =>
      match knownAddresses texts with
      | .ok rest => .ok (address :: rest)
      | .error e => .error e
    | _ => .error .value

/-- The sources of the mesh, if enabled. -/
def meshSources : Option MeshIngress → List Nat
  | none => []
  | some mesh => mesh.sources

/-- `_sync_access_firewall_locked`, up to the replacement of the chain. -/
def syncAccessFirewall (cluster : Bool) (previous : List Str) (mesh : Option MeshIngress) :
    AccessHandler Data Installed :=
  (activeClientDevices P true).bind fun devices =>
    (Prog.ofExcept (knownAddresses P previous)).bind fun old =>
      (Prog.collect (fun device : Record × Nat =>
        (effectiveNetworks P cluster device.1).bind fun routes =>
          Prog.ret (some (device.2, routes))) devices).bind fun authorized =>
        let known := old ++ devices.map Prod.snd ++ meshSources mesh
        let active := (devices.filter fun device => deviceIsActive device.1).map Prod.snd
        Prog.ret ⟨known, mesh.elim [] meshGuard, accessRules P known active authorized⟩

/-! ## What a run sees -/

variable {P}

variable (P) in
/-- The Devices that are listed, inactive ones included. -/
def clientDevices (w : World Data) : List (Record × Nat) :=
  (sortedNames (globNames w.content.canonical .devices)).filterMap fun name =>
    clientDevice P true (frozen w none (.readFile (clean (filePath .devices name))))

theorem eval_activeClientDevices (w : World Data) (failure : Option ControlStateError) :
    (activeClientDevices P true).eval (frozen w failure) = .ok (clientDevices P w) :=
  Prog.eval_collect_of _ fun _ _ => rfl

/-- The routes of a record, as the run evaluates them. -/
def RoutesOf (P : Runtime Data) (cluster : Bool) (w : World Data)
    (failure : Option ControlStateError)
    (device : Record) (routes : List (Cidr 32)) : Prop :=
  (effectiveNetworks P cluster device).eval (frozen w failure) = .ok routes

/-- An active Device has the address, and may reach the destination. -/
def Granted (P : Runtime Data) (cluster : Bool) (w : World Data)
    (failure : Option ControlStateError)
    (address destination : Nat) : Prop :=
  ∃ device routes, (device, address) ∈ clientDevices P w ∧ deviceIsActive device = true ∧
    RoutesOf P cluster w failure device routes ∧ ∃ n ∈ routes, destination ∈ n

/-- An active Device has the address. -/
def HeldActive (P : Runtime Data) (w : World Data) (address : Nat) : Prop :=
  ∃ device, (device, address) ∈ clientDevices P w ∧ deviceIsActive device = true

variable {cluster : Bool} {w : World Data} {failure : Option ControlStateError}

theorem RoutesOf.active {device : Record} {routes : List (Cidr 32)}
    (h : RoutesOf P cluster w failure device routes) (hne : routes ≠ []) :
    deviceIsActive device = true := by
  by_contra hinactive
  obtain ⟨_, _, hrest⟩ := Prog.eval_bind_ok _ h
  rw [Bool.not_eq_true] at hinactive
  rw [hinactive] at hrest
  exact hne (Except.ok.inj hrest).symm

variable {devices : List (Record × Nat)} {authorized : List (Nat × List (Cidr 32))}

theorem authorized_of_collect
    (h : (Prog.collect (fun device : Record × Nat =>
      (effectiveNetworks P cluster device.1).bind fun routes =>
        (Prog.ret (some (device.2, routes)) : AccessHandler Data _)) devices).eval
          (frozen w failure) =
      .ok authorized) :
    List.Forall₂ (fun device entry => entry.1 = device.2 ∧
      RoutesOf P cluster w failure device.1 entry.2) devices authorized := by
  obtain ⟨results, hresults, rfl⟩ := Prog.eval_collect _ h
  clear h
  induction hresults with
  | nil => exact .nil
  | cons hone _ ih =>
    obtain ⟨routes, hroutes, hret⟩ := Prog.eval_bind_ok _ hone
    obtain rfl := Except.ok.inj hret
    exact .cons ⟨rfl, hroutes⟩ ih

/-- **What a run computes**: known addresses, and routes of records. -/
theorem eval_syncAccessFirewall {previous : List Str} {mesh : Option MeshIngress}
    {installed : Installed}
    (h : (syncAccessFirewall P cluster previous mesh).eval (frozen w failure) = .ok installed) :
    ∃ known authorized,
      List.Forall₂ (fun device entry => entry.1 = device.2 ∧
        RoutesOf P cluster w failure device.1 entry.2) (clientDevices P w) authorized ∧
      (∀ device ∈ clientDevices P w, device.2 ∈ known) ∧
      installed = ⟨known, mesh.elim [] meshGuard, accessRules P known
        (((clientDevices P w).filter fun device => deviceIsActive device.1).map Prod.snd)
        authorized⟩ := by
  obtain ⟨devices, hdevices, h⟩ := Prog.eval_bind_ok _ h
  obtain rfl := Except.ok.inj ((eval_activeClientDevices w failure).symm.trans hdevices)
  obtain ⟨old, hold, h⟩ := Prog.eval_bind_ok _ h
  obtain ⟨authorized, hauthorized, h⟩ := Prog.eval_bind_ok _ h
  obtain rfl := Except.ok.inj h
  refine ⟨_, authorized, authorized_of_collect hauthorized, fun device hdevice => ?_, rfl⟩
  exact List.mem_append_left _ (List.mem_append_right _ (List.mem_map_of_mem hdevice))

/-! ## What the groups say -/

section

variable {packet : Packet}

variable {address : Nat} {addresses : List Nat}

theorem mem_sortedSources : address ∈ sortedSources P addresses ↔ address ∈ addresses := by
  rw [sortedSources, List.mem_insertionSort, List.mem_dedup]

theorem applies_iff {conditions : List Condition} {target : Verdict} :
    (⟨conditions, target⟩ : Rule Condition).applies Condition.holds packet = true ↔
      ∀ c ∈ conditions, c.holds packet = true := List.all_eq_true

theorem applies_single {condition : Condition} {target : Verdict} :
    (⟨[condition], target⟩ : Rule Condition).applies Condition.holds packet =
      condition.holds packet :=
  Bool.and_true _

theorem holds_origsrc {net : Net} : (Condition.ctorigsrc net).holds packet = true ↔
    ∃ o, packet.original = some o ∧ net.has o.1 = true := by
  show packet.original.any _ = true ↔ _
  cases packet.original <;> simp

theorem holds_origdst {net : Net} : (Condition.ctorigdst net).holds packet = true ↔
    ∃ o, packet.original = some o ∧ net.has o.2 = true := by
  show packet.original.any _ = true ↔ _
  cases packet.original <;> simp

theorem has_host {a : Nat} : (Net.host address).has a = true ↔ a = address :=
  decide_eq_true_iff

theorem has_block {network : Cidr 32} {a : Nat} : (Net.block network).has a = true ↔ a ∈ network :=
  decide_eq_true_iff

theorem isolate_silent_iff :
    (∀ r ∈ (sortedSources P addresses).flatMap isolate, r.applies Condition.holds packet = false) ↔
      packet.source ∉ addresses ∧ packet.destination ∉ addresses := by
  constructor
  · intro h
    have hof : ∀ {address : Nat} {r : Rule Condition}, address ∈ addresses → r ∈ isolate address →
        r.applies Condition.holds packet = false := fun haddress hr =>
      h _ (List.mem_flatMap.mpr ⟨_, mem_sortedSources.mpr haddress, hr⟩)
    constructor
    · intro hmem
      have hfalse := hof hmem List.mem_cons_self
      rw [applies_single] at hfalse
      exact Bool.eq_false_iff.mp hfalse (has_host.mpr rfl)
    · intro hmem
      have hfalse := hof hmem (List.mem_cons_of_mem _ List.mem_cons_self)
      rw [applies_single] at hfalse
      exact Bool.eq_false_iff.mp hfalse (has_host.mpr rfl)
  · rintro ⟨hsource, hdestination⟩ r hr
    obtain ⟨address, haddress, hr⟩ := List.mem_flatMap.mp hr
    have hmem := mem_sortedSources.mp haddress
    refine Bool.eq_false_iff.mpr fun happlies => ?_
    rcases List.mem_cons.mp hr with rfl | hr
    · rw [applies_single] at happlies
      obtain rfl := has_host.mp happlies
      exact hsource hmem
    · obtain rfl := List.mem_singleton.mp hr
      rw [applies_single] at happlies
      obtain rfl := has_host.mp happlies
      exact hdestination hmem

theorem isolate_drops : ∀ r ∈ addresses.flatMap isolate, r.target = .drop := by
  intro r hr
  obtain ⟨address, _, hr⟩ := List.mem_flatMap.mp hr
  rcases List.mem_cons.mp hr with rfl | hr
  · rfl
  · obtain rfl := List.mem_singleton.mp hr
    rfl

theorem map_drops {condition : Nat → Condition} :
    ∀ r ∈ addresses.map (fun a => (⟨[condition a], .drop⟩ : Rule Condition)), r.target = .drop := by
  intro r hr
  obtain ⟨address, _, rfl⟩ := List.mem_map.mp hr
  rfl

theorem map_silent {condition : Nat → Condition}
    (h : ∀ r ∈ (sortedSources P addresses).map (fun a => (⟨[condition a], .drop⟩ : Rule Condition)),
      r.applies Condition.holds packet = false) (hmem : address ∈ addresses) :
    (condition address).holds packet = false := by
  have hfalse := h _ (List.mem_map_of_mem (mem_sortedSources.mpr hmem))
  rw [applies_single] at hfalse
  exact hfalse

theorem initiate_accept
    (h : verdict Condition.holds (authorized.flatMap initiate) packet = some .accept) :
    ∃ o, packet.original = some o ∧
      ∃ entry ∈ authorized, entry.1 = o.1 ∧ ∃ n ∈ entry.2, o.2 ∈ n := by
  obtain ⟨r, hr, happlies, htarget⟩ := exists_of_verdict h
  obtain ⟨entry, hentry, hr⟩ := List.mem_flatMap.mp hr
  rcases List.mem_append.mp hr with hr | hr
  · obtain ⟨route, hroute, rfl⟩ := List.mem_map.mp hr
    have hall := applies_iff.mp happlies
    obtain ⟨o, ho, hsource⟩ := holds_origsrc.mp (hall _ List.mem_cons_self)
    obtain ⟨o', ho', hdestination⟩ :=
      holds_origdst.mp (hall _ (List.mem_cons_of_mem _ List.mem_cons_self))
    obtain rfl := Option.some.inj (ho.symm.trans ho')
    exact ⟨o, ho, entry, hentry, (has_host.mp hsource).symm, route, hroute,
      has_block.mp hdestination⟩
  · obtain rfl := List.mem_singleton.mp hr
    cases htarget

theorem respond_accept
    (h : verdict Condition.holds (authorized.flatMap respond) packet = some .accept) :
    ∃ o, packet.original = some o ∧
      ∃ entry ∈ authorized, entry.1 = o.2 ∧ ∃ n ∈ entry.2, o.1 ∈ n := by
  obtain ⟨r, hr, happlies, _⟩ := exists_of_verdict h
  obtain ⟨entry, hentry, hr⟩ := List.mem_flatMap.mp hr
  obtain ⟨route, hroute, rfl⟩ := List.mem_map.mp hr
  have hall := applies_iff.mp happlies
  obtain ⟨o, ho, hdestination⟩ := holds_origdst.mp (hall _ List.mem_cons_self)
  obtain ⟨o', ho', hsource⟩ :=
    holds_origsrc.mp (hall _ (List.mem_cons_of_mem _ List.mem_cons_self))
  obtain rfl := Option.some.inj (ho.symm.trans ho')
  exact ⟨o, ho, entry, hentry, (has_host.mp hdestination).symm, route, hroute, has_block.mp hsource⟩

theorem initiate_silent
    (h : ∀ r ∈ authorized.flatMap initiate, r.applies Condition.holds packet = false)
    {o : Nat × Nat} (ho : packet.original = some o) : o.1 ∉ authorized.map Prod.fst := by
  intro hmem
  obtain ⟨entry, hentry, heq⟩ := List.mem_map.mp hmem
  have hfalse := h ⟨[.ctorigsrc (.host entry.1)], .drop⟩ (List.mem_flatMap.mpr
    ⟨entry, hentry, List.mem_append_right _ List.mem_cons_self⟩)
  rw [applies_single] at hfalse
  exact Bool.eq_false_iff.mp hfalse (holds_origsrc.mpr ⟨o, ho, has_host.mpr heq.symm⟩)

/-- **What the rules accept**, of an original tuple and two addresses. -/
theorem accessRules_accept {known active : List Nat}
    (h : verdict Condition.holds (accessRules P known active authorized) packet = some .accept)
    (hknown : packet.source ∈ known ∨ packet.destination ∈ known ∨
      ∃ o, packet.original = some o ∧ (o.1 ∈ known ∨ o.2 ∈ known)) :
    (packet.source ∈ known → packet.source ∈ active) ∧
    (packet.destination ∈ known → packet.destination ∈ active) ∧
    ∃ o, packet.original = some o ∧
      ((∃ entry ∈ authorized, entry.1 = o.1 ∧ ∃ n ∈ entry.2, o.2 ∈ n) ∨
        o.1 ∉ known ∧ ∃ entry ∈ authorized, entry.1 = o.2 ∧ ∃ n ∈ entry.2, o.1 ∈ n) := by
  unfold accessRules at h
  obtain ⟨hretired, h⟩ := accept_after_drops isolate_drops h
  obtain ⟨hsource, hdestination⟩ := isolate_silent_iff.mp hretired
  have hactive : ∀ {a : Nat}, a ∉ known.filter (· ∉ active) → a ∈ known → a ∈ active := by
    intro a hnot ha
    by_contra hinactive
    exact hnot (List.mem_filter.mpr ⟨ha, decide_eq_true hinactive⟩)
  refine ⟨hactive hsource, hactive hdestination, ?_⟩
  rcases accept_append h with h | ⟨hsilent, h⟩
  · obtain ⟨o, ho, hentry⟩ := initiate_accept h
    exact ⟨o, ho, .inl hentry⟩
  obtain ⟨hunlisted, h⟩ := accept_after_drops map_drops h
  -- no flow of a known address gets here
  have horiginal : ∀ o, packet.original = some o → o.1 ∉ known := by
    intro o ho hmem
    have hlisted := initiate_silent (verdict_eq_none.mp hsilent) ho
    have hfalse := map_silent hunlisted (List.mem_filter.mpr ⟨hmem, decide_eq_true hlisted⟩)
    exact Bool.eq_false_iff.mp hfalse (holds_origsrc.mpr ⟨o, ho, has_host.mpr rfl⟩)
  rcases accept_append h with h | ⟨_, h⟩
  · obtain ⟨o, ho, hentry⟩ := respond_accept h
    exact ⟨o, ho, .inr ⟨horiginal o ho, hentry⟩⟩
  obtain ⟨htowards, h⟩ := accept_after_drops map_drops h
  obtain ⟨huntracked, _⟩ := accept_after_drops isolate_drops h
  obtain ⟨hsource', hdestination'⟩ := isolate_silent_iff.mp huntracked
  -- and no packet of a known address gets to the last rule
  exfalso
  rcases hknown with hmem | hmem | ⟨o, ho, hmem | hmem⟩
  · exact hsource' hmem
  · exact hdestination' hmem
  · exact horiginal o ho hmem
  · have hfalse := map_silent htowards hmem
    exact Bool.eq_false_iff.mp hfalse (holds_origdst.mpr ⟨o, ho, has_host.mpr rfl⟩)

end

/-! ## Soundness -/

theorem meshGuard_drops (mesh : Option MeshIngress) :
    ∀ r ∈ mesh.elim [] meshGuard, r.target = .drop := by
  intro r hr
  cases mesh with
  | none => cases hr
  | some mesh =>
    obtain ⟨source, _, hr⟩ := List.mem_flatMap.mp hr
    obtain ⟨route, _, rfl⟩ := List.mem_map.mp hr
    rfl

theorem mem_active {address : Nat}
    (h : address ∈ ((clientDevices P w).filter fun device => deviceIsActive device.1).map
      Prod.snd) : HeldActive P w address := by
  obtain ⟨device, hdevice, rfl⟩ := List.mem_map.mp h
  obtain ⟨hlisted, hactive⟩ := List.mem_filter.mp hdevice
  exact ⟨device.1, hlisted, hactive⟩

variable {entry : Nat × List (Cidr 32)}

theorem granted_of_entry
    (hentries : List.Forall₂ (fun device entry => entry.1 = device.2 ∧
      RoutesOf P cluster w failure device.1 entry.2) devices authorized)
    (hentry : entry ∈ authorized) {destination : Nat} (hroute : ∃ n ∈ entry.2, destination ∈ n) :
    ∃ device routes, (device, entry.1) ∈ devices ∧ deviceIsActive device = true ∧
      RoutesOf P cluster w failure device routes ∧ ∃ n ∈ routes, destination ∈ n := by
  induction hentries with
  | nil => cases hentry
  | @cons device entry' devices authorized hone _ ih =>
    rcases List.mem_cons.mp hentry with rfl | hentry
    · obtain ⟨n, hn, hmem⟩ := hroute
      have hactive := hone.2.active (List.ne_nil_of_mem hn)
      refine ⟨device.1, entry.2, ?_, hactive, hone.2, n, hn, hmem⟩
      rw [hone.1]
      exact List.mem_cons_self
    · obtain ⟨device', routes, hlisted, hrest⟩ := ih hentry
      exact ⟨device', routes, List.mem_cons_of_mem _ hlisted, hrest⟩

/-- **The chain is sound**: what it accepts of a known address concerns no retired address, and has
    the grant of an active Device. -/
theorem access_chain_sound {cluster : Bool} {previous : List Str} {mesh : Option MeshIngress}
    {w : World Data} {failure : Option ControlStateError} {installed : Installed}
    (h : (syncAccessFirewall P cluster previous mesh).eval (frozen w failure) = .ok installed)
    {packet : Packet} (haccept : verdict Condition.holds installed.chain packet = some .accept)
    (hknown : packet.source ∈ installed.sources ∨ packet.destination ∈ installed.sources ∨
      ∃ o, packet.original = some o ∧ (o.1 ∈ installed.sources ∨ o.2 ∈ installed.sources)) :
    (packet.source ∈ installed.sources → HeldActive P w packet.source) ∧
    (packet.destination ∈ installed.sources → HeldActive P w packet.destination) ∧
    ∃ o, packet.original = some o ∧ (Granted P cluster w failure o.1 o.2 ∨
      o.1 ∉ installed.sources ∧ Granted P cluster w failure o.2 o.1) := by
  obtain ⟨known, authorized, hentries, _, rfl⟩ := eval_syncAccessFirewall h
  obtain ⟨_, haccept⟩ := accept_after_drops (meshGuard_drops mesh) haccept
  obtain ⟨hsource, hdestination, o, ho, hgrant⟩ := accessRules_accept haccept hknown
  refine ⟨fun hmem => mem_active (hsource hmem), fun hmem => mem_active (hdestination hmem),
    o, ho, ?_⟩
  rcases hgrant with ⟨entry, hentry, heq, hroute⟩ | ⟨hunknown, entry, hentry, heq, hroute⟩
  · left
    rw [Granted, ← heq]
    exact granted_of_entry hentries hentry hroute
  · right
    refine ⟨hunknown, ?_⟩
    rw [Granted, ← heq]
    exact granted_of_entry hentries hentry hroute

/-! ## Completeness -/

section

variable {packet : Packet} {o : Nat × Nat}

theorem initiate_other (ho : packet.original = some o) (hne : entry.1 ≠ o.1) :
    ∀ r ∈ initiate entry, r.applies Condition.holds packet = false := by
  have hnot : (Condition.ctorigsrc (.host entry.1)).holds packet ≠ true := by
    intro hholds
    obtain ⟨o', ho', hhas⟩ := holds_origsrc.mp hholds
    obtain rfl := Option.some.inj (ho.symm.trans ho')
    exact hne (has_host.mp hhas).symm
  intro r hr
  refine Bool.eq_false_iff.mpr fun happlies => hnot ?_
  rcases List.mem_append.mp hr with hr | hr
  · obtain ⟨route, _, rfl⟩ := List.mem_map.mp hr
    exact applies_iff.mp happlies _ List.mem_cons_self
  · obtain rfl := List.mem_singleton.mp hr
    exact applies_iff.mp happlies _ List.mem_cons_self

theorem initiate_granted (ho : packet.original = some o) (heq : entry.1 = o.1)
    (hroute : ∃ n ∈ entry.2, o.2 ∈ n) :
    verdict Condition.holds (initiate entry) packet = some .accept := by
  rw [initiate, verdict_append]
  cases hfirst : verdict Condition.holds (entry.2.map fun route => (⟨[.ctorigsrc (.host entry.1),
      .ctorigdst (.block route)], .accept⟩ : Rule Condition)) packet with
  | none =>
    obtain ⟨n, hn, hmem⟩ := hroute
    have hfalse := verdict_eq_none.mp hfirst _ (List.mem_map_of_mem hn)
    refine absurd (applies_iff.mpr fun c hc => ?_) (Bool.eq_false_iff.mp hfalse)
    rcases List.mem_cons.mp hc with rfl | hc
    · exact holds_origsrc.mpr ⟨o, ho, has_host.mpr heq.symm⟩
    · obtain rfl := List.mem_singleton.mp hc
      exact holds_origdst.mpr ⟨o, ho, has_block.mpr hmem⟩
  | some v =>
    obtain ⟨r, hr, _, rfl⟩ := exists_of_verdict hfirst
    obtain ⟨route, _, rfl⟩ := List.mem_map.mp hr
    rfl

theorem initiate_blocked (ho : packet.original = some o)
    (hempty : ∀ entry ∈ authorized, entry.1 = o.1 → entry.2 = [])
    (hblocked : ∃ entry ∈ authorized, entry.1 = o.1) :
    verdict Condition.holds (authorized.flatMap initiate) packet = some .drop := by
  induction authorized with
  | nil =>
    obtain ⟨entry, hentry, _⟩ := hblocked
    cases hentry
  | cons entry authorized ih =>
    rw [List.flatMap_cons]
    by_cases heq : entry.1 = o.1
    · have hone : verdict Condition.holds (initiate entry) packet = some .drop := by
        rw [initiate, hempty entry List.mem_cons_self heq]
        show (if _ then _ else _) = _
        rw [applies_single]
        exact if_pos (holds_origsrc.mpr ⟨o, ho, has_host.mpr heq.symm⟩)
      rw [verdict_append, hone]
      rfl
    · rw [verdict_skip (initiate_other ho heq)]
      refine ih (fun e he => hempty e (List.mem_cons_of_mem _ he)) ?_
      obtain ⟨e, he, heo⟩ := hblocked
      rcases List.mem_cons.mp he with rfl | he
      · exact absurd heo heq
      · exact ⟨e, he, heo⟩

end

theorem entries_split {R : Record × Nat → Nat × List (Cidr 32) → Prop}
    {before after : List (Record × Nat)} {device : Record × Nat}
    (h : List.Forall₂ R (before ++ device :: after) authorized) :
    ∃ first entry rest, authorized = first ++ entry :: rest ∧ List.Forall₂ R before first ∧
      R device entry := by
  induction before generalizing authorized with
  | nil =>
    cases h with
    | cons hone hrest => exact ⟨[], _, _, rfl, .nil, hone⟩
  | cons d before ih =>
    cases h with
    | cons hone hrest =>
      obtain ⟨first, entry, rest, rfl, hfirst, hentry⟩ := ih hrest
      exact ⟨_ :: first, entry, rest, rfl, .cons hone hfirst, hentry⟩

theorem entries_of_inactive {address : Nat}
    (hentries : List.Forall₂ (fun device entry => entry.1 = device.2 ∧
      RoutesOf P cluster w failure device.1 entry.2) devices authorized)
    (hinactive : ∀ device ∈ devices, device.2 = address → deviceIsActive device.1 ≠ true) :
    (∀ entry ∈ authorized, entry.1 = address → entry.2 = []) ∧
      ((∃ entry ∈ authorized, entry.1 = address) ↔ ∃ device ∈ devices, device.2 = address) := by
  induction hentries with
  | nil =>
    refine ⟨fun entry hentry => (by cases hentry), ?_⟩
    constructor
    · rintro ⟨_, h, _⟩
      cases h
    · rintro ⟨_, h, _⟩
      cases h
  | @cons device entry devices authorized hone _ ih =>
    obtain ⟨hempty, hiff⟩ := ih fun d hd => hinactive d (List.mem_cons_of_mem _ hd)
    constructor
    · intro e he heq
      rcases List.mem_cons.mp he with rfl | he
      · by_contra hne
        exact hinactive device List.mem_cons_self (hone.1.symm.trans heq) (hone.2.active hne)
      · exact hempty e he heq
    · simp only [List.mem_cons, exists_eq_or_imp, hiff, hone.1]

/-- **A granted flow is accepted iff no record before the Device's own has its address.** -/
theorem access_chain_complete_iff {cluster : Bool} {previous : List Str} {mesh : Option MeshIngress}
    {w : World Data} {failure : Option ControlStateError} {installed : Installed}
    (h : (syncAccessFirewall P cluster previous mesh).eval (frozen w failure) = .ok installed)
    (hdistinct : (clientDevices P w).Pairwise fun d e =>
      deviceIsActive d.1 = true → deviceIsActive e.1 = true → d.2 ≠ e.2)
    {before after : List (Record × Nat)} {device : Record} {address : Nat}
    (hdevices : clientDevices P w = before ++ (device, address) :: after)
    (hactive : deviceIsActive device = true) {packet : Packet} {destination : Nat}
    (horiginal : packet.original = some (address, destination)) {routes : List (Cidr 32)}
    (hroutes : RoutesOf P cluster w failure device routes) (hroute : ∃ n ∈ routes, destination ∈ n)
    (hsource : packet.source ∈ installed.sources → HeldActive P w packet.source)
    (hdestination : packet.destination ∈ installed.sources → HeldActive P w packet.destination) :
    verdict Condition.holds installed.rules packet = some .accept ↔
      ∀ d ∈ before, d.2 ≠ address := by
  obtain ⟨known, authorized, hentries, _, rfl⟩ := eval_syncAccessFirewall h
  -- the first group says nothing
  have hretired : ∀ {a : Nat}, (a ∈ known → HeldActive P w a) → a ∉ known.filter (· ∉
      ((clientDevices P w).filter fun device => deviceIsActive device.1).map Prod.snd) := by
    intro a ha hmem
    obtain ⟨hknown, hnot⟩ := List.mem_filter.mp hmem
    obtain ⟨d, hd, hdactive⟩ := ha hknown
    exact of_decide_eq_true hnot (List.mem_map.mpr
      ⟨(d, a), List.mem_filter.mpr ⟨hd, hdactive⟩, rfl⟩)
  show verdict Condition.holds (accessRules P _ _ _) packet = _ ↔ _
  rw [accessRules, verdict_skip (isolate_silent_iff.mpr ⟨hretired hsource, hretired hdestination⟩)]
  rw [hdevices] at hentries hdistinct
  obtain ⟨first, entry, rest, rfl, hfirst, hentry, hentryRoutes⟩ := entries_split hentries
  have hinactive : ∀ d ∈ before, d.2 = address → deviceIsActive d.1 ≠ true := by
    intro d hd heq hdactive
    have hpair := (List.pairwise_append.mp hdistinct).2.2 d hd _ List.mem_cons_self
    exact hpair hdactive hactive heq
  obtain ⟨hempty, hiff⟩ := entries_of_inactive hfirst hinactive
  rw [List.flatMap_append, List.append_assoc]
  by_cases hblocked : ∃ d ∈ before, d.2 = address
  · rw [verdict_append, initiate_blocked horiginal hempty (hiff.mpr hblocked)]
    obtain ⟨d, hd, heq⟩ := hblocked
    exact ⟨fun hfalse => (by cases hfalse), fun hnone => absurd heq (hnone d hd)⟩
  · have hsilent : ∀ r ∈ first.flatMap initiate, r.applies Condition.holds packet = false := by
      intro r hr
      obtain ⟨e, he, hr⟩ := List.mem_flatMap.mp hr
      exact initiate_other horiginal (fun heq => hblocked (hiff.mp ⟨e, he, heq⟩)) r hr
    have hgranted : verdict Condition.holds (initiate entry) packet = some .accept := by
      refine initiate_granted horiginal hentry ?_
      rw [← Except.ok.inj (hroutes.symm.trans hentryRoutes)]
      exact hroute
    rw [verdict_skip hsilent, List.flatMap_cons, List.append_assoc, verdict_append, hgranted]
    exact ⟨fun _ d hd heq => hblocked ⟨d, hd, heq⟩, fun _ => rfl⟩

/-! ## An address that is given out again -/

theorem clientDevice_dumps {device : Record} {address : Nat}
    (hrole : isCompatSiteRouter P device = false)
    (hraw : strip (P.strField device "wireguard_address") ≠ [])
    (haddress : P.ipInterface (strip (P.strField device "wireguard_address")) =
      some (.v4 address)) :
    clientDevice P true (some (P.dumps device)) = some (device, address) := by
  unfold clientDevice
  dsimp only
  rw [P.loads_dumps]
  dsimp only
  rw [hrole, if_neg Bool.false_ne_true, if_neg (by simp), if_neg hraw, haddress]

/-- `192.168.7.3`. -/
def reusedAddress : Nat := 3232237315

/-- A Device with this address. -/
def reusingDevice (id : Str) (revoked : Bool) : Record :=
  .of [("id", .str id), ("wireguard_address", .str "192.168.7.3/32"), ("revoked", .bool revoked)]

/-- Two records with one address, the second active. -/
def reusedRecords (firstRevoked : Bool) : List (Dir × Str × Record) :=
  [(.devices, "a", reusingDevice "a" firstRevoked),
    (.devices, "b", reusingDevice "b" (!firstRevoked)),
   (.access, "device-a", accessRecord "device" "a" (texts [tenNetwork]) []),
   (.access, "device-b", accessRecord "device" "b" (texts [tenNetwork]) [])]

/-- The world with these records. -/
def reusedWorld (firstRevoked : Bool) : World Loaded :=
  startWorld plainRuntime (reusedRecords firstRevoked) []

theorem clientDevices_reused (firstRevoked : Bool) :
    clientDevices plainRuntime (reusedWorld firstRevoked) =
      [(reusingDevice "a" firstRevoked, reusedAddress),
        (reusingDevice "b" (!firstRevoked), reusedAddress)] := by
  have hnames : sortedNames (globNames (reusedWorld firstRevoked).content.canonical .devices) =
      ["a.json".toList, "b.json".toList] := by
    cases firstRevoked <;> decide +kernel
  have hkeys : ((reusedRecords firstRevoked).map fun e => recordKey e.1 e.2.1).Nodup := by
    cases firstRevoked <;> decide +kernel
  have hread : ∀ {x : Str} {r : Record}, (.devices, x, r) ∈ reusedRecords firstRevoked →
      isReplicated (recordKey .devices x) = true →
      frozen (reusedWorld firstRevoked) none (.readFile (recordKey .devices x)) =
        some (plainRuntime.dumps r) := by
    intro x r hr hrep
    exact (if_pos hrep).trans (startWorld_file hkeys hr)
  have hclient : ∀ revoked : Bool,
      clientDevice plainRuntime true (some (plainRuntime.dumps (reusingDevice "a" revoked))) =
        some (reusingDevice "a" revoked, reusedAddress) ∧
      clientDevice plainRuntime true (some (plainRuntime.dumps (reusingDevice "b" revoked))) =
        some (reusingDevice "b" revoked, reusedAddress) := by
    intro revoked
    constructor <;>
    · refine clientDevice_dumps ?_ ?_ ?_ <;> cases revoked <;> decide +kernel
  have ha : clean (filePath .devices "a.json") = recordKey .devices "a" := by decide +kernel
  have hb : clean (filePath .devices "b.json") = recordKey .devices "b" := by decide +kernel
  have hfirst := hread (x := "a".toList) List.mem_cons_self (by decide +kernel)
  have hsecond := hread (x := "b".toList) (List.mem_cons_of_mem _ List.mem_cons_self)
    (by decide +kernel)
  rw [clientDevices, hnames, List.filterMap_cons, List.filterMap_cons, List.filterMap_nil, ha, hb,
    hfirst, hsecond, (hclient _).1, (hclient _).2]

/-- A packet of the flow from the address to `10.0.0.0`. -/
def reusedPacket : Packet := ⟨reusedAddress, 10 * 2 ^ 24, "eth0", .new,
    some (reusedAddress, 10 * 2 ^ 24)⟩

/-- What is installed there. -/
def reusedInstalled (firstRevoked : Bool) : Except AccessRaise Installed :=
  (syncAccessFirewall plainRuntime true [] none).eval (frozen (reusedWorld firstRevoked) none)

theorem reused_routes (firstRevoked : Bool) :
    RoutesOf plainRuntime true (reusedWorld firstRevoked) none
      (if firstRevoked then reusingDevice "b" false else reusingDevice "a" false) [tenNetwork] := by
  cases firstRevoked <;> (show (_ : Except AccessRaise (List (Cidr 32))) = _; decide +kernel)

/-- The old record of a revoked Device blocks the new one. -/
theorem reused_address_blocked : ∃ installed, reusedInstalled true = .ok installed ∧
    clientDevices plainRuntime (reusedWorld true) =
      [(reusingDevice "a" true, reusedAddress), (reusingDevice "b" false, reusedAddress)] ∧
    deviceIsActive (reusingDevice "a" true) = false ∧
      deviceIsActive (reusingDevice "b" false) = true ∧
    RoutesOf plainRuntime true (reusedWorld true) none (reusingDevice "b" false) [tenNetwork] ∧
    reusedPacket.original = some (reusedAddress, 10 * 2 ^ 24) ∧ 10 * 2 ^ 24 ∈ tenNetwork ∧
    reusedPacket.source = reusedAddress ∧ reusedPacket.destination ∉ installed.sources ∧
    verdict Condition.holds installed.rules reusedPacket = some .drop := by
  have hchecks : (match reusedInstalled true with
      | .ok installed => decide (reusedPacket.destination ∉ installed.sources) &&
          decide (verdict Condition.holds installed.rules reusedPacket = some .drop)
      | .error _ => false) = true := by decide +kernel
  cases hinstalled : reusedInstalled true with
  | error e =>
    rw [hinstalled] at hchecks
    cases hchecks
  | ok installed =>
    rw [hinstalled] at hchecks
    obtain ⟨hdestination, hdrop⟩ := Bool.and_eq_true_iff.mp hchecks
    exact ⟨installed, rfl, clientDevices_reused true, by decide +kernel, by decide +kernel,
      reused_routes true, rfl, by decide, rfl, of_decide_eq_true hdestination,
        of_decide_eq_true hdrop⟩

/-- If the record of the active Device comes first, its flow is accepted. -/
theorem first_record_accepted : ∃ installed, reusedInstalled false = .ok installed ∧
    verdict Condition.holds installed.rules reusedPacket = some .accept := by
  have hok : (reusedInstalled false).isOk = true := by decide +kernel
  cases hinstalled : reusedInstalled false with
  | error e =>
    rw [hinstalled] at hok
    cases hok
  | ok installed =>
    have hheld : HeldActive plainRuntime (reusedWorld false) reusedAddress := by
      refine ⟨reusingDevice "a" false, ?_, by decide +kernel⟩
      rw [clientDevices_reused]
      exact List.mem_cons_self
    have hdistinct : (clientDevices plainRuntime (reusedWorld false)).Pairwise fun d e =>
        deviceIsActive d.1 = true → deviceIsActive e.1 = true → d.2 ≠ e.2 := by
      rw [clientDevices_reused]
      refine List.pairwise_pair.mpr fun _ hb => absurd hb ?_
      decide +kernel
    have hdevices : clientDevices plainRuntime (reusedWorld false) =
      [] ++ (reusingDevice "a" false, reusedAddress) :: [(reusingDevice "b" true, reusedAddress)] :=
        clientDevices_reused false
    have hroutes : RoutesOf plainRuntime true (reusedWorld false) none (reusingDevice "a" false)
      [tenNetwork] := reused_routes false
    refine ⟨installed, rfl, (access_chain_complete_iff hinstalled hdistinct hdevices
      (by decide +kernel) rfl hroutes ⟨tenNetwork, List.mem_cons_self, by decide⟩
        (fun _ => hheld) ?_).mpr ?_⟩
    · intro hmem
      have hnot : (match reusedInstalled false with
          | .ok installed => decide (reusedPacket.destination ∉ installed.sources)
          | .error _ => false) = true := by decide +kernel
      rw [hinstalled] at hnot
      exact absurd hmem (of_decide_eq_true hnot)
    · exact fun d hd => by cases hd

/-- An accepted packet, and the grant behind it. -/
theorem accepted_flow_granted : ∃ installed, reusedInstalled false = .ok installed ∧
    verdict Condition.holds installed.chain reusedPacket = some .accept ∧
    reusedAddress ∈ installed.sources ∧
    ∃ o, reusedPacket.original = some o ∧
      (Granted plainRuntime true (reusedWorld false) none o.1 o.2 ∨
      o.1 ∉ installed.sources ∧ Granted plainRuntime true (reusedWorld false) none o.2 o.1) := by
  have hchecks : (match reusedInstalled false with
      | .ok installed => decide (reusedAddress ∈ installed.sources) &&
          decide (verdict Condition.holds installed.chain reusedPacket = some .accept)
      | .error _ => false) = true := by decide +kernel
  cases hinstalled : reusedInstalled false with
  | error e =>
    rw [hinstalled] at hchecks
    cases hchecks
  | ok installed =>
    rw [hinstalled] at hchecks
    obtain ⟨hsource, haccept⟩ := Bool.and_eq_true_iff.mp hchecks
    have hsource := of_decide_eq_true hsource
    have haccept := of_decide_eq_true haccept
    exact ⟨installed, rfl, haccept, hsource,
      (access_chain_sound hinstalled haccept (.inl hsource)).2.2⟩

end Bpc.Deploy
