/-
  FORWARD DELIVERY — a packet crosses the mesh over a path that the Controller (Python) computed
  and each Node (Go) checks on its own.

  In a `Fleet` every hop that has a configuration accepts the frame (`Fleet.accepts`), but it
  passes it on only over a link of its own, and a path may run over a link that is only REPORTED:
  `forward_delivered_iff` is exact, `reported_link_strands_packet` is the packet that is lost.
-/
import Bpc.Deploy.Configurable
import Bpc.Routed.Carriage

namespace Bpc.Deploy

open SlashPath Controlplane Utf8
open Routed (GoString GoLib Environment Network Holds Carries)

variable {Data : Type} {P : Runtime Data} {dir : ControlDir Data} {F : Type} {N : PyFloat F}
  {L : GoLib F} {now : Int} {id : Str}

/-! ## The setting -/

/-- Every known Node holds its configuration; path ids do not collide. -/
structure Fleet (P : Runtime Data) (dir : ControlDir Data) (N : PyFloat F) (now : Int)
    (configs : GoString → Routed.RoutingConfig F) : Prop where
  given : ∀ id, (nodeNamed P dir id).isSome → ∃ config,
    routingConfigForNode P dir N now id = .ok config ∧ configs (utf8 id) = goConfig config
  unambiguous : ∀ a b, (nodeNamed P dir a).isSome → (nodeNamed P dir b).isSome →
    ∀ p ∈ (configs (utf8 a)).paths ++ (configs (utf8 a)).transitPaths,
    ∀ q ∈ (configs (utf8 b)).paths ++ (configs (utf8 b)).transitPaths,
      p.id = q.id → p.ownerNodeID = q.ownerNodeID ∧ p.cidr = q.cidr ∧ p.hops = q.hops

/-- The mesh of a Node reaches exactly the peers of its configuration. -/
def MeshOf (config : Routed.RoutingConfig F) (env : Environment F) : Prop :=
  ∀ peer, env.ready peer = true ↔ peer ∈ config.links.map (·.peerNodeID)

/-- A link with a record and a known other end. -/
def Meshed (P : Runtime Data) (dir : ControlDir Data) (a b : Str) : Prop :=
  Joined P dir a b ∧ (nodeNamed P dir b).isSome

theorem knownPeer_iff {record : LinkRecord} (ends : LinkEnds P record) {peer : Str} :
    knownPeer P dir id record = some peer ↔
      ((record.left = id ∧ record.right = peer) ∨ (record.left = peer ∧ record.right = id)) ∧
        (nodeNamed P dir peer).isSome := by
  unfold knownPeer
  rw [Option.filter_eq_some_iff]
  refine and_congr_left fun _ => ?_
  unfold LinkRecord.peerOf
  by_cases hleft : id = record.left
  · rw [if_pos hleft]
    constructor
    · intro h
      exact .inl ⟨hleft.symm, Option.some.inj h⟩
    · rintro (⟨_, h⟩ | ⟨_, h⟩)
      · rw [h]
      · exact absurd (hleft.symm.trans h.symm) ends.ne
  · rw [if_neg hleft]
    by_cases hright : id = record.right
    · rw [if_pos hright]
      constructor
      · intro h
        exact .inr ⟨Option.some.inj h, hright.symm⟩
      · rintro (⟨h, _⟩ | ⟨h, _⟩)
        · exact absurd h.symm hleft
        · rw [h]
    · rw [if_neg hright]
      constructor
      · exact fun h => by cases h
      · rintro (⟨h, _⟩ | ⟨_, h⟩)
        · exact absurd h.symm hleft
        · exact absurd h.symm hright

variable {config : NodeConfig F}

/-- **The peers of a Node are its links of the mesh.** -/
theorem Issue.mem_peers (I : Issue P dir N now id config) {peer : GoString} :
    peer ∈ (goConfig config).links.map (·.peerNodeID) ↔ ∃ b, Meshed P dir id b ∧ peer = utf8 b := by
  rw [I.peers_perm.mem_iff, List.mem_map]
  constructor
  · rintro ⟨b, hb, rfl⟩
    obtain ⟨record, hrecord, hpeer⟩ := List.mem_filterMap.mp hb
    obtain ⟨hends, hnamed⟩ := (knownPeer_iff (linkEnds_of_mem hrecord)).mp hpeer
    exact ⟨b, ⟨⟨record, hrecord, hends⟩, hnamed⟩, rfl⟩
  · rintro ⟨b, ⟨⟨record, hrecord, hends⟩, hnamed⟩, rfl⟩
    refine ⟨b, List.mem_filterMap.mpr ⟨record, hrecord, ?_⟩, rfl⟩
    exact (knownPeer_iff (linkEnds_of_mem hrecord)).mpr ⟨hends, hnamed⟩

variable {configs : GoString → Routed.RoutingConfig F}

theorem Fleet.ready_iff (fleet : Fleet P dir N now configs) {a b : Str}
    (ha : (nodeNamed P dir a).isSome) {env : Environment F}
    (hmesh : MeshOf (configs (utf8 a)) env) :
    env.ready (utf8 b) = true ↔ Meshed P dir a b := by
  obtain ⟨config, hconfig, heq⟩ := fleet.given a ha
  obtain ⟨I⟩ := Issue.of_returned hconfig
  rw [hmesh, heq, I.mem_peers]
  constructor
  · rintro ⟨b', hmeshed, hb⟩
    rw [utf8_injective hb]
    exact hmeshed
  · exact fun hmeshed => ⟨b, hmeshed, rfl⟩

/-! ## Agreement -/

variable {path : TopologyPath F}

theorem Issue.transit_of_origin (I : Issue P dir N now id config) {source : Str}
    {route : RouteRecord} (o : Origin P dir now path source route) (hvisits : id ∈ path.hops) :
    ∃ p ∈ config.transitPaths, p.id = path.id ∧ p.owner = path.owner ∧ p.cidr = path.cidr ∧
      p.hops = path.hops := by
  obtain ⟨links, hway⟩ := I.snapshot.meshWay_iff.mp o.way
  obtain ⟨p, hp⟩ := I.exists_candidate o.listed o.starts hway
  obtain ⟨hid, howner, hcidr, hhops⟩ := candidateFromLinks_ok hp
  refine ⟨p, I.mem_transitPaths.mpr
    ⟨route, o.listed, source, o.starts, path.hops, links, hway, hvisits, hp⟩, ?_, ?_, ?_, hhops⟩
  · rw [hid, o.id]
  · rw [howner, o.owner]
  · rw [hcidr, o.cidr]

theorem Issue.routes_eq (I : Issue P dir N now id config) :
    (goConfig config).routes =
      ((routeRecords P dir).map fun route => (route.cidr, route.owner)).map goRoute :=
  congrArg (fun c : NodeConfig F => c.routes.map goRoute) I.config_eq

theorem Issue.overlay_eq (I : Issue P dir N now id config) :
    (goConfig config).overlaySubnet = utf8 (overlaySubnet P dir) :=
  congrArg (fun c : NodeConfig F => utf8 c.overlaySubnet) I.config_eq

theorem Fleet.agree (fleet : Fleet P dir N now configs) {a b : Str}
    (ha : (nodeNamed P dir a).isSome) (hb : (nodeNamed P dir b).isSome) (addr : Nat) :
    (configs (utf8 a)).routeFor L addr = (configs (utf8 b)).routeFor L addr ∧
      (configs (utf8 a)).inOverlay addr = (configs (utf8 b)).inOverlay addr := by
  obtain ⟨ca, hca, heqa⟩ := fleet.given a ha
  obtain ⟨cb, hcb, heqb⟩ := fleet.given b hb
  obtain ⟨Ia⟩ := Issue.of_returned hca
  obtain ⟨Ib⟩ := Issue.of_returned hcb
  rw [heqa, heqb]
  constructor
  · unfold Routed.RoutingConfig.routeFor Routed.RoutingConfig.matching
    rw [Ia.routes_eq, Ib.routes_eq]
  · unfold Routed.RoutingConfig.inOverlay
    rw [Ia.overlay_eq, Ib.overlay_eq]

variable {hop : Str}

theorem Fleet.transitPath (fleet : Fleet P dir N now configs) {s : Str}
    (hs : (nodeNamed P dir s).isSome) (hhop : (nodeNamed P dir hop).isSome)
    (hconfig : routingConfigForNode P dir N now s = .ok config) (hpath : path ∈ config.paths)
    (hvisits : hop ∈ path.hops) :
    ∃ q, (configs (utf8 hop)).transitPath (utf8 path.id) = some q ∧
      q.ownerNodeID = utf8 path.owner ∧ q.cidr = utf8 path.cidr ∧ q.hops = path.hops.map utf8 := by
  obtain ⟨config', hconfig', heqs⟩ := fleet.given s hs
  obtain rfl : config = config' := Except.ok.inj (hconfig.symm.trans hconfig')
  obtain ⟨ch, hch, heqh⟩ := fleet.given hop hhop
  obtain ⟨I⟩ := Issue.of_returned hconfig
  obtain ⟨Ih⟩ := Issue.of_returned hch
  obtain ⟨source, route, o⟩ := I.origin (List.mem_append_left _ hpath)
  obtain ⟨p, hp, hid, _⟩ := Ih.transit_of_origin o hvisits
  -- some transit path has the id, and the first one that has it is this path
  have hfound : ((configs (utf8 hop)).transitPath (utf8 path.id)).isSome := by
    unfold Routed.RoutingConfig.transitPath
    rw [List.find?_isSome, heqh]
    refine ⟨goPath p, List.mem_map_of_mem hp, ?_⟩
    rw [decide_eq_true_iff, ← hid]
    rfl
  obtain ⟨q, hq⟩ := Option.isSome_iff_exists.mp hfound
  obtain ⟨hmem, hqid⟩ := Routed.RoutingConfig.mem_of_transitPath hq
  have hmine : goPath path ∈ (configs (utf8 s)).paths := by
    rw [heqs]
    exact List.mem_map_of_mem hpath
  obtain ⟨howner, hcidr, hhops⟩ := fleet.unambiguous hop s hhop hs q (List.mem_append_right _ hmem)
    (goPath path) (List.mem_append_left _ hmine) hqid
  exact ⟨q, hq, howner, hcidr, hhops⟩

/-- **Every hop that has a configuration accepts the frame.** -/
theorem Fleet.accepts (fleet : Fleet P dir N now configs) {s : Str}
    (hs : (nodeNamed P dir s).isSome) (hhop : (nodeNamed P dir hop).isSome)
    (hconfig : routingConfigForNode P dir N now s = .ok config) (hpath : path ∈ config.paths)
    {packet : List UInt8} {source destination : Nat}
    (hparse : Routed.parseIPv4Endpoints packet = .ok (source, destination))
    (hsource : (configs (utf8 s)).inOverlay source = true)
    (hroute : (configs (utf8 s)).routeFor L destination = some ⟨utf8 path.cidr, utf8 path.owner⟩)
    (hbasic : ((goPath path).frame false packet).Basic) {j : Nat} {peer : GoString} (hj : 0 < j)
    (hpeer : (path.hops.map utf8)[j - 1]? = some peer) (hnode : path.hops[j]? = some hop) :
    ∃ q, Routed.Accepted L (configs (utf8 hop)) (utf8 hop) peer
      { (goPath path).frame false packet with hopIndex := j } q := by
  obtain ⟨q, hq, howner, hcidr, hhops⟩ :=
    fleet.transitPath hs hhop hconfig hpath (List.mem_of_getElem? hnode)
  have hnode' : (path.hops.map utf8)[j]? = some (utf8 hop) := by
    rw [List.getElem?_map, hnode]
    rfl
  obtain ⟨hlt, _⟩ := List.getElem?_eq_some_iff.mp hnode'
  rw [(fleet.agree hs hhop source (L := L)).2] at hsource
  rw [(fleet.agree hs hhop destination).1] at hroute
  -- the route contains the destination, so the text of the path's CIDR does
  obtain ⟨_, q', hprefix, hcontains, _⟩ := Routed.RoutingConfig.routeFor_longest hroute
  have hinside : (Routed.parsePrefix (utf8 path.cidr)).any
      (fun q => q.contains destination) = true := by
    unfold Routed.Route.prefix4 at hprefix
    dsimp only at hprefix
    split at hprefix
    · cases hprefix
    rename_i network hnetwork
    split at hprefix
    · cases hprefix
    obtain rfl := Except.ok.inj hprefix
    have hlt := (Routed.parseIPv4Endpoints_lt hparse).2
    rw [hnetwork, Option.any_some]
    exact (Prefix4.contains_iff hlt).mpr
      (Prefix4.mem_masked.mp ((Prefix4.contains_iff hlt).mp hcontains))
  refine ⟨q, hbasic.withIndex hj hlt, hnode', hpeer, hq, howner, ?_, source, destination, hparse,
    (fun h => by cases h), fun _ => ⟨hsource, ?_, ?_⟩⟩
  · show path.hops.map utf8 = Routed.directed false q.hops
    rw [hhops]
    rfl
  · rw [hcidr]
    exact hinside
  · rw [hcidr]
    exact hroute

/-! ## The packet -/

/-- A Public Node emits a frame for a packet from the overlay, nothing else is in flight, and
    frames are delivered one after the other. -/
structure Launch (L : GoLib F) (now : Int) (configs : GoString → Routed.RoutingConfig F)
    (net : Network F) (s : Str) (path : TopologyPath F) (packet raw : List UInt8)
    (env : Environment F) (envs : List (Environment F)) : Prop where
  idle : net.inFlight = []
  carries : ∃ source destination, Routed.parseIPv4Endpoints packet = .ok (source, destination) ∧
    (configs (utf8 s)).inOverlay source = true ∧ (configs (utf8 s)).inOverlay destination = false ∧
    (configs (utf8 s)).routeFor L destination = some ⟨utf8 path.cidr, utf8 path.owner⟩
  frame : Routed.marshalFrame ((goPath path).frame false packet) = .ok raw
  emitted : ∃ peer, ((net.routers (utf8 s)).handleTunPacket L env packet).2.sent = [(peer, raw)]
  mesh : MeshOf (configs (utf8 s)) env
  meshes : ∀ i e hop, envs[i]? = some e → path.hops[i + 1]? = some hop →
    MeshOf (configs (utf8 hop)) e
  policy : ∀ e ∈ env :: envs, e.now / Routed.second < now + routedOfflineGrace
  enough : Routed.maxPathHops ≤ envs.length

/-- Every hop accepts the frame, in order, and the last one writes the packet, once. -/
structure ForwardDelivered (L : GoLib F) (configs : GoString → Routed.RoutingConfig F)
    (path : TopologyPath F) (packet : List UInt8) (seen : List Routed.Occurrence) : Prop where
  accepted : ∀ j prev hop, 0 < j → path.hops[j - 1]? = some prev → path.hops[j]? = some hop →
    ∃ q, Routed.validateFrameForNode L { (goPath path).frame false packet with hopIndex := j }
      (utf8 hop) (utf8 prev) (configs (utf8 hop)) = .ok q
  carried : Carries (path.hops.map utf8) packet seen

section Delivery

variable {configs : GoString → Routed.RoutingConfig F} {net : Network F} {s : Str}
  {config : NodeConfig F} {path : TopologyPath F} {packet raw : List UInt8} {env : Environment F}
  {envs : List (Environment F)}

theorem Fleet.policyValid (fleet : Fleet P dir N now configs) (hhop : (nodeNamed P dir hop).isSome)
    {unix : Int} (h : unix < now + routedOfflineGrace) :
    (configs (utf8 hop)).policyValid unix = true := by
  obtain ⟨ch, hch, heq⟩ := fleet.given hop hhop
  obtain ⟨I⟩ := Issue.of_returned hch
  have hexpires : (goConfig ch).policyExpiresAt = now + routedOfflineGrace :=
    congrArg NodeConfig.policyExpiresAt I.config_eq
  rw [heq]
  unfold Routed.RoutingConfig.policyValid
  rw [hexpires, decide_eq_true h, Bool.or_true]

theorem named_of_chain {hops : List Str} {first : Str} (hfirst : (nodeNamed P dir first).isSome)
    (hchain : (first :: hops).IsChain (Meshed P dir)) :
    ∀ hop ∈ first :: hops, (nodeNamed P dir hop).isSome := by
  induction hops generalizing first with
  | nil =>
    intro hop hmem
    rw [List.mem_singleton.mp hmem]
    exact hfirst
  | cons second hops ih =>
    obtain ⟨hmeshed, hrest⟩ := List.isChain_cons_cons.mp hchain
    exact List.forall_mem_cons.mpr ⟨hfirst, ih hmeshed.2 hrest⟩

theorem Launch.start (fleet : Fleet P dir N now configs) (hholds : Holds net configs)
    (hs : (nodeNamed P dir s).isSome) (launch : Launch L now configs net s path packet raw
      env envs) :
    ∃ first rest, path.hops = s :: first :: rest ∧ Meshed P dir s first ∧
      ((net.routers (utf8 s)).handleTunPacket L env packet).2.sent = [(utf8 first, raw)] := by
  obtain ⟨peer, hpeer⟩ := launch.emitted
  obtain ⟨hnext, hhead, hready⟩ := Routed.handleTunPacket_forward
    (hpeer ▸ List.mem_singleton_self (peer, raw)) launch.frame rfl
  rw [(hholds (utf8 s)).1] at hhead
  have hhops : ((goPath path).frame false packet).hops = path.hops.map utf8 := rfl
  rw [hhops] at hnext hhead
  match hlist : path.hops with
  | [] =>
    rw [hlist] at hhead
    cases hhead
  | [only] =>
    rw [hlist] at hnext
    cases hnext
  | zeroth :: first :: rest =>
    rw [hlist] at hnext hhead
    obtain rfl : zeroth = s := utf8_injective (Option.some.inj hhead)
    obtain rfl : utf8 first = peer := Option.some.inj hnext
    exact ⟨first, rest, rfl, (fleet.ready_iff hs launch.mesh).mp hready, hpeer⟩

theorem Launch.step (hholds : Holds net configs) {first : Str}
    (launch : Launch L now configs net s path packet raw env envs)
    (hsent : ((net.routers (utf8 s)).handleTunPacket L env packet).2.sent = [(utf8 first, raw)]) :
    Holds (net.step L (.tunPacket (utf8 s) env packet)).1 configs ∧
      (net.step L (.tunPacket (utf8 s) env packet)).1.inFlight =
        [⟨utf8 s, utf8 first, raw, false⟩] ∧
      (net.step L (.tunPacket (utf8 s) env packet)).2 =
        [.transmitted ⟨utf8 s, utf8 first, raw, false⟩] := by
  have heffect := Routed.handleTunPacket_effect (L := L) (net.routers (utf8 s)) env packet
  refine ⟨hholds.after heffect.same.1 heffect.same.2, ?_, ?_⟩
  · show net.inFlight ++ Routed.Outcome.transits _ _ _ = _
    unfold Routed.Outcome.transits
    rw [launch.idle, hsent]
    rfl
  · show _ ++ (Routed.Outcome.transits _ _ _).map _ = _
    unfold Routed.Outcome.transits
    rw [heffect.written, hsent]
    rfl

theorem run_tunPacket (net : Network F) (node : GoString) (env : Environment F)
    (packet : List UInt8)
    (events : List (Routed.Event F)) :
    (net.run L (.tunPacket node env packet :: events)).2 =
      (net.step L (.tunPacket node env packet)).2 ++
        ((net.step L (.tunPacket node env packet)).1.run L events).2 := rfl

theorem Launch.delivered (fleet : Fleet P dir N now configs) (hholds : Holds net configs)
    (hconfig : routingConfigForNode P dir N now s = .ok config) (hpath : path ∈ config.paths)
    (launch : Launch L now configs net s path packet raw env envs)
    (hchain : path.hops.tail.IsChain (Meshed P dir)) :
    ForwardDelivered L configs path packet
      (net.run L (.tunPacket (utf8 s) env packet :: envs.map (.deliver 0))).2 := by
  obtain ⟨I⟩ := Issue.of_returned hconfig
  have hs : (nodeNamed P dir s).isSome := Option.isSome_of_mem I.named
  obtain ⟨first, rest, hhops, hfirst, hsent⟩ := launch.start fleet hholds hs
  obtain ⟨hholds', hflight, hseen⟩ := launch.step hholds hsent
  obtain ⟨source, destination, hparse, hsource, _, hroute⟩ := launch.carries
  have hbasic := Routed.unmarshalFrame_basic (Routed.unmarshalFrame_marshal launch.frame)
  have hnamed : ∀ hop ∈ path.hops, (nodeNamed P dir hop).isSome := by
    rw [hhops] at hchain ⊢
    exact List.forall_mem_cons.mpr ⟨hs, named_of_chain hfirst.2 hchain⟩
  have haccepts : ∀ j peer hop, 0 < j → (path.hops.map utf8)[j - 1]? = some peer →
      path.hops[j]? = some hop → ∃ q, Routed.Accepted L (configs (utf8 hop)) (utf8 hop) peer
        { (goPath path).frame false packet with hopIndex := j } q :=
    fun j peer hop hj hpeer hnode => fleet.accepts hs (hnamed hop (List.mem_of_getElem? hnode))
      hconfig hpath hparse hsource hroute hbasic hj hpeer hnode
  constructor
  · intro j prev hop hj hprev hnode
    obtain ⟨q, hq⟩ := haccepts j (utf8 prev) hop hj (by rw [List.getElem?_map, hprev]; rfl) hnode
    exact ⟨q, (Routed.validateFrameForNode_iff L).mpr hq⟩
  have hframe : ((goPath path).frame false packet).hops = path.hops.map utf8 := rfl
  have hindex : ((goPath path).frame false packet).hopIndex = 1 := rfl
  have hlength : ((goPath path).frame false packet).hops.length - 1 ≤ envs.length := by
    have hcount := hbasic.count.2
    have henough := launch.enough
    omega
  obtain ⟨_, hvisits, hwrites⟩ := Network.carry (L := L) hholds' launch.frame hflight
    (by rw [hframe, hhops]; rfl) (by rw [hframe, hhops]; rfl)
    (fun j peer node hj hpeer hnode => by
      rw [hframe, List.getElem?_map] at hnode
      obtain ⟨hop, hhop, rfl⟩ := Option.map_eq_some_iff.mp hnode
      exact haccepts j peer hop hj hpeer hhop)
    hlength
    (fun e he node hnode => by
      obtain ⟨hop, hhop, rfl⟩ := List.mem_map.mp hnode
      exact fleet.policyValid (hnamed hop hhop) (launch.policy e (List.mem_cons_of_mem _ he)))
    (fun i e next he hnext => by
      rw [hframe, hindex, List.getElem?_map] at hnext
      obtain ⟨b, hb, rfl⟩ := Option.map_eq_some_iff.mp hnext
      -- the link from the hop where the frame is to the next one
      have hlt : i + 1 < path.hops.tail.length := by
        obtain ⟨hlt, _⟩ := List.getElem?_eq_some_iff.mp hb
        rw [List.length_tail]
        omega
      have hlink := (List.isChain_iff_getElem.mp hchain) i hlt
      have hthis : path.hops[i + 1]? = some path.hops.tail[i] := by
        rw [← List.getElem?_tail, List.getElem?_eq_getElem]
      have hnext' : path.hops.tail[i + 1] = b := by
        have htail : path.hops.tail[i + 1]? = some b := by
          rw [List.getElem?_tail, ← hb]
          congr 1
          omega
        exact (List.getElem?_eq_some_iff.mp htail).2
      rw [hnext'] at hlink
      exact (fleet.ready_iff (hnamed _ (List.mem_of_getElem? hthis))
        (launch.meshes i e _ he hthis)).mpr hlink)
  have hdrop : ((goPath path).frame false packet).hops.drop 1 = utf8 first :: rest.map utf8 := by
    rw [hframe, hhops]
    rfl
  rw [hindex, hdrop] at hvisits hwrites
  rw [run_tunPacket, hseen, hhops]
  refine ⟨congrArg ((utf8 s, utf8 first) :: ·) hvisits, ?_⟩
  show Routed.writesOf _ = (Option.map _ (utf8 s :: utf8 first :: rest.map utf8).getLast?).toList
  rw [List.getLast?_cons_cons]
  exact hwrites

theorem Launch.meshed (fleet : Fleet P dir N now configs) (hholds : Holds net configs)
    (hconfig : routingConfigForNode P dir N now s = .ok config) (hpath : path ∈ config.paths)
    (launch : Launch L now configs net s path packet raw env envs)
    (hcarried : Carries (path.hops.map utf8) packet
      (net.run L (.tunPacket (utf8 s) env packet :: envs.map (.deliver 0))).2) :
    path.hops.tail.IsChain (Meshed P dir) := by
  obtain ⟨I⟩ := Issue.of_returned hconfig
  have hs : (nodeNamed P dir s).isSome := Option.isSome_of_mem I.named
  obtain ⟨first, rest, hhops, hfirst, hsent⟩ := launch.start fleet hholds hs
  obtain ⟨hholds', hflight, hseen⟩ := launch.step hholds hsent
  obtain ⟨source, destination, hparse, hsource, _, hroute⟩ := launch.carries
  have hbasic := Routed.unmarshalFrame_basic (Routed.unmarshalFrame_marshal launch.frame)
  have hcount : path.hops.length ≤ 3 := by
    have hbound := hbasic.count.2
    rwa [show ((goPath path).frame false packet).hops = path.hops.map utf8 from rfl,
      List.length_map] at hbound
  rw [hhops]
  match rest, hhops, hcount with
  | [], _, _ => exact List.isChain_singleton first
  | owner :: _ :: _, hhops, hcount =>
    rw [hhops] at hcount
    simp only [List.length_cons] at hcount
    omega
  | [owner], hhops, _ =>
    refine List.isChain_pair.mpr ?_
    by_contra hstuck
    -- the first hop accepts the frame and cannot send it on
    obtain ⟨e, es, henvs⟩ : ∃ e es, envs = e :: es := by
      cases henvs : envs with
      | nil =>
        have henough := launch.enough
        rw [henvs] at henough
        exact absurd henough (by simp [Routed.maxPathHops])
      | cons e es => exact ⟨e, es, rfl⟩
    have hmesh : MeshOf (configs (utf8 first)) e :=
      launch.meshes 0 e first (by rw [henvs]; rfl) (by rw [hhops]; rfl)
    obtain ⟨q, hq⟩ := fleet.accepts hs hfirst.2 hconfig hpath hparse hsource hroute hbasic
      (j := 1) Nat.one_pos (by rw [hhops]; rfl) (by rw [hhops]; rfl)
    obtain ⟨hlocal, hconfig'⟩ := hholds' (utf8 first)
    have hpolicy := fleet.policyValid hfirst.2
      (launch.policy e (by rw [henvs]; exact List.mem_cons_of_mem _ List.mem_cons_self))
    have hout := Routed.handleMeshData_accepted (L := L)
      (r := (net.step L (.tunPacket (utf8 s) env packet)).1.routers (utf8 first)) e
      (Routed.unmarshalFrame_marshal launch.frame) (by rw [hconfig']; exact hpolicy)
      (by rw [hconfig', hlocal]; exact hq)
    rw [if_neg (by
      show ¬ (1 = (path.hops.map utf8).length - 1)
      rw [hhops]
      simp)] at hout
    have hnothing : (Routed.sendFrame e
        { (goPath path).frame false packet with hopIndex := 2 }).sent = [] := by
      refine List.eq_nil_iff_forall_not_mem.mpr fun ⟨peer, raw'⟩ hmem => hstuck ?_
      have hpeer : (path.hops.map utf8)[2]? = some peer := (Routed.sendFrame_sent hmem).1
      rw [hhops] at hpeer
      obtain rfl : utf8 owner = peer := Option.some.inj hpeer
      exact (fleet.ready_iff hfirst.2 hmesh).mp (Routed.sendFrame_isReady hmem)
    have hsilent := Routed.run_silent (L := L) hflight es
      (show ((net.step L (.tunPacket (utf8 s) env packet)).1.routers (utf8 first)
        |>.handleMeshData L e (utf8 s) raw).2.sent = [] by rw [hout]; exact hnothing)
      (show ((net.step L (.tunPacket (utf8 s) env packet)).1.routers (utf8 first)
        |>.handleMeshData L e (utf8 s) raw).2.written = [] by
          rw [hout]; exact Routed.sendFrame_written e _)
    have hvisits := hcarried.visits
    rw [run_tunPacket, hseen, henvs, hsilent, hhops] at hvisits
    -- one transmission is seen, and the path has two
    cases (List.cons.inj hvisits).2

/-- **When a packet crosses the mesh**: if every link after the first has a record and a known end.
    -/
theorem forward_delivered_iff (fleet : Fleet P dir N now configs) (hholds : Holds net configs)
    (hconfig : routingConfigForNode P dir N now s = .ok config) (hpath : path ∈ config.paths)
    (launch : Launch L now configs net s path packet raw env envs) :
    ForwardDelivered L configs path packet
        (net.run L (.tunPacket (utf8 s) env packet :: envs.map (.deliver 0))).2 ↔
      path.hops.tail.IsChain (Meshed P dir) :=
  ⟨fun h => launch.meshed fleet hholds hconfig hpath h.carried,
    launch.delivered fleet hholds hconfig hpath⟩

end Delivery

/-! ## A packet that gets stuck -/

/-- The configuration that a Node of a directory gets. -/
def nodeConfig (dir : ControlDir Loaded) (id : Str) : NodeConfig Int :=
  match routingConfigForNode meshRuntime dir plainFloat 100 id with
  | .ok config => config
  | .error _ => ⟨0, [], false, false, [], [], [], []⟩

/-- Every Node of a directory with its configuration; ids are ASCII. -/
def fleetConfigs (dir : ControlDir Loaded) (node : GoString) : Routed.RoutingConfig Int :=
  goConfig (nodeConfig dir (node.map fun b => Char.ofNat b.toNat))

/-- The network of a directory. -/
def fleetNetwork (dir : ControlDir Loaded) : Network Int :=
  ⟨fun node => ⟨node, fleetConfigs dir node, fun _ => none, fun _ => none⟩, []⟩

/-- A mesh that reaches the peers of a configuration. -/
def meshEnv (config : Routed.RoutingConfig Int) : Environment Int where
  canSend peer := decide (peer ∈ config.links.map (·.peerNodeID))
  linkStatus _ := none
  ready peer := decide (peer ∈ config.links.map (·.peerNodeID))
  sendError _ := none
  writeError := none
  now := 0
  later := 0

/-- The best path of `a`. -/
def launchedPath (dir : ControlDir Loaded) : TopologyPath Int :=
  (nodeConfig dir "a").paths.head?.getD ⟨[], [], [], [], [], 0, 0, 0, 0, 0⟩

/-- A packet from the overlay to the site. -/
def launchedPacket : List UInt8 :=
  [0x45, 0, 0, 20, 0, 0, 0, 0, 64, 17, 0, 0, 10, 9, 0, 1, 10, 1, 0, 1]

/-- The bytes of its frame. -/
def launchedRaw (dir : ControlDir Loaded) : List UInt8 :=
  match Routed.marshalFrame ((goPath (launchedPath dir)).frame false launchedPacket) with
  | .ok raw => raw
  | .error _ => []

/-- One environment for each hop after the first, and some to spare. -/
def launchedEnvs (dir : ControlDir Loaded) : List (Environment Int) :=
  (launchedPath dir).hops.tail.map (fun hop => meshEnv (fleetConfigs dir (utf8 hop))) ++
    List.replicate 3 (meshEnv (fleetConfigs dir []))

/-- The Nodes get their configurations; path ids do not collide. -/
def fleetTest (dir : ControlDir Loaded) : Bool :=
  let ids := (canonicalNodes meshRuntime dir).map (nodeId meshRuntime)
  let paths (id : Str) := (fleetConfigs dir (utf8 id)).paths ++
    (fleetConfigs dir (utf8 id)).transitPaths
  (ids.all fun id => decide ((utf8 id).map (fun b => Char.ofNat b.toNat) = id) &&
    match routingConfigForNode meshRuntime dir plainFloat 100 id with
    | .ok _ => true
    | .error _ => false) &&
  ids.all fun a => ids.all fun b => (paths a).all fun p => (paths b).all fun q =>
    decide (p.id = q.id → p.ownerNodeID = q.ownerNodeID ∧ p.cidr = q.cidr ∧ p.hops = q.hops)

theorem fleet_of_test {dir : ControlDir Loaded} (h : fleetTest dir = true) :
    Fleet meshRuntime dir plainFloat 100 (fleetConfigs dir) := by
  obtain ⟨hgiven, hpaths⟩ := Bool.and_eq_true_iff.mp h
  have hlisted : ∀ id, (nodeNamed meshRuntime dir id).isSome →
      id ∈ (canonicalNodes meshRuntime dir).map (nodeId meshRuntime) := by
    intro id hid
    obtain ⟨node, hnode⟩ := Option.isSome_iff_exists.mp hid
    have hname : nodeId meshRuntime node = id := by simpa using List.find?_some hnode
    exact hname ▸ List.mem_map_of_mem (List.mem_reverse.mp (List.mem_of_find?_eq_some hnode))
  constructor
  · intro id hid
    obtain ⟨hascii, hreturns⟩ :=
      Bool.and_eq_true_iff.mp (List.all_eq_true.mp hgiven id (hlisted id hid))
    unfold fleetConfigs nodeConfig
    rw [of_decide_eq_true hascii]
    split at hreturns
    · rename_i config hconfig
      exact ⟨config, hconfig, rfl⟩
    · cases hreturns
  · intro a b ha hb p hp q hq
    have hpairs := List.all_eq_true.mp (List.all_eq_true.mp hpaths a (hlisted a ha)) b
      (hlisted b hb)
    exact of_decide_eq_true (List.all_eq_true.mp (List.all_eq_true.mp hpairs p hp) q hq)

/-- `a` launches its packet. -/
def launchTest (dir : ControlDir Loaded) : Bool :=
  let config := fleetConfigs dir (utf8 "a")
  let path := launchedPath dir
  (match Routed.parseIPv4Endpoints launchedPacket with
    | .ok (source, destination) => config.inOverlay source && !config.inOverlay destination &&
        decide (config.routeFor Routed.plainLibrary destination =
          some ⟨utf8 path.cidr, utf8 path.owner⟩)
    | .error _ => false) &&
  (match Routed.marshalFrame ((goPath path).frame false launchedPacket) with
    | .ok _ => true
    | .error _ => false) &&
  (match ((fleetNetwork dir).routers (utf8 "a")).handleTunPacket Routed.plainLibrary
      (meshEnv config) launchedPacket |>.2.sent with
    | [(_, raw)] => decide (raw = launchedRaw dir)
    | _ => false)

theorem launch_of_test {dir : ControlDir Loaded} (h : launchTest dir = true) :
    Launch Routed.plainLibrary 100 (fleetConfigs dir) (fleetNetwork dir) "a" (launchedPath dir)
      launchedPacket (launchedRaw dir) (meshEnv (fleetConfigs dir (utf8 "a")))
      (launchedEnvs dir) := by
  have hmesh : ∀ config, MeshOf config (meshEnv config) := fun config peer => decide_eq_true_iff
  unfold launchTest at h
  dsimp only at h
  obtain ⟨h, hemitted⟩ := Bool.and_eq_true_iff.mp h
  obtain ⟨hpacket, hframe⟩ := Bool.and_eq_true_iff.mp h
  refine ⟨rfl, ?_, ?_, ?_, hmesh _, ?_, ?_, ?_⟩
  · split at hpacket
    · rename_i source destination hparse
      obtain ⟨h, hroute⟩ := Bool.and_eq_true_iff.mp hpacket
      obtain ⟨hsource, hdestination⟩ := Bool.and_eq_true_iff.mp h
      exact ⟨source, destination, hparse, hsource, by simpa using hdestination,
        of_decide_eq_true hroute⟩
    · cases hpacket
  · unfold launchedRaw
    split at hframe
    · rename_i raw hraw
      rw [hraw]
    · cases hframe
  · split at hemitted
    · rename_i peer raw hsent
      exact ⟨peer, by rw [hsent, of_decide_eq_true hemitted]⟩
    · cases hemitted
  · intro i e hop he hhop
    have htail : (launchedPath dir).hops.tail[i]? = some hop := by
      rw [List.getElem?_tail]
      exact hhop
    obtain ⟨hlt, _⟩ := List.getElem?_eq_some_iff.mp htail
    unfold launchedEnvs at he
    rw [List.getElem?_append_left (by rw [List.length_map]; exact hlt), List.getElem?_map,
      htail] at he
    obtain rfl := Option.some.inj he
    exact hmesh _
  · intro e he
    have hnow : e.now = 0 := by
      rcases List.mem_cons.mp he with rfl | he
      · rfl
      rcases List.mem_append.mp he with he | he
      · obtain ⟨hop, _, rfl⟩ := List.mem_map.mp he
        rfl
      · rw [List.eq_of_mem_replicate he]
        rfl
    rw [hnow]
    decide
  · unfold launchedEnvs
    rw [List.length_append, List.length_replicate]
    exact Nat.le_add_left 3 _

/-- Public Nodes `a` and `b`, joined, and the owner `c` of a route. -/
def lineFiles : List (Str × Loaded) :=
  [meshFile "control/nodes" "a" (meshNode "a" publicRoles [] false),
    meshFile "control/nodes" "b" (meshNode "b" publicRoles [] false),
    meshFile "control/nodes" "c" (meshNode "c" siteRoles ["10.1.0.0/16"] false),
    meshFile "control/topology/links" "ab" (meshLink "a" "b"),
    meshFile "control/routes" "r" (meshRoute "10.1.0.0/16" "c"),
    meshFile "control" "config" (Record.of [("wireguard_subnet", .str "10.9.0.0/16")])]

/-- The link from `b` to `c` is only reported. -/
def strandedDir : ControlDir Loaded := meshDir lineFiles [("b", meshTelemetry "b" 100 ["c"])]

/-- The link from `b` to `c` has a record. -/
def lineDir : ControlDir Loaded :=
  meshDir (lineFiles ++ [meshFile "control/topology/links" "bc" (meshLink "b" "c")]) []

/-- **A path over a link that is only reported loses the packet.** -/
theorem reported_link_strands_packet :
    Fleet meshRuntime strandedDir plainFloat 100 (fleetConfigs strandedDir) ∧
      Holds (fleetNetwork strandedDir) (fleetConfigs strandedDir) ∧
      Launch Routed.plainLibrary 100 (fleetConfigs strandedDir)
        (fleetNetwork strandedDir) "a".toList
        (launchedPath strandedDir) launchedPacket (launchedRaw strandedDir)
        (meshEnv (fleetConfigs strandedDir (utf8 "a".toList))) (launchedEnvs strandedDir) ∧
      (launchedPath strandedDir).hops = ["a".toList, "b".toList, "c".toList] ∧
      ¬ ForwardDelivered Routed.plainLibrary (fleetConfigs strandedDir) (launchedPath strandedDir)
        launchedPacket ((fleetNetwork strandedDir).run Routed.plainLibrary
          (.tunPacket (utf8 "a".toList) (meshEnv (fleetConfigs strandedDir (utf8 "a".toList)))
            launchedPacket :: (launchedEnvs strandedDir).map (.deliver 0))).2 := by
  have hhops : (launchedPath strandedDir).hops = ["a".toList, "b".toList, "c".toList] := by
    decide +kernel
  refine ⟨fleet_of_test (by decide +kernel), fun _ => ⟨rfl, rfl⟩,
    launch_of_test (by decide +kernel),
    hhops, fun hdelivered => ?_⟩
  have hwrites := hdelivered.carried.writes
  have hnone : Routed.writesOf ((fleetNetwork strandedDir).run Routed.plainLibrary
      (.tunPacket (utf8 "a".toList) (meshEnv (fleetConfigs strandedDir (utf8 "a".toList)))
        launchedPacket :: (launchedEnvs strandedDir).map (.deliver 0))).2 = [] := by decide +kernel
  rw [hnone, hhops] at hwrites
  cases hwrites

/-- With a record for every link, the packet of `a` reaches `c`. -/
theorem forward_delivered_line :
    (launchedPath lineDir).hops = ["a".toList, "b".toList, "c".toList] ∧
      ForwardDelivered Routed.plainLibrary (fleetConfigs lineDir)
        (launchedPath lineDir) launchedPacket
        ((fleetNetwork lineDir).run Routed.plainLibrary
          (.tunPacket (utf8 "a".toList) (meshEnv (fleetConfigs lineDir (utf8 "a".toList)))
            launchedPacket :: (launchedEnvs lineDir).map (.deliver 0))).2 := by
  have hhops : (launchedPath lineDir).hops = ["a".toList, "b".toList, "c".toList] := by
    decide +kernel
  have hreturns : (match routingConfigForNode meshRuntime lineDir plainFloat 100 "a".toList with
      | .ok _ => true
      | .error _ => false) = true := by decide +kernel
  have hconfig : routingConfigForNode meshRuntime lineDir plainFloat 100 "a".toList =
      .ok (nodeConfig lineDir "a".toList) := by
    unfold nodeConfig
    split at hreturns
    · rename_i config hconfig
      rw [hconfig]
    · cases hreturns
  have hpath : launchedPath lineDir ∈ (nodeConfig lineDir "a".toList).paths := by
    have hsome : (nodeConfig lineDir "a".toList).paths.head?.isSome = true := by decide +kernel
    obtain ⟨path, hhead⟩ := Option.isSome_iff_exists.mp hsome
    unfold launchedPath
    rw [hhead]
    exact List.mem_of_mem_head? hhead
  refine ⟨hhops, (forward_delivered_iff (fleet_of_test (by decide +kernel)) (fun _ => ⟨rfl, rfl⟩)
    hconfig hpath (launch_of_test (by decide +kernel))).mpr ?_⟩
  rw [hhops]
  refine List.isChain_pair.mpr ⟨?_, by decide +kernel⟩
  have htest : ((linkRecords meshRuntime lineDir).any fun record =>
      decide (record.left = "b".toList ∧ record.right = "c".toList)) = true := by decide +kernel
  obtain ⟨record, hrecord, hends⟩ := List.any_eq_true.mp htest
  exact ⟨record, hrecord, .inl (of_decide_eq_true hends)⟩

end Bpc.Deploy
