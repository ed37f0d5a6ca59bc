/-
  REPLIES — does the answer to a forward packet find its way back?

  The Router remembers ONE path per Device, that of its LAST forward packet, to whatever address
  (`latest`). So the reply is written exactly if that packet went to an address with the same route
  (`reply_written_iff`): a Device that talks to two prefixes of one owner loses replies.
-/
import Bpc.Routed.Carriage
import Bpc.Routed.Withdrawal

namespace Bpc.Routed

variable {F : Type} {L : GoLib F}

/-! ## The setting -/

/-- The configurations agree on routes, the overlay and paths; the owner of a path is a site
    router. -/
structure Consistent (L : GoLib F) (configs : GoString → RoutingConfig F) : Prop where
  routes : ∀ a b addr, (configs a).routeFor L addr = (configs b).routeFor L addr
  overlay : ∀ a b, (configs a).overlaySubnet = (configs b).overlaySubnet
  paths : ∀ node, ∀ p ∈ (configs node).transitPaths, ∀ hop ∈ p.hops,
    ∃ p', (configs hop).transitPath p.id = some p' ∧ p'.ownerNodeID = p.ownerNodeID ∧
      p'.cidr = p.cidr ∧ p'.hops = p.hops
  owners : ∀ node, ∀ p ∈ (configs node).transitPaths,
    (configs p.ownerNodeID).localSiteRouter = true

/-- A forward packet that reaches the owner of its route. -/
structure Arrival (L : GoLib F) (config : RoutingConfig F) (node : GoString) where
  env : Environment F
  peerID : GoString
  raw : List UInt8
  frame : Frame
  path : Path F
  source : Nat
  destination : Nat
  read : unmarshalFrame raw = .ok frame
  policy : config.policyValid (env.now / second) = true
  accepted : Accepted L config node peerID frame path
  forward : frame.isReturn = false
  last : frame.hopIndex + 1 = frame.hops.length
  endpoints : parseIPv4Endpoints frame.payload = .ok (source, destination)

variable {config : RoutingConfig F} {o : GoString}

/-- The frame comes in. -/
def Arrival.events (a : Arrival L config o) : List (Event F) :=
  [.inject a.peerID o a.raw, .deliver 0 a.env]

/-- The last arrival from the Device. -/
def latest (device : Nat) (a : Arrival L config o) : List (Arrival L config o) → Arrival L config o
  | [] => a
  | b :: others => latest device (if b.source = device then b else a) others

theorem latest_mem (device : Nat) (a : Arrival L config o) (others : List (Arrival L config o)) :
    latest device a others ∈ a :: others := by
  induction others generalizing a with
  | nil => exact List.mem_cons_self
  | cons b others ih =>
    rw [latest]
    rcases List.mem_cons.mp (ih (if b.source = device then b else a)) with h | h
    · rw [h]
      split
      · exact List.mem_cons_of_mem _ List.mem_cons_self
      · exact List.mem_cons_self
    · exact List.mem_cons_of_mem _ (List.mem_cons_of_mem _ h)

theorem latest_source {device : Nat} {a : Arrival L config o} (h : a.source = device)
    (others : List (Arrival L config o)) : (latest device a others).source = device := by
  induction others generalizing a with
  | nil => exact h
  | cons b others ih =>
    rw [latest]
    refine ih ?_
    split
    · assumption
    · exact h

/-! ## What an arrival leaves behind -/

theorem Arrival.handled (a : Arrival L config o) {r : Router F} (hlocal : r.localNodeID = o)
    (hconfig : r.config = config) :
    r.handleMeshData L a.env a.peerID a.raw =
      (r.rememberReverse a.source a.path a.env.later, writePacket a.env a.frame.payload) := by
  have hindex : a.frame.hopIndex = a.frame.hops.length - 1 := by
    have := a.last
    omega
  unfold Router.handleMeshData
  rw [a.read, hconfig, hlocal]
  dsimp only
  rw [if_neg (not_not.mpr a.policy), (validateFrameForNode_iff L).mpr a.accepted]
  dsimp only
  rw [if_pos hindex, a.forward, if_neg Bool.false_ne_true, a.endpoints]

theorem Arrival.run (a : Arrival L config o) {net : Network F}
    (hlocal : (net.routers o).localNodeID = o) (hconfig : (net.routers o).config = config)
    (hempty : net.inFlight = []) :
    (net.run L a.events).1.inFlight = [] ∧
      ∀ node, (net.run L a.events).1.routers node = if node = o then
        (net.routers o).rememberReverse a.source a.path a.env.later else net.routers node := by
  have hinject : net.step L (.inject a.peerID o a.raw) =
      ({ net with inFlight := [⟨a.peerID, o, a.raw, false⟩] }, []) := by
    show (({ net with inFlight := net.inFlight ++ [⟨a.peerID, o, a.raw, false⟩] } :
      Network F), _) = _
    rw [hempty]
    rfl
  have hflight : ({ net with inFlight := [⟨a.peerID, o, a.raw, false⟩] } : Network F).inFlight =
      [⟨a.peerID, o, a.raw, false⟩] := rfl
  have hdeliver := step_single (L := L) hflight a.env
  have hhandled := a.handled hlocal hconfig
  show ((net.step L (.inject a.peerID o a.raw)).1.step L (.deliver 0 a.env)).1.inFlight = [] ∧
    ∀ node, ((net.step L (.inject a.peerID o a.raw)).1.step L (.deliver 0 a.env)).1.routers node = _
  rw [hinject]
  dsimp only at hdeliver ⊢
  rw [hdeliver, hhandled, after_write _ _ _ rfl]
  exact ⟨rfl, fun node => rfl⟩

theorem run_append (net : Network F) (a b : List (Event F)) :
    (net.run L (a ++ b)).1 = ((net.run L a).1.run L b).1 := by
  induction a generalizing net with
  | nil => rfl
  | cons event a ih => exact ih (net.step L event).1

theorem not_forgotten {first stored now later : Time} (hstored : first ≤ stored)
    (hlater : later ≤ now)
    (httl : now - first ≤ reversePathTTL) : later - stored ≤ reversePathTTL :=
  (Int.sub_le_sub hlater hstored).trans httl

variable {configs : GoString → RoutingConfig F}

/-- **The owner remembers the path of the last arrival from the Device.** -/
theorem remembered_latest {device : Nat} {first now : Time} (httl : now - first ≤ reversePathTTL)
    {net : Network F} (hholds : Holds net configs) (hempty : net.inFlight = [])
    {a : Arrival L (configs o) o} (hstored : first ≤ a.env.later)
    (hentry : (net.routers o).reverse device = some ⟨a.path, a.env.later⟩)
    {others : List (Arrival L (configs o) o)}
    (htimes : ∀ b ∈ others, first ≤ b.env.later ∧ b.env.later ≤ now) :
    Holds (net.run L (others.flatMap Arrival.events)).1 configs ∧
      (net.run L (others.flatMap Arrival.events)).1.inFlight = [] ∧
      ((net.run L (others.flatMap Arrival.events)).1.routers o).reverse device =
        some ⟨(latest device a others).path, (latest device a others).env.later⟩ := by
  induction others generalizing net a with
  | nil => exact ⟨hholds, hempty, hentry⟩
  | cons b others ih =>
    obtain ⟨hlocal, hconfig⟩ := hholds o
    obtain ⟨hempty', hrouters⟩ := b.run hlocal hconfig hempty
    obtain ⟨hfirst, hnow⟩ := htimes b List.mem_cons_self
    rw [List.flatMap_cons, run_append, latest]
    refine ih ?_ hempty' ?_ ?_ fun c hc => htimes c (List.mem_cons_of_mem _ hc)
    · intro node
      rw [hrouters]
      by_cases hnode : node = o
      · rw [if_pos hnode, hnode]
        exact hholds o
      · rw [if_neg hnode]
        exact hholds node
    · split
      · exact hfirst
      · exact hstored
    · rw [hrouters, if_pos rfl]
      show (if device = b.source then _ else
        ((net.routers o).reverse device).filter fun entry =>
          decide (b.env.later - entry.lastSeen ≤ reversePathTTL)) = _
      by_cases hsource : b.source = device
      · rw [if_pos hsource.symm, if_pos hsource]
      · rw [if_neg (Ne.symm hsource), if_neg hsource, hentry]
        exact Option.filter_eq_some_iff.mpr
          ⟨rfl, decide_eq_true (not_forgotten hstored hnow httl)⟩

/-! ## What the hops make of the reply -/

theorem Arrival.route (a : Arrival L config o) :
    config.routeFor L a.destination = some ⟨a.path.cidr, a.path.ownerNodeID⟩ := by
  obtain ⟨source, destination, hparse, _, hforward⟩ := a.accepted.packet
  obtain ⟨_, rfl⟩ := Prod.mk.inj (Except.ok.inj (hparse.symm.trans a.endpoints))
  rw [a.accepted.owner]
  exact (hforward a.forward).2.2

theorem Arrival.inOverlay (a : Arrival L config o) : config.inOverlay a.source = true := by
  obtain ⟨source, destination, hparse, _, hforward⟩ := a.accepted.packet
  obtain ⟨rfl, _⟩ := Prod.mk.inj (Except.ok.inj (hparse.symm.trans a.endpoints))
  exact (hforward a.forward).1

theorem Arrival.mem (a : Arrival L config o) : a.path ∈ config.transitPaths :=
  (RoutingConfig.mem_of_transitPath a.accepted.approved).1

theorem Arrival.returnable (a : Arrival L config o) : Returnable o a.source a.path :=
  a.accepted.returnable a.forward a.last a.endpoints

/-- **A hop accepts the reply iff the route of the site address is that of the path.** -/
theorem accepted_reply_iff (hconsistent : Consistent L configs) (a : Arrival L (configs o) o)
    {x : Nat} {reply : List UInt8} (hreply : parseIPv4Endpoints reply = .ok (x, a.source))
    (hbasic : (a.path.frame true reply).Basic) {j : Nat} {peer node : GoString} (hj : 0 < j)
    (hpeer : (a.path.frame true reply).hops[j - 1]? = some peer)
    (hnode : (a.path.frame true reply).hops[j]? = some node) :
    (∃ path, Accepted L (configs node) node peer
      { a.path.frame true reply with hopIndex := j } path) ↔
      (configs o).routeFor L x = (configs o).routeFor L a.destination := by
  have hmem : node ∈ a.path.hops := List.mem_reverse.mp (List.mem_of_getElem? hnode)
  obtain ⟨p, hp, howner, hcidr, hhops⟩ := hconsistent.paths o a.path a.mem node hmem
  rw [a.route, hconsistent.routes o node]
  constructor
  · rintro ⟨path, haccepted⟩
    obtain rfl : path = p := Option.some.inj (haccepted.approved.symm.trans hp)
    obtain ⟨source, destination, hparse, hreturn, _⟩ := haccepted.packet
    obtain ⟨rfl, _⟩ := Prod.mk.inj (Except.ok.inj (hparse.symm.trans hreply))
    rw [(hreturn rfl).2.2, hcidr]
    rfl
  · intro hroute
    have hoverlay : (configs node).inOverlay a.source = true := by
      have h := a.inOverlay
      unfold RoutingConfig.inOverlay at h ⊢
      rw [hconsistent.overlay node o]
      exact h
    obtain ⟨overlay, hparse, _⟩ := RoutingConfig.mem_overlay a.returnable.address hoverlay
    obtain ⟨hlt, _⟩ := List.getElem?_eq_some_iff.mp hnode
    refine ⟨p, hbasic.withIndex hj hlt, hnode, hpeer, hp, howner, ?_, x, a.source, hreply,
      fun _ => ⟨trimSpace_ne_nil hparse, hoverlay, ?_⟩, (fun h => by cases h)⟩
    · show directed true a.path.hops = directed true p.hops
      rw [hhops]
    · rw [hroute, hcidr]
      rfl

/-! ## The reply -/

theorem handleTunPacket_reply (hconsistent : Consistent L configs) {r : Router F}
    (hlocal : r.localNodeID = o) (hconfig : r.config = configs o) (a : Arrival L (configs o) o)
    (hentry : r.reverse a.source = some ⟨a.path, a.env.later⟩) {env : Environment F} {x : Nat}
    {reply : List UInt8} (hreply : parseIPv4Endpoints reply = .ok (x, a.source))
    (hpolicy : (configs o).policyValid (env.now / second) = true)
    (hlive : env.now - a.env.later ≤ reversePathTTL) :
    (r.handleTunPacket L env reply).2 = sendFrame env (a.path.frame true reply) := by
  have hreturnable := a.returnable
  have hsite : (configs o).localSiteRouter = true := by
    have h := hconsistent.owners o a.path a.mem
    rw [hreturnable.owner] at h
    exact h
  unfold Router.handleTunPacket
  rw [hreply]
  dsimp only
  rw [hconfig, if_neg (not_not.mpr hpolicy), if_pos ⟨hsite, a.inOverlay⟩,
    returnPacket_sends reply hentry hlive hreturnable.two (by rw [hlocal]; exact hreturnable.last),
    hlocal, hreturnable.frame_owner]

theorem Arrival.heard (a : Arrival L (configs o) o) {net : Network F} (hholds : Holds net configs)
    (hempty : net.inFlight = []) : Holds (net.run L a.events).1 configs ∧
      (net.run L a.events).1.inFlight = [] ∧
      ((net.run L a.events).1.routers o).reverse a.source = some ⟨a.path, a.env.later⟩ := by
  obtain ⟨hlocal, hconfig⟩ := hholds o
  obtain ⟨hempty', hrouters⟩ := a.run hlocal hconfig hempty
  refine ⟨fun node => ?_, hempty', ?_⟩
  · rw [hrouters]
    by_cases hnode : node = o
    · rw [if_pos hnode, hnode]
      exact hholds o
    · rw [if_neg hnode]
      exact hholds node
  · rw [hrouters, if_pos rfl]
    show (if a.source = a.source then _ else _) = _
    rw [if_pos rfl]

theorem reply_carried (hconsistent : Consistent L configs) {net : Network F}
    (hholds : Holds net configs) (hempty : net.inFlight = []) (a : Arrival L (configs o) o)
    (hentry : (net.routers o).reverse a.source = some ⟨a.path, a.env.later⟩) {x : Nat}
    {reply : List UInt8} (hreply : parseIPv4Endpoints reply = .ok (x, a.source))
    (hsize : reply.length ≤ 65535) {env : Environment F} {envs : List (Environment F)}
    (henvs : ∀ e ∈ env :: envs, Healthy e ∧
      ∀ node, (configs node).policyValid (e.now / second) = true)
    (henough : maxPathHops ≤ envs.length) (hlive : env.now - a.env.later ≤ reversePathTTL) :
    ((configs o).routeFor L x = (configs o).routeFor L a.destination →
      Carries a.path.hops.reverse reply
        (net.run L (.tunPacket o env reply :: envs.map (.deliver 0))).2) ∧
    ((configs o).routeFor L x ≠ (configs o).routeFor L a.destination →
      writesOf (net.run L (.tunPacket o env reply :: envs.map (.deliver 0))).2 = []) := by
  have hpos : 0 < reply.length := by
    have := parseIPv4Endpoints_length hreply
    omega
  have hreturnable := a.returnable
  have hbasic := hreturnable.frame reply hpos hsize
  have haccepts : ∀ j peer node, 0 < j → (a.path.frame true reply).hops[j - 1]? = some peer →
      (a.path.frame true reply).hops[j]? = some node →
      ((∃ path, Accepted L (configs node) node peer { a.path.frame true reply with hopIndex := j }
        path) ↔ (configs o).routeFor L x = (configs o).routeFor L a.destination) :=
    fun j peer node hj hpeer hnode => accepted_reply_iff hconsistent a hreply hbasic hj hpeer hnode
  obtain ⟨hhealthy, hpolicy⟩ := henvs env List.mem_cons_self
  obtain ⟨hlocal, hconfig⟩ := hholds o
  have hhead : (a.path.frame true reply).hops[0]? = some o := by
    show a.path.hops.reverse[0]? = some o
    rw [← List.head?_eq_getElem?, List.head?_reverse, hreturnable.last]
  -- the reply leaves the owner
  obtain ⟨next, hnext⟩ : ∃ next, (a.path.frame true reply).hops[1]? = some next :=
    ⟨_, List.getElem?_eq_getElem hbasic.index.2⟩
  obtain ⟨raw, hraw, hsend⟩ := sendFrame_ready env hbasic hnext (hhealthy.ready next)
  have hout := handleTunPacket_reply hconsistent hlocal hconfig a hentry hreply (hpolicy o) hlive
  rw [hsend] at hout
  have hstep : net.step L (.tunPacket o env reply) =
      net.after o false ((net.routers o).handleTunPacket L env reply) := rfl
  rw [after_send net o false hout, hempty] at hstep
  have hholds' : Holds (net.step L (.tunPacket o env reply)).1 configs := by
    obtain ⟨hlocal', hconfig'⟩ := (handleTunPacket_effect (L := L) (net.routers o) env reply).same
    exact hholds.after hlocal' hconfig'
  have hflight : (net.step L (.tunPacket o env reply)).1.inFlight = [⟨o, next, raw, false⟩] := by
    rw [hstep]
    rfl
  have hseen : (net.step L (.tunPacket o env reply)).2 = [.transmitted ⟨o, next, raw, false⟩] := by
    rw [hstep]
  have hrun : (net.run L (.tunPacket o env reply :: envs.map (.deliver 0))).2 =
      (net.step L (.tunPacket o env reply)).2 ++
        ((net.step L (.tunPacket o env reply)).1.run L (envs.map (.deliver 0))).2 := rfl
  rw [hrun, hseen]
  constructor
  · intro hroute
    have hcount : (a.path.frame true reply).hops.length - 1 ≤ envs.length := by
      have := hbasic.count.2
      omega
    obtain ⟨_, hvisits, hwrites⟩ := Network.carry (L := L) hholds' hraw hflight hhead hnext
      (fun j peer node hj hpeer hnode => (haccepts j peer node hj hpeer hnode).mpr hroute) hcount
      (fun e he node _ => (henvs e (List.mem_cons_of_mem _ he)).2 node)
      (fun i e _ he _ => (henvs e (List.mem_cons_of_mem _ (List.mem_of_getElem? he))).1.ready _)
    obtain ⟨rest, hrest⟩ : ∃ rest, a.path.hops.reverse = o :: next :: rest := by
      obtain ⟨_, hget₀⟩ := List.getElem?_eq_some_iff.mp hhead
      obtain ⟨hlt, hget₁⟩ := List.getElem?_eq_some_iff.mp hnext
      refine ⟨(a.path.frame true reply).hops.drop 2, ?_⟩
      have h₀ := List.drop_eq_getElem_cons (Nat.lt_of_succ_lt hlt)
      have h₁ := List.drop_eq_getElem_cons hlt
      rw [hget₀] at h₀
      rw [hget₁] at h₁
      exact h₀.trans (congrArg (o :: ·) h₁)
    have hdrop : (a.path.frame true reply).hops.drop 1 = next :: rest :=
      congrArg (List.drop 1) hrest
    rw [show (a.path.frame true reply).hopIndex = 1 from rfl, hdrop] at hvisits hwrites
    rw [hrest]
    refine ⟨congrArg ((o, next) :: ·) hvisits, ?_⟩
    rw [List.getLast?_cons_cons]
    exact hwrites
  · intro hroute
    have hnone := run_rejected (L := L) hflight (unmarshalFrame_marshal hraw)
      (fun path haccepted => hroute ((haccepts 1 o next (by omega) hhead hnext).mp ⟨path, ?_⟩)) envs
    · rw [hnone]
      rfl
    · obtain ⟨hlocal', hconfig'⟩ := hholds' next
      dsimp only at haccepted
      rw [hlocal', hconfig'] at haccepted
      exact haccepted

/-- **When a reply is written**, at the Public Node of a forward packet's path: after any forward
    packets, within the time that reverse paths live, exactly if the LAST forward packet of the
    Device went to an address with the same route. -/
theorem reply_written_iff (hconsistent : Consistent L configs) {net : Network F}
    (hholds : Holds net configs) (hempty : net.inFlight = []) (first : Arrival L (configs o) o)
    (others : List (Arrival L (configs o) o)) {reply : List UInt8}
    (hreply : parseIPv4Endpoints reply = .ok (first.destination, first.source))
    (hsize : reply.length ≤ 65535) {env : Environment F} {envs : List (Environment F)}
    (henvs : ∀ e ∈ env :: envs, Healthy e ∧
      ∀ node, (configs node).policyValid (e.now / second) = true)
    (henough : maxPathHops ≤ envs.length)
    (htimes : ∀ b ∈ others, first.env.later ≤ b.env.later ∧ b.env.later ≤ env.now)
    (httl : env.now - first.env.later ≤ reversePathTTL) :
    (∃ a ∈ first :: others, a.source = first.source ∧
      Carries a.path.hops.reverse reply
        ((net.run L ((first :: others).flatMap Arrival.events)).1.run L
          (.tunPacket o env reply :: envs.map (.deliver 0))).2) ↔
    (configs o).routeFor L first.destination =
      (configs o).routeFor L (latest first.source first others).destination := by
  obtain ⟨hholds₀, hempty₀, hentry₀⟩ := first.heard hholds hempty
  obtain ⟨hholds₁, hempty₁, hentry₁⟩ :=
    remembered_latest httl hholds₀ hempty₀ (le_refl _) hentry₀ htimes
  have hmem := latest_mem first.source first others
  have hsource := latest_source (rfl : first.source = first.source) others
  have hlater : first.env.later ≤ (latest first.source first others).env.later := by
    rcases List.mem_cons.mp hmem with h | h
    · rw [h]
    · exact (htimes _ h).1
  rw [List.flatMap_cons, run_append]
  rw [← hsource] at hreply
  have hentry : (((net.run L first.events).1.run L (others.flatMap Arrival.events)).1.routers
    o).reverse
      (latest first.source first others).source = some ⟨(latest first.source first others).path,
        (latest first.source first others).env.later⟩ := by
    rw [hsource]
    exact hentry₁
  obtain ⟨hcarries, hnone⟩ := reply_carried hconsistent hholds₁ hempty₁ _ hentry hreply hsize henvs
    henough (not_forgotten hlater (le_refl _) httl)
  constructor
  · rintro ⟨a, _, _, _, hwrites⟩
    by_contra hroute
    -- something is written, since the path has a first hop
    rw [hnone hroute] at hwrites
    have htwo := a.returnable.two
    obtain ⟨node, hlast⟩ : ∃ node, a.path.hops.reverse.getLast? = some node := by
      rw [List.getLast?_reverse, List.head?_eq_getElem?]
      exact ⟨_, List.getElem?_eq_getElem (by omega)⟩
    rw [hlast] at hwrites
    cases hwrites
  · exact fun hroute => ⟨_, hmem, hsource, hcarries hroute⟩

/-! ## Two prefixes of one owner -/

namespace TwoPrefixes

/-- A second path from `g` to `o`, for another prefix. -/
def path : Path Int :=
  { Stale.path with id := ascii "p2", cidr := ascii "192.168.2.0/24" }

/-- The configuration of every Node: two prefixes, one owner. -/
def shared : RoutingConfig Int :=
  { Stale.config [Stale.path, path] with
    routes := [⟨ascii "192.168.1.0/24", ascii "o"⟩, ⟨ascii "192.168.2.0/24", ascii "o"⟩] }

/-- Every Node has it, and nothing is in flight. -/
def net : Network Int := ⟨fun node => ⟨node, shared, fun _ => none, fun _ => none⟩, []⟩

/-- From the Device 10.8.0.`device` to 192.168.`site`.`host`. -/
def request (device site host : UInt8) : List UInt8 :=
  [0x45, 0, 0, 20, 0, 0, 0, 0, 64, 17, 0, 0, 10, 8, 0, device, 192, 168, site, host]

theorem consistent : Consistent plainLibrary fun _ => shared where
  routes := fun _ _ _ => rfl
  overlay := fun _ _ => rfl
  paths := by
    intro _ p hp hop _
    have hfound : ∀ p ∈ shared.transitPaths, shared.transitPath p.id = some p := by decide +kernel
    exact ⟨p, hfound p hp, rfl, rfl, rfl⟩
  owners := fun _ _ _ => rfl

/-- A packet arrives over a path, second `now`. -/
def arrive (now : Int) (p : Path Int) (payload : List UInt8) (source destination : Nat)
    (hread : unmarshalFrame (Stale.frameOf p payload) = .ok (p.frame false payload))
    (hpolicy : shared.policyValid ((Stale.env now).now / second) = true)
    (haccepted : validateFrameForNode plainLibrary (p.frame false payload) (ascii "o") (ascii "g")
      shared = .ok p)
    (hlast : (p.frame false payload).hopIndex + 1 = (p.frame false payload).hops.length)
    (hendpoints : parseIPv4Endpoints payload = .ok (source, destination)) :
    Arrival plainLibrary shared (ascii "o") where
  env := Stale.env now
  peerID := ascii "g"
  raw := Stale.frameOf p payload
  frame := p.frame false payload
  path := p
  source := source
  destination := destination
  read := hread
  policy := hpolicy
  accepted := (validateFrameForNode_iff plainLibrary).mp haccepted
  forward := rfl
  last := hlast
  endpoints := hendpoints

/-- The Device 10.8.0.5 to 192.168.1.7. -/
def first : Arrival plainLibrary shared (ascii "o") :=
  arrive 1000 Stale.path (request 5 1 7) 168296453 3232235783 (by decide +kernel)
    (by decide +kernel) (by decide +kernel) rfl (by decide +kernel)

/-- The same Device to the other prefix. -/
def other : Arrival plainLibrary shared (ascii "o") :=
  arrive 1001 path (request 5 2 9) 168296453 3232236041 (by decide +kernel)
    (by decide +kernel) (by decide +kernel) rfl (by decide +kernel)

/-- The same Device to another host of the first prefix. -/
def again : Arrival plainLibrary shared (ascii "o") :=
  arrive 1001 Stale.path (request 5 1 8) 168296453 3232235784 (by decide +kernel)
    (by decide +kernel) (by decide +kernel) rfl (by decide +kernel)

/-- Another Device to the other prefix. -/
def neighbour : Arrival plainLibrary shared (ascii "o") :=
  arrive 1002 path (request 6 2 9) 168296454 3232236041 (by decide +kernel)
    (by decide +kernel) (by decide +kernel) rfl (by decide +kernel)

/-- The reply comes out of the tunnel of `o`, and is passed on. -/
def events : List (Event Int) :=
  .tunPacket (ascii "o") (Stale.env 1002) Stale.reply ::
    (List.replicate 3 (Stale.env 1002)).map (.deliver 0)

theorem healthy (now : Int) (hnow : now < 2000) : Healthy (Stale.env now) ∧
    ∀ _ : GoString, shared.policyValid ((Stale.env now).now / second) = true := by
  refine ⟨⟨fun _ => rfl, fun _ => rfl, fun _ => rfl, rfl⟩, fun _ => ?_⟩
  show (decide ((2000 : Int) = 0) || decide (now * 1000000000 / 1000000000 < 2000)) = true
  rw [Int.mul_ediv_cancel _ (by decide), decide_eq_true hnow, Bool.or_true]

end TwoPrefixes

/-- **A reply is lost because of another flow** of the same Device. -/
theorem reply_lost_after_other_prefix :
    Consistent plainLibrary (fun _ => TwoPrefixes.shared) ∧
    Holds TwoPrefixes.net (fun _ => TwoPrefixes.shared) ∧
    parseIPv4Endpoints Stale.reply =
      .ok (TwoPrefixes.first.destination, TwoPrefixes.first.source) ∧
    ¬ ∃ a ∈ [TwoPrefixes.first, TwoPrefixes.other], a.source = TwoPrefixes.first.source ∧
      Carries a.path.hops.reverse Stale.reply
        ((TwoPrefixes.net.run plainLibrary
          ([TwoPrefixes.first, TwoPrefixes.other].flatMap Arrival.events)).1.run plainLibrary
            TwoPrefixes.events).2 := by
  have hnone : writesOf ((TwoPrefixes.net.run plainLibrary
      ([TwoPrefixes.first, TwoPrefixes.other].flatMap Arrival.events)).1.run plainLibrary
        TwoPrefixes.events).2 = [] := by
    decide +kernel
  refine ⟨TwoPrefixes.consistent, fun _ => ⟨rfl, rfl⟩, by decide +kernel, ?_⟩
  rintro ⟨a, ha, _, _, hwrites⟩
  rw [hnone] at hwrites
  rcases List.mem_cons.mp ha with rfl | ha
  · cases hwrites
  · obtain rfl := List.mem_singleton.mp ha
    cases hwrites

/-- Other packets come in between, and the reply is written. -/
theorem reply_written_among_others :
    ∃ a ∈ [TwoPrefixes.first, TwoPrefixes.again, TwoPrefixes.neighbour],
      a.source = TwoPrefixes.first.source ∧
      Carries a.path.hops.reverse Stale.reply
        ((TwoPrefixes.net.run plainLibrary ([TwoPrefixes.first, TwoPrefixes.again,
          TwoPrefixes.neighbour].flatMap Arrival.events)).1.run plainLibrary
            TwoPrefixes.events).2 :=
  (reply_written_iff TwoPrefixes.consistent (fun _ => ⟨rfl, rfl⟩) rfl TwoPrefixes.first
    [TwoPrefixes.again, TwoPrefixes.neighbour] (by decide +kernel) (by decide) (fun e he => by
      have heq : e = Stale.env 1002 := by
        rcases List.mem_cons.mp he with h | h
        · exact h
        · exact List.eq_of_mem_replicate h
      rw [heq]
      exact TwoPrefixes.healthy 1002 (by decide))
    (by decide) (by decide +kernel) (by decide)).mpr (by decide +kernel)

end Bpc.Routed
