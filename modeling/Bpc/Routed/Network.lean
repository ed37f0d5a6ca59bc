/-
  A NETWORK OF ROUTERS — what one frame from a malicious peer can cause.

  The mesh AUTHENTICATES the sender of a frame and nothing else; frames are delivered at most once,
  in any order, or lost.  What a Node does comes from a frame over an approved path (`Injected`),
  and the hops that remain (`remaining`) are the VARIANT.
-/
import Bpc.Routed.Router

namespace Bpc.Routed

/-! ## The network -/

/-- A frame in flight; what is sent on because of a marked frame is marked. -/
structure Transit where
  sender : GoString
  receiver : GoString
  raw : List UInt8
  marked : Bool
  deriving DecidableEq

/-- Routers, and frames in flight. -/
structure Network (F : Type) where
  routers : GoString → Router F
  inFlight : List Transit

/-- What can happen in a network. -/
inductive Event (F : Type) where
  /-- A frame in flight reaches its receiver. -/
  | deliver (i : Nat) (env : Environment F)
  /-- A frame in flight is lost. -/
  | lose (i : Nat)
  /-- A peer sends bytes of its own making. -/
  | inject (sender receiver : GoString) (raw : List UInt8)
  /-- A Node gets a packet from its tunnel. -/
  | tunPacket (node : GoString) (env : Environment F) (packet : List UInt8)
  /-- A Node gets a configuration. -/
  | updateConfig (node : GoString) (config : RoutingConfig F)

/-- What can be seen. -/
inductive Occurrence where
  | transmitted (t : Transit)
  | wrote (node : GoString) (packet : List UInt8)
  deriving DecidableEq

variable {F : Type} (L : GoLib F)

/-- The frames that a call sends. -/
def Outcome.transits (out : Outcome) (node : GoString) (marked : Bool) : List Transit :=
  out.sent.map fun s => ⟨node, s.1, s.2, marked⟩

/-- The network after a call at a Node, and what is seen of the call. -/
def Network.after (net : Network F) (node : GoString) (marked : Bool)
    (result : Router F × Outcome) : Network F × List Occurrence :=
  (⟨fun other => if other = node then result.1 else net.routers other,
      net.inFlight ++ result.2.transits node marked⟩,
    result.2.written.map (.wrote node) ++ (result.2.transits node marked).map .transmitted)

/-- One event. -/
def Network.step (net : Network F) : Event F → Network F × List Occurrence
  | .deliver i env =>
    match net.inFlight[i]? with
    | none => (net, [])
    | some t =>
      Network.after { net with inFlight := net.inFlight.eraseIdx i } t.receiver t.marked
        ((net.routers t.receiver).handleMeshData L env t.sender t.raw)
  | .lose i => ({ net with inFlight := net.inFlight.eraseIdx i }, [])
  | .inject sender receiver raw =>
    ({ net with inFlight := net.inFlight ++ [⟨sender, receiver, raw, false⟩] }, [])
  | .tunPacket node env packet =>
    net.after node false ((net.routers node).handleTunPacket L env packet)
  | .updateConfig node config => net.after node false ((net.routers node).updateConfig L config)

variable {L} in
theorem Network.step_deliver {net : Network F} {i : Nat} {t : Transit}
    (h : net.inFlight[i]? = some t)
    (env : Environment F) : net.step L (.deliver i env) =
      Network.after { net with inFlight := net.inFlight.eraseIdx i } t.receiver t.marked
        ((net.routers t.receiver).handleMeshData L env t.sender t.raw) := by
  rw [Network.step, h]

variable {L} in
theorem Network.step_idle {net : Network F} {i : Nat} (h : net.inFlight[i]? = none)
    (env : Environment F) : net.step L (.deliver i env) = (net, []) := by
  rw [Network.step, h]

/-- A run. -/
def Network.run (net : Network F) : List (Event F) → Network F × List Occurrence
  | [] => (net, [])
  | event :: events =>
    let (next, seen) := net.step L event
    let (last, rest) := next.run events
    (last, seen ++ rest)

/-- The network in which one new frame is marked. -/
def Network.mark (net : Network F) (sender receiver : GoString) (raw : List UInt8) : Network F :=
  { net with
    inFlight := ⟨sender, receiver, raw, true⟩ ::
      net.inFlight.map fun t => { t with marked := false } }

/-- How often a marked frame was sent. -/
def transmissions (seen : List Occurrence) : Nat :=
  seen.countP fun o =>
    match o with
    | .transmitted t => t.marked
    | .wrote _ _ => false

/-! ## The variant -/

/-- The hops that a frame has left. -/
def remaining (raw : List UInt8) : Nat :=
  match unmarshalFrame raw with
  | .error _ => 0
  | .ok frame => frame.hops.length - 1 - frame.hopIndex

/-- How often the marked frames in flight can still be sent on. -/
def potential (inFlight : List Transit) : Nat :=
  (inFlight.map fun t => if t.marked then remaining t.raw else 0).sum

theorem potential_append (a b : List Transit) : potential (a ++ b) = potential a + potential b := by
  unfold potential
  rw [List.map_append, List.sum_append]

theorem potential_eraseIdx {inFlight : List Transit} {i : Nat} {t : Transit}
    (h : inFlight[i]? = some t) :
    potential (inFlight.eraseIdx i) + (if t.marked then remaining t.raw else 0) =
      potential inFlight := by
  induction inFlight generalizing i with
  | nil => cases h
  | cons first rest ih =>
    cases i with
    | zero =>
      obtain rfl := Option.some.inj h
      show potential rest + _ = _ + potential rest
      rw [Nat.add_comm]
    | succ i =>
      have hrest := ih (i := i) h
      show (if first.marked then remaining first.raw else 0) + potential (rest.eraseIdx i) + _ =
        (if first.marked then remaining first.raw else 0) + potential rest
      omega

theorem potential_eraseIdx_le (inFlight : List Transit) (i : Nat) :
    potential (inFlight.eraseIdx i) ≤ potential inFlight := by
  cases h : inFlight[i]? with
  | none =>
    rw [List.eraseIdx_of_length_le (List.getElem?_eq_none_iff.mp h)]
  | some t =>
    have := potential_eraseIdx h
    omega

theorem potential_unmarked {inFlight : List Transit} (h : ∀ t ∈ inFlight, t.marked = false) :
    potential inFlight = 0 := by
  induction inFlight with
  | nil => rfl
  | cons t rest ih =>
    have hrest := ih fun t' ht' => h t' (List.mem_cons_of_mem _ ht')
    have ht := h t List.mem_cons_self
    show (if t.marked then remaining t.raw else 0) + potential rest = 0
    rw [hrest, ht]
    rfl

theorem transmissions_append (a b : List Occurrence) :
    transmissions (a ++ b) = transmissions a + transmissions b := List.countP_append

theorem transmissions_wrote (node : GoString) (packets : List (List UInt8)) :
    transmissions (packets.map (.wrote node)) = 0 := by
  unfold transmissions
  rw [List.countP_eq_zero]
  intro o ho
  obtain ⟨packet, _, rfl⟩ := List.mem_map.mp ho
  exact Bool.false_ne_true

theorem transmissions_after (net : Network F) (node : GoString) (marked : Bool)
    (result : Router F × Outcome) : transmissions (net.after node marked result).2 =
      if marked then result.2.sent.length else 0 := by
  show transmissions (_ ++ _) = _
  rw [transmissions_append, transmissions_wrote, Nat.zero_add]
  unfold transmissions Outcome.transits
  rw [List.map_map, List.countP_map]
  cases marked with
  | true => exact List.countP_eq_length.mpr fun _ _ => rfl
  | false => exact List.countP_eq_zero.mpr fun _ _ => Bool.false_ne_true

theorem potential_transits_false (out : Outcome) (node : GoString) :
    potential (out.transits node false) = 0 := by
  refine potential_unmarked fun t ht => ?_
  obtain ⟨s, _, rfl⟩ := List.mem_map.mp ht
  rfl

variable {L}

/-- **Sending on uses up a hop.** -/
theorem potential_sendFrame (env : Environment F) (frame : Frame) (node : GoString) :
    potential ((sendFrame env frame).transits node true) + (sendFrame env frame).sent.length ≤
      frame.hops.length - frame.hopIndex := by
  unfold Outcome.transits
  cases hout : (sendFrame env frame).sent with
  | nil => exact Nat.zero_le _
  | cons s rest =>
    obtain ⟨peer, raw⟩ := s
    obtain ⟨hnext, hmarshal, hall⟩ := sendFrame_sent (hout ▸ List.mem_cons_self)
    obtain ⟨hindex, _⟩ := List.getElem?_eq_some_iff.mp hnext
    rw [← hout, hall]
    show remaining raw + 0 + 1 ≤ _
    unfold remaining
    rw [unmarshalFrame_marshal hmarshal]
    dsimp only
    omega

theorem potential_handleMeshData (r : Router F) (env : Environment F) (t : Transit) :
    potential ((r.handleMeshData L env t.sender t.raw).2.transits t.receiver t.marked) +
        (if t.marked then (r.handleMeshData L env t.sender t.raw).2.sent.length else 0) ≤
      if t.marked then remaining t.raw else 0 := by
  cases hmarked : t.marked with
  | false =>
    rw [potential_transits_false]
    exact Nat.le_refl 0
  | true =>
    simp only [if_true]
    have hidle : ∀ out : Outcome, out.sent = [] →
        potential (out.transits t.receiver true) + out.sent.length ≤ remaining t.raw := by
      intro out h
      unfold Outcome.transits
      rw [h]
      exact Nat.zero_le _
    rcases handleMeshData_cases (L := L) r env t.sender t.raw with ⟨_, hsent, _⟩ |
      ⟨frame, path, hframe, _, _, ⟨_, hwrite, _⟩ | ⟨hindex, hsend⟩⟩
    · exact hidle _ hsent
    · exact hidle _ (by rw [hwrite]; rfl)
    · rw [hsend]
      have hused := potential_sendFrame env { frame with hopIndex := frame.hopIndex + 1 } t.receiver
      have hremaining : remaining t.raw = frame.hops.length - 1 - frame.hopIndex := by
        unfold remaining
        rw [hframe]
      dsimp only at hused ⊢
      omega

/-- **A step** uses up what it transmits. -/
theorem potential_step (net : Network F) (event : Event F) :
    potential (net.step L event).1.inFlight + transmissions (net.step L event).2 ≤
      potential net.inFlight := by
  have hafter : ∀ (net : Network F) node result,
      potential (net.after node false result).1.inFlight +
        transmissions (net.after node false result).2 ≤ potential net.inFlight := by
    intro net node result
    rw [transmissions_after]
    show potential (net.inFlight ++ _) + 0 ≤ _
    rw [potential_append, potential_transits_false]
    omega
  cases event with
  | deliver i env =>
    unfold Network.step
    dsimp only
    split
    · exact Nat.le_refl _
    · rename_i t ht
      have hleft := potential_eraseIdx ht
      have hused := potential_handleMeshData (L := L) (net.routers t.receiver) env t
      rw [transmissions_after]
      show potential (net.inFlight.eraseIdx i ++ _) + _ ≤ _
      rw [potential_append]
      omega
  | lose i => exact potential_eraseIdx_le net.inFlight i
  | inject sender receiver raw =>
    show potential (net.inFlight ++ [⟨sender, receiver, raw, false⟩]) + 0 ≤ _
    rw [potential_append]
    exact Nat.le_refl _
  | tunPacket node env packet => exact hafter net node _
  | updateConfig node config => exact hafter net node _

theorem potential_run (net : Network F) (events : List (Event F)) :
    potential (net.run L events).1.inFlight + transmissions (net.run L events).2 ≤
      potential net.inFlight := by
  induction events generalizing net with
  | nil => exact Nat.le_refl _
  | cons event events ih =>
    have hstep := potential_step (L := L) net event
    have hrest := ih (net.step L event).1
    show potential ((net.step L event).1.run L events).1.inFlight +
      transmissions ((net.step L event).2 ++ ((net.step L event).1.run L events).2) ≤ _
    rw [transmissions_append]
    omega

theorem remaining_lt (raw : List UInt8) : remaining raw < maxPathHops := by
  unfold remaining
  split
  · exact Nat.zero_lt_succ 2
  · rename_i frame hframe
    have hcount := (unmarshalFrame_basic hframe).count
    omega

theorem potential_mark (net : Network F) (sender receiver : GoString) (raw : List UInt8) :
    potential (net.mark sender receiver raw).inFlight = remaining raw := by
  show remaining raw + potential (net.inFlight.map fun t => { t with marked := false }) = _
  rw [potential_unmarked, Nat.add_zero]
  intro t ht
  obtain ⟨_, _, rfl⟩ := List.mem_map.mp ht
  rfl

/-! ## What a peer can make a Node do -/

/-- A forward packet comes from the overlay, on the longest route of its destination; a return
    packet goes there, by the route of its source. -/
structure Belongs (L : GoLib F) (config : RoutingConfig F) (path : Path F) (isReturn : Bool)
    (source destination : Nat) : Prop where
  overlay : ∃ overlay, parsePrefix config.overlaySubnet = some overlay ∧
    (if isReturn then destination else source) ∈ overlay
  route : config.routeFor L (if isReturn then source else destination) =
    some ⟨path.cidr, path.ownerNodeID⟩
  longest : config.Longest L (if isReturn then source else destination)
    ⟨path.cidr, path.ownerNodeID⟩

/-- Why a Node writes a packet or sends a frame. -/
structure Injected (L : GoLib F) (r : Router F) (peerID : GoString) (raw : List UInt8)
    (frame : Frame)
    (path : Path F) : Prop where
  read : unmarshalFrame raw = .ok frame
  approved : path ∈ r.config.transitPaths ∧ path.id = frame.pathID
  owner : path.ownerNodeID = frame.ownerNodeID
  hops : frame.hops = directed frame.isReturn path.hops
  current : frame.hops[frame.hopIndex]? = some r.localNodeID
  before : 0 < frame.hopIndex ∧ frame.hops[frame.hopIndex - 1]? = some peerID
  packet : ∃ source destination, parseIPv4Endpoints frame.payload = .ok (source, destination) ∧
    Belongs L r.config path frame.isReturn source destination

theorem Accepted.belongs {config : RoutingConfig F} {localNodeID senderPeerID : GoString}
    {frame : Frame} {path : Path F} (h : Accepted L config localNodeID senderPeerID frame path) :
    ∃ source destination, parseIPv4Endpoints frame.payload = .ok (source, destination) ∧
      Belongs L config path frame.isReturn source destination := by
  obtain ⟨source, destination, hparse, hreturn, hforward⟩ := h.packet
  obtain ⟨hsource, hdestination⟩ := parseIPv4Endpoints_lt hparse
  refine ⟨source, destination, hparse, ?_⟩
  cases hdirection : frame.isReturn with
  | true =>
    obtain ⟨_, hoverlay, hroute⟩ := hreturn hdirection
    rw [← h.owner] at hroute
    exact ⟨RoutingConfig.mem_overlay hdestination hoverlay, hroute,
      RoutingConfig.routeFor_longest hroute⟩
  | false =>
    obtain ⟨hoverlay, _, hroute⟩ := hforward hdirection
    rw [← h.owner] at hroute
    exact ⟨RoutingConfig.mem_overlay hsource hoverlay, hroute,
      RoutingConfig.routeFor_longest hroute⟩

theorem Accepted.injected {r : Router F} {peerID : GoString} {raw : List UInt8} {frame : Frame}
    {path : Path F} (hread : unmarshalFrame raw = .ok frame)
    (h : Accepted L r.config r.localNodeID peerID frame path) :
      Injected L r peerID raw frame path where
  read := hread
  approved := RoutingConfig.mem_of_transitPath h.approved
  owner := h.owner
  hops := h.hops
  current := h.current
  before := ⟨h.basic.index.1, h.previous⟩
  packet := h.belongs

/-- **A malicious peer cannot inject or loop traffic.**  A Node acts only on a frame over an
    approved path from the hop before, writes the packet only as the last hop, and otherwise sends
    it unchanged to the next hop; and one frame causes fewer than `MaxPathHops` further
    transmissions. -/
theorem injected_frame_confined (L : GoLib F) :
    (∀ (r : Router F) (env : Environment F) (peerID : GoString) (raw : List UInt8),
      (r.handleMeshData L env peerID raw).2.written ≠ [] ∨
        (r.handleMeshData L env peerID raw).2.sent ≠ [] →
      ∃ frame path, Injected L r peerID raw frame path ∧
        ((frame.hopIndex + 1 = frame.hops.length ∧
            (r.handleMeshData L env peerID raw).2.written = [frame.payload] ∧
            (r.handleMeshData L env peerID raw).2.sent = []) ∨
          ∃ next raw', frame.hops[frame.hopIndex + 1]? = some next ∧
            (r.handleMeshData L env peerID raw).2.written = [] ∧
            (r.handleMeshData L env peerID raw).2.sent = [(next, raw')] ∧
            unmarshalFrame raw' = .ok { frame with hopIndex := frame.hopIndex + 1 })) ∧
    ∀ (net : Network F) (sender receiver : GoString) (raw : List UInt8) (events : List (Event F)),
      transmissions ((net.mark sender receiver raw).run L events).2 ≤ maxPathHops - 1 := by
  constructor
  · intro r env peerID raw hacts
    rcases handleMeshData_cases (L := L) r env peerID raw with ⟨_, hsent, hwritten⟩ |
      ⟨frame, path, hframe, _, haccepted, ⟨hlast, hwrite, _⟩ | ⟨hindex, hsend⟩⟩
    · rcases hacts with h | h
      · exact absurd hwritten h
      · exact absurd hsent h
    · refine ⟨frame, path, haccepted.injected hframe, .inl ⟨hlast, ?_, ?_⟩⟩
      · rw [hwrite]
        rfl
      · rw [hwrite]
        rfl
    · refine ⟨frame, path, haccepted.injected hframe, .inr ?_⟩
      rw [hsend] at hacts ⊢
      dsimp only at hacts ⊢
      rw [sendFrame_written] at hacts ⊢
      have hsent := hacts.resolve_left fun h => h rfl
      obtain ⟨⟨next, raw'⟩, hmem⟩ := List.exists_mem_of_ne_nil _ hsent
      obtain ⟨hnext, hmarshal, hall⟩ := sendFrame_sent hmem
      exact ⟨next, raw', hnext, rfl, hall, unmarshalFrame_marshal hmarshal⟩
  · intro net sender receiver raw events
    have hrun := potential_run (L := L) (net.mark sender receiver raw) events
    have hlt := remaining_lt raw
    rw [potential_mark] at hrun
    omega

end Bpc.Routed
