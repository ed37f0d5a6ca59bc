/-
  WITHDRAWN PATHS — does a Router use a path that its configuration no longer has?

  Not for forward and transit frames.  But return frames follow the path over which the Device was
  last heard, and `UpdateConfig` does not look at those: `withdrawn_paths_unused_iff` is exact.
  **Crux** — what is remembered can be sent back (`Returnable`).
-/
import Bpc.Routed.PlainLibrary
import Bpc.Routed.Router

namespace Bpc.Routed

variable {F : Type} (L : GoLib F)

/-! ## Calls -/

/-- A call of a Router. -/
inductive Call (F : Type) where
  | updateConfig (config : RoutingConfig F)
  | handleTunPacket (env : Environment F) (packet : List UInt8)
  | handleMeshData (env : Environment F) (peerID : GoString) (raw : List UInt8)

/-- `UpdateConfig`. -/
def Call.isUpdate : Call F → Bool
  | .updateConfig _ => true
  | _ => false

/-- What a call does. -/
def Router.call (r : Router F) : Call F → Router F × Outcome
  | .updateConfig config => r.updateConfig L config
  | .handleTunPacket env packet => r.handleTunPacket L env packet
  | .handleMeshData env peerID raw => r.handleMeshData L env peerID raw

/-- The Router after a sequence of calls, and every frame that they sent. -/
def Router.run (r : Router F) : List (Call F) → Router F × List (GoString × List UInt8)
  | [] => (r, [])
  | call :: calls =>
    let (next, out) := r.call L call
    let (last, rest) := next.run calls
    (last, out.sent ++ rest)

/-! ## Paths of a configuration -/

/-- The configuration has a path with this id, owner and hop list. -/
def Approved (c : RoutingConfig F) (path : Path F) : Prop :=
  ∃ p ∈ c.paths ++ c.transitPaths,
    p.id = path.id ∧ p.ownerNodeID = path.ownerNodeID ∧ p.hops = path.hops

/-- A frame over a path of the configuration, in its direction. -/
def Follows (c : RoutingConfig F) (raw : List UInt8) : Prop :=
  ∃ frame, unmarshalFrame raw = .ok frame ∧ ∃ p ∈ c.paths ++ c.transitPaths,
    p.id = frame.pathID ∧ p.ownerNodeID = frame.ownerNodeID ∧
      frame.hops = directed frame.isReturn p.hops

variable {L}

theorem directed_injective {isReturn : Bool} {a b : List GoString}
    (h : directed isReturn a = directed isReturn b) : a = b := by
  unfold directed at h
  split at h
  · exact List.reverse_inj.mp h
  · exact h

theorem follows_frame_iff {c : RoutingConfig F} {path : Path F} {isReturn : Bool}
    {packet raw : List UInt8} (h : marshalFrame (path.frame isReturn packet) = .ok raw) :
    Follows c raw ↔ Approved c path := by
  constructor
  · rintro ⟨frame, hread, p, hp, hid, howner, hhops⟩
    obtain rfl := Except.ok.inj (hread.symm.trans (unmarshalFrame_marshal h))
    exact ⟨p, hp, hid, howner, (directed_injective hhops).symm⟩
  · rintro ⟨p, hp, hid, howner, hhops⟩
    refine ⟨_, unmarshalFrame_marshal h, p, hp, hid, howner, ?_⟩
    show directed isReturn path.hops = directed isReturn p.hops
    rw [hhops]

/-! ## What is remembered can be sent back -/

/-- A path that came with an accepted forward frame for a Node. -/
structure Returnable (node : GoString) (device : Nat) (path : Path F) : Prop where
  address : device < 2 ^ 32
  frame : ∀ packet : List UInt8, 0 < packet.length → packet.length ≤ 65535 →
    (path.frame true packet).Basic
  owner : path.ownerNodeID = node
  last : path.hops.getLast? = some node
  two : 2 ≤ path.hops.length

variable {device : Nat}

theorem Returnable.frame_owner {node : GoString} {path : Path F} (h : Returnable node device path)
    (packet : List UInt8) :
    { path.frame true packet with ownerNodeID := node } = path.frame true packet := by
  rw [← h.owner]
  rfl

theorem Accepted.returnable {config : RoutingConfig F} {localNodeID senderPeerID : GoString}
    {frame : Frame} {path : Path F} (h : Accepted L config localNodeID senderPeerID frame path)
    (hforward : frame.isReturn = false) (hend : frame.hopIndex + 1 = frame.hops.length)
    {source destination : Nat}
    (hparse : parseIPv4Endpoints frame.payload = .ok (source, destination)) :
    Returnable localNodeID source path := by
  have hhops : frame.hops = path.hops := by
    have hdirected := h.hops
    rw [hforward] at hdirected
    exact hdirected
  have hid : path.id = frame.pathID := (RoutingConfig.mem_of_transitPath h.approved).2
  have hlast : path.hops.getLast? = some localNodeID := by
    have hcurrent := h.current
    rw [← hhops, List.getLast?_eq_getElem?, ← hcurrent]
    congr 1
    omega
  have howner : path.ownerNodeID = localNodeID := by
    have htarget := h.basic.target hforward
    rw [hhops, hlast] at htarget
    rw [h.owner, Option.some.inj htarget]
  have hcount := h.basic.count
  refine ⟨(parseIPv4Endpoints_lt hparse).1, fun packet hpos hle => ?_, howner, hlast,
    hhops ▸ hcount.1⟩
  have hreverse : (path.frame true packet).hops = frame.hops.reverse := by rw [hhops]; rfl
  refine ⟨?_, ?_, ?_, ?_, ?_, ?_, fun _ => ?_, (fun hr => by cases hr), ⟨hpos, hle⟩⟩
  · show 0 < path.id.length ∧ path.id.length ≤ 64
    rw [hid]
    exact h.basic.pathID
  · show 0 < path.ownerNodeID.length ∧ path.ownerNodeID.length ≤ 128
    rw [h.owner]
    exact h.basic.owner
  · rw [hreverse, List.length_reverse]
    exact hcount
  · rw [hreverse, List.length_reverse]
    show 0 < 1 ∧ 1 < _
    omega
  · rw [hreverse]
    exact fun hop hmem => h.basic.hops hop (List.mem_reverse.mp hmem)
  · rw [hreverse]
    exact List.nodup_reverse.mpr h.basic.nodup
  · rw [hreverse, List.head?_reverse, hhops, hlast]
    exact congrArg some howner.symm

/-- Everything that is remembered can be sent back. -/
def Learned (r : Router F) : Prop :=
  ∀ device entry, r.reverse device = some entry → Returnable r.localNodeID device entry.path

variable {r : Router F}

theorem mem_rememberReverse {key : Nat} {path : Path F} {now : Time} {entry : ReversePath F}
    (h : (r.rememberReverse device path now).reverse key = some entry) :
    (key = device ∧ entry.path = path) ∨ r.reverse key = some entry := by
  unfold Router.rememberReverse at h
  dsimp only at h
  split at h
  · rename_i hkey
    exact .inl ⟨hkey, by rw [← Option.some.inj h]⟩
  · exact .inr (Option.filter_eq_some_iff.mp h).1

/-- **What a call does to the reverse paths**: `HandleMeshData` can add a path of the
    configuration. -/
theorem call_reverse (r : Router F) (call : Call F) :
    (r.call L call).1.localNodeID = r.localNodeID ∧
    (call.isUpdate = false → (r.call L call).1.config = r.config) ∧
    ∀ device entry', (r.call L call).1.reverse device = some entry' →
      (∃ entry, r.reverse device = some entry ∧ entry.path = entry'.path) ∨
      (Returnable r.localNodeID device entry'.path ∧ Approved r.config entry'.path) := by
  cases call with
  | updateConfig config =>
    obtain ⟨hlocal, hreverse⟩ := updateConfig_same (L := L) r config
    exact ⟨hlocal, (fun h => by cases h), fun device entry' h => .inl ⟨entry', hreverse ▸ h, rfl⟩⟩
  | handleTunPacket env packet =>
    have heffect := handleTunPacket_effect (L := L) r env packet
    exact ⟨heffect.same.1, fun _ => heffect.same.2,
      fun device entry' h => .inl (heffect.remembers device entry' h)⟩
  | handleMeshData env peerID raw =>
    show (r.handleMeshData L env peerID raw).1.localNodeID = _ ∧ _ ∧ _
    have hsame : ∀ r' : Router F, r' = r → r'.localNodeID = r.localNodeID ∧
        (Call.isUpdate (Call.handleMeshData env peerID raw) = false → r'.config = r.config) ∧
        ∀ device entry', r'.reverse device = some entry' →
          (∃ entry, r.reverse device = some entry ∧ entry.path = entry'.path) ∨
          (Returnable r.localNodeID device entry'.path ∧ Approved r.config entry'.path) := by
      rintro r' rfl
      exact ⟨rfl, fun _ => rfl, fun device entry' h => .inl ⟨entry', h, rfl⟩⟩
    rcases handleMeshData_cases (L := L) r env peerID raw with ⟨hidle, _, _⟩ |
      ⟨frame, path, _, _, haccepted, ⟨hend, _, hreturn | hforward⟩ | ⟨_, hsend⟩⟩
    · exact hsame _ hidle
    · exact hsame _ hreturn.2
    · obtain ⟨hdirection, source, destination, hparse, hremember⟩ := hforward
      have happroved : Approved r.config path :=
        ⟨path, List.mem_append_right _ (RoutingConfig.mem_of_transitPath haccepted.approved).1,
          rfl, rfl, rfl⟩
      show (r.handleMeshData L env peerID raw).1.localNodeID = _ ∧
        (_ → (r.handleMeshData L env peerID raw).1.config = _) ∧
        ∀ device entry', (r.handleMeshData L env peerID raw).1.reverse device = _ → _
      rw [hremember]
      refine ⟨rfl, fun _ => rfl, fun device entry' h => ?_⟩
      rcases mem_rememberReverse h with ⟨rfl, hpath⟩ | h
      · rw [hpath]
        exact .inr ⟨haccepted.returnable hdirection hend hparse, happroved⟩
      · exact .inl ⟨entry', h, rfl⟩
    · exact hsame _ (by rw [hsend])

theorem Learned.call (h : Learned r) (call : Call F) : Learned (r.call L call).1 := by
  obtain ⟨hlocal, _, hreverse⟩ := call_reverse (L := L) r call
  intro device entry' hentry'
  rw [hlocal]
  rcases hreverse device entry' hentry' with ⟨entry, hentry, hpath⟩ | ⟨hreturnable, _⟩
  · exact hpath ▸ h device entry hentry
  · exact hreturnable

theorem Learned.run (h : Learned r) (calls : List (Call F)) :
    Learned (r.run L calls).1 ∧ (r.run L calls).1.localNodeID = r.localNodeID := by
  induction calls generalizing r with
  | nil => exact ⟨h, rfl⟩
  | cons call calls ih =>
    obtain ⟨hlearned, hlocal⟩ := ih (h.call call)
    exact ⟨hlearned, hlocal.trans (call_reverse r call).1⟩

theorem learned_newRouter {node : GoString} {config : RoutingConfig F}
    (h : newRouter L node config = .ok r) : Learned r ∧ r.localNodeID = node := by
  unfold newRouter at h
  split at h
  · cases h
  split at h
  · cases h
  obtain rfl := Except.ok.inj h
  exact ⟨fun device entry hentry => (by cases hentry), rfl⟩

/-! ## What is sent -/

/-- What can be sent back over is in the configuration. -/
def Current (r : Router F) : Prop :=
  r.config.localSiteRouter = true → ∀ device entry, r.reverse device = some entry →
    r.config.inOverlay device = true → Approved r.config entry.path

/-- **A call that is no update** sends over paths of the configuration. -/
theorem Current.call (hlearned : Learned r) (h : Current r) {call : Call F}
    (hupdate : call.isUpdate = false) : Current (r.call L call).1 ∧
      (r.call L call).1.config = r.config ∧
      ∀ s ∈ (r.call L call).2.sent, Follows r.config s.2 := by
  obtain ⟨_, hconfig, hreverse⟩ := call_reverse (L := L) r call
  have hconfig := hconfig hupdate
  refine ⟨?_, hconfig, ?_⟩
  · intro hsite device entry' hentry' hoverlay
    rw [hconfig] at hsite hoverlay ⊢
    rcases hreverse device entry' hentry' with ⟨entry, hentry, hpath⟩ | ⟨_, happroved⟩
    · exact hpath ▸ h hsite device entry hentry hoverlay
    · exact happroved
  · rintro ⟨peer, raw⟩ hsent
    cases call with
    | updateConfig config => cases hupdate
    | handleTunPacket env packet =>
      rcases (handleTunPacket_effect (L := L) r env packet).sent peer raw hsent with
        ⟨path, hpath, hmarshal⟩ |
        ⟨source, device, entry, _, hsite, hoverlay, hentry, hmarshal⟩
      · exact (follows_frame_iff hmarshal).mpr
          ⟨path, List.mem_append_left _ hpath, rfl, rfl, rfl⟩
      · rw [(hlearned device entry hentry).frame_owner] at hmarshal
        exact (follows_frame_iff hmarshal).mpr (h hsite device entry hentry hoverlay)
    | handleMeshData env peerID bytes =>
      have hsent : (peer, raw) ∈ (r.handleMeshData L env peerID bytes).2.sent := hsent
      rcases handleMeshData_cases (L := L) r env peerID bytes with ⟨_, hnone, _⟩ |
        ⟨frame, path, _, _, haccepted, ⟨_, hwrite, _⟩ | ⟨_, hsend⟩⟩
      · rw [hnone] at hsent
        cases hsent
      · rw [hwrite] at hsent
        cases hsent
      · rw [hsend] at hsent
        obtain ⟨hmem, hid⟩ := RoutingConfig.mem_of_transitPath haccepted.approved
        exact ⟨_, unmarshalFrame_marshal (sendFrame_sent hsent).2.1, path,
          List.mem_append_right _ hmem, hid, haccepted.owner, haccepted.hops⟩

theorem Current.run (hlearned : Learned r) (h : Current r) {calls : List (Call F)}
    (hupdates : ∀ call ∈ calls, call.isUpdate = false) :
    ∀ s ∈ (r.run L calls).2, Follows r.config s.2 := by
  induction calls generalizing r with
  | nil => exact fun s hs => by cases hs
  | cons call calls ih =>
    obtain ⟨hcurrent, hconfig, hsent⟩ := h.call (L := L) hlearned (hupdates call List.mem_cons_self)
    have hrest := ih (hlearned.call call) hcurrent
      fun c hc => hupdates c (List.mem_cons_of_mem _ hc)
    intro s hs
    rcases List.mem_append.mp hs with hs | hs
    · exact hsent s hs
    · exact hconfig ▸ hrest s hs

/-! ## Every remembered path can be used -/

/-- A packet to the Device. -/
def packetTo (device : Nat) : List UInt8 :=
  [0x45, 0, 0, 20, 0, 0, 0, 0, 0, 0, 0, 0, 0, 0, 0, 0, (device / 2 ^ 24).toUInt8,
    (device / 2 ^ 16 % 256).toUInt8, (device / 2 ^ 8 % 256).toUInt8, (device % 256).toUInt8]

theorem parse_packetTo (h : device < 2 ^ 32) :
    parseIPv4Endpoints (packetTo device) = .ok (0, device) := by
  have hheader : ∀ a b c d : UInt8,
      parseIPv4Endpoints [0x45, 0, 0, 20, 0, 0, 0, 0, 0, 0, 0, 0, 0, 0, 0, 0, a, b, c, d] =
        .ok (0, ((a.toNat * 256 + b.toNat) * 256 + c.toNat) * 256 + d.toNat) := by
    intro a b c d
    simp [parseIPv4Endpoints, addressAt]
  rw [packetTo, hheader, toNat_toUInt8 (by omega), toNat_toUInt8 (by omega),
    toNat_toUInt8 (by omega), toNat_toUInt8 (by omega)]
  congr 2
  omega

/-- A healthy mesh, while the policy holds and an entry is fresh. -/
def freshEnvironment (c : RoutingConfig F) (lastSeen : Time) : Environment F where
  canSend := fun _ => true
  linkStatus := fun _ => none
  ready := fun _ => true
  sendError := fun _ => none
  writeError := none
  now := min lastSeen (c.policyExpiresAt * second - second)
  later := lastSeen

theorem freshEnvironment_policy (c : RoutingConfig F) (lastSeen : Time) :
    c.policyValid ((freshEnvironment c lastSeen).now / second) = true := by
  have hfloor : ∀ now expiry : Int, now ≤ expiry * 1000000000 - 1000000000 →
      now / 1000000000 < expiry := fun now expiry h => by omega
  unfold RoutingConfig.policyValid
  rw [Bool.or_eq_true, decide_eq_true_eq, decide_eq_true_eq]
  right
  exact hfloor _ _ (Int.min_le_right _ _)

/-- **A remembered path is used** by some packet. -/
theorem remembered_path_used (hlearned : Learned r) (hsite : r.config.localSiteRouter = true)
    {entry : ReversePath F} (hentry : r.reverse device = some entry)
    (hoverlay : r.config.inOverlay device = true) :
    ∃ env peer raw, marshalFrame (entry.path.frame true (packetTo device)) = .ok raw ∧
      (peer, raw) ∈ (r.handleTunPacket L env (packetTo device)).2.sent := by
  have hreturnable := hlearned device entry hentry
  have hbasic := hreturnable.frame (packetTo device) (by show 0 < 20; omega)
    (by show 20 ≤ 65535; omega)
  have hnext : ∃ peer, (entry.path.frame true (packetTo device)).hops[1]? = some peer :=
    ⟨_, List.getElem?_eq_getElem hbasic.index.2⟩
  obtain ⟨peer, hpeer⟩ := hnext
  obtain ⟨raw, hraw, hsend⟩ :=
    sendFrame_ready (freshEnvironment r.config entry.lastSeen) hbasic hpeer rfl
  have hlive : (freshEnvironment r.config entry.lastSeen).now - entry.lastSeen ≤ reversePathTTL :=
    (Int.sub_nonpos_of_le (Int.min_le_left _ _)).trans (by decide)
  refine ⟨freshEnvironment r.config entry.lastSeen, peer, raw, hraw, ?_⟩
  unfold Router.handleTunPacket
  rw [parse_packetTo hreturnable.address]
  dsimp only
  rw [freshEnvironment_policy, if_neg (not_not.mpr rfl), if_pos ⟨hsite, hoverlay⟩,
    returnPacket_sends _ hentry hlive hreturnable.two hreturnable.last,
      hreturnable.frame_owner, hsend]
  exact List.mem_cons_self

/-- **Which updates withdraw their paths**: those that make the Node no site router, or keep every
    path that is remembered for a Device of the new overlay. -/
theorem withdrawn_paths_unused_iff {node : GoString} {c₀ c : RoutingConfig F} {r₀ : Router F}
    (hnew : newRouter L node c₀ = .ok r₀) (before : List (Call F))
    (hc : c.validate L node = .ok ()) :
    (∀ after : List (Call F), (∀ call ∈ after, call.isUpdate = false) →
      ∀ s ∈ (((r₀.run L before).1.updateConfig L c).1.run L after).2, Follows c s.2) ↔
    (c.localSiteRouter = true → ∀ device entry, (r₀.run L before).1.reverse device = some entry →
      c.inOverlay device = true → Approved c entry.path) := by
  obtain ⟨hlearned₀, hnode⟩ := learned_newRouter hnew
  obtain ⟨hlearned, hlocal⟩ := hlearned₀.run (L := L) before
  generalize hr : (r₀.run L before).1 = r at hlearned hlocal ⊢
  have hc : c.validate L r.localNodeID = .ok () := by rw [hlocal, hnode]; exact hc
  obtain ⟨_, hreverse⟩ := updateConfig_same (L := L) r c
  have hconfig := updateConfig_accepted hc
  have hlearned' : Learned (r.updateConfig L c).1 := hlearned.call (L := L) (.updateConfig c)
  constructor
  · intro hfollows hsite device entry hentry hoverlay
    obtain ⟨env, peer, raw, hraw, hsent⟩ := remembered_path_used (L := L) hlearned'
      (by rw [hconfig]; exact hsite) (by rw [hreverse]; exact hentry)
        (by rw [hconfig]; exact hoverlay)
    have hsent' : (peer, raw) ∈ ((r.updateConfig L c).1.run L
        [.handleTunPacket env (packetTo device)]).2 := List.mem_append_left _ hsent
    have := hfollows [.handleTunPacket env (packetTo device)]
      (fun call hcall => by rw [List.mem_singleton.mp hcall]; rfl) (peer, raw) hsent'
    exact (follows_frame_iff hraw).mp this
  · intro hkept after hupdates s hs
    have hcurrent : Current (r.updateConfig L c).1 := by
      intro hsite device entry hentry hoverlay
      rw [hconfig] at hsite hoverlay ⊢
      exact hkept hsite device entry (hreverse ▸ hentry) hoverlay
    have := hcurrent.run hlearned' hupdates s hs
    exact hconfig ▸ this

/-! ## A path that is withdrawn and still used -/

namespace Stale

/-- A path from the Public Node `g` to the site router `o`. -/
def path : Path Int where
  id := ascii "p1"
  ownerNodeID := ascii "o"
  cidr := ascii "192.168.1.0/24"
  hops := [ascii "g", ascii "o"]
  health := ascii "healthy"
  rttMS := 1
  lossPercent := 0
  cost := 10
  score := 11

/-- The configuration of `o`, with and without the path. -/
def config (transitPaths : List (Path Int)) : RoutingConfig Int where
  policyExpiresAt := 2000
  version := 1
  listenPort := 0
  overlaySubnet := ascii "10.8.0.0/16"
  localPublic := false
  localSiteRouter := true
  links := []
  paths := []
  transitPaths := transitPaths
  routes := [⟨ascii "192.168.1.0/24", ascii "o"⟩]

/-- A healthy mesh. -/
def env (now : Int) : Environment Int where
  canSend := fun _ => true
  linkStatus := fun _ => none
  ready := fun _ => true
  sendError := fun _ => none
  writeError := none
  now := now * second
  later := now * second

/-- From the Device 10.8.0.5 to 192.168.1.7, and back. -/
def request : List UInt8 :=
  [0x45, 0, 0, 20, 0, 0, 0, 0, 64, 17, 0, 0, 10, 8, 0, 5, 192, 168, 1, 7]

/-- A packet to the Device. -/
def reply : List UInt8 :=
  [0x45, 0, 0, 20, 0, 0, 0, 0, 64, 17, 0, 0, 192, 168, 1, 7, 10, 8, 0, 5]

/-- A forward packet as `g` sends it over a path. -/
def frameOf (p : Path Int) (payload : List UInt8) : List UInt8 :=
  match marshalFrame (p.frame false payload) with
  | .ok raw => raw
  | .error _ => []

/-- Another path between the two. -/
def spare : Path Int := { path with id := ascii "p2" }

/-- The Router of `o` with some paths. -/
def router (paths : List (Path Int)) : Router Int :=
  ⟨ascii "o", config paths, fun _ => none, fun _ => none⟩

/-- The Device is heard. -/
def before : List (Call Int) := [.handleMeshData (env 1000) (ascii "g") (frameOf path request)]

/-- A packet to the Device comes. -/
def after : List (Call Int) := [.handleTunPacket (env 1001) reply]

end Stale

/-- **A reply goes over a withdrawn path.** -/
theorem reply_follows_withdrawn_path :
    newRouter plainLibrary (ascii "o") (Stale.config [Stale.path]) =
      .ok (Stale.router [Stale.path]) ∧
    (Stale.config []).validate plainLibrary (ascii "o") = .ok () ∧
    (∀ call ∈ Stale.after, call.isUpdate = false) ∧
    ∃ s ∈ ((((Stale.router [Stale.path]).run plainLibrary Stale.before).1.updateConfig plainLibrary
      (Stale.config [])).1.run plainLibrary Stale.after).2, ¬ Follows (Stale.config []) s.2 := by
  have hsent : ((((Stale.router [Stale.path]).run plainLibrary Stale.before).1.updateConfig
    plainLibrary
      (Stale.config [])).1.run plainLibrary Stale.after).2 ≠ [] := by
    decide +kernel
  obtain ⟨s, hs⟩ := List.exists_mem_of_ne_nil _ hsent
  refine ⟨rfl, by decide +kernel, fun call hcall => ?_, s, hs, ?_⟩
  · rw [List.mem_singleton.mp hcall]
    rfl
  · rintro ⟨_, _, p, hp, _⟩
    cases hp

/-- The withdrawn path is one that no Device was heard over. -/
theorem withdrawn_paths_unused_kept :
    newRouter plainLibrary (ascii "o") (Stale.config [Stale.path, Stale.spare]) =
      .ok (Stale.router [Stale.path, Stale.spare]) ∧
    ∀ after : List (Call Int), (∀ call ∈ after, call.isUpdate = false) →
      ∀ s ∈ ((((Stale.router [Stale.path, Stale.spare]).run plainLibrary
        Stale.before).1.updateConfig plainLibrary (Stale.config [Stale.path])).1.run plainLibrary
          after).2, Follows (Stale.config [Stale.path]) s.2 := by
  have hnew : newRouter plainLibrary (ascii "o") (Stale.config [Stale.path, Stale.spare]) =
      .ok (Stale.router [Stale.path, Stale.spare]) := rfl
  refine ⟨hnew, (withdrawn_paths_unused_iff hnew Stale.before (by decide +kernel)).mpr
    fun _ device entry hentry _ => ?_⟩
  have hreverse : ((Stale.router [Stale.path, Stale.spare]).run plainLibrary Stale.before).1.reverse
      device = if device = 168296453 then some ⟨Stale.path, 1000 * second⟩ else none := by
    rfl
  rw [hreverse] at hentry
  split at hentry
  · cases hentry
    exact ⟨Stale.path, List.mem_singleton_self _, rfl, rfl, rfl⟩
  · cases hentry

end Bpc.Routed
