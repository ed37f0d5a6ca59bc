/-
  THE ROUTER — `router.go`: packets from the tunnel, frames from the mesh, new configurations.

  A Go map is a function to `Option`.  Every call is one step: what it sees is its `Environment`,
  what it does its `Outcome`.  `handleMeshData_cases` and `handleTunPacket_effect` say what a call
  can do.
-/
import Bpc.Routed.Frame

namespace Bpc.Routed

open Bpc.SlashPath (Str)

/-! ## State -/

/-- An instant. -/
abbrev Time := Int

/-- `time.Second`. -/
def second : Int := 1000000000

/-- `time.Time{}`. -/
def zeroTime : Time := -62135596800 * second

/-- `pathMinimumImprovement`. -/
def pathMinimumImprovement : Nat := 15

/-- `pathStableInterval`. -/
def pathStableInterval : Int := 5 * second

/-- `pathRecoveryCooldown`. -/
def pathRecoveryCooldown : Int := 10 * second

/-- `reversePathTTL`. -/
def reversePathTTL : Int := 600 * second

/-- `LinkStatus`. -/
structure LinkStatus (F : Type) where
  health : GoString
  rttMS : F
  lossPercent : F

/-- What a call sees; the mesh is asked, and the clock read, up to twice. -/
structure Environment (F : Type) where
  canSend : GoString → Bool
  linkStatus : GoString → Option (LinkStatus F)
  ready : GoString → Bool
  sendError : GoString → Option GoString
  writeError : Option GoString
  now : Time
  later : Time

/-- `pathAvailability`. -/
structure PathAvailability where
  viable : Bool
  recoveredAt : Time
  deriving DecidableEq

/-- `routeSelection`. -/
structure RouteSelection where
  availability : GoString → Option PathAvailability
  currentID : GoString
  lastSwitch : Time
  candidateID : GoString
  candidateSince : Time

/-- A new selection. -/
def RouteSelection.fresh : RouteSelection := ⟨fun _ => none, [], zeroTime, [], zeroTime⟩

/-- `reversePath`. -/
structure ReversePath (F : Type) where
  path : Path F
  lastSeen : Time

/-- `Router`. -/
structure Router (F : Type) where
  localNodeID : GoString
  config : RoutingConfig F
  selections : GoString → Option RouteSelection
  reverse : Nat → Option (ReversePath F)

/-- The frames sent, the packets written, and the error. -/
structure Outcome where
  sent : List (GoString × List UInt8) := []
  written : List (List UInt8) := []
  error : Option GoString := none

variable {F : Type} (L : GoLib F)

/-! ## Configurations -/

/-- `NewRouter`. -/
def newRouter (localNodeID : GoString) (config : RoutingConfig F) : Except GoString (Router F) :=
  if localNodeID = [] then
    .error (ascii "routed Router requires local Node, mesh and packet writer")
  else
    match config.validate L localNodeID with
    | .error e => .error e
    | .ok () => .ok ⟨localNodeID, config, fun _ => none, fun _ => none⟩

/-- Is the id that of a path of the configuration? -/
def RoutingConfig.hasPath (c : RoutingConfig F) (id : GoString) : Bool :=
  (c.paths ++ c.transitPaths).any fun path => path.id = id

/-- What `UpdateConfig` keeps of a selection. -/
def RouteSelection.prune (state : RouteSelection) (config : RoutingConfig F) :
    Option RouteSelection :=
  let state := { state with
    availability := fun id => if config.hasPath id then state.availability id else none }
  if state.currentID = [] then some state
  else if config.hasPath state.currentID then some state
  else none

/-- `UpdateConfig`.  The reverse paths are not looked at. -/
def Router.updateConfig (r : Router F) (config : RoutingConfig F) : Router F × Outcome :=
  match config.validate L r.localNodeID with
  | .error e => (r, { error := some e })
  | .ok () =>
    ({ r with
        config := config
        selections := fun key => (r.selections key).bind fun state => state.prune config }, {})

/-! ## The choice of a path -/

/-- `routeKey`. -/
def routeKey (route : Route) : GoString := route.ownerNodeID ++ ascii "|" ++ route.cidr

/-- `pathScore`. -/
def pathScore (path : Path F) (status : Option (LinkStatus F)) : F :=
  let uncertain (health : GoString) : Bool := health = ascii "degraded" || health = ascii "unknown"
  let base :=
    if L.eq path.score (L.ofNat 0) then
      let sum := L.add (L.add path.cost path.rttMS) (L.mul path.lossPercent (L.ofNat 10))
      if uncertain path.health then L.add sum (L.ofNat 1000) else sum
    else path.score
  match status with
  | none => base
  | some s =>
    let sum := L.add base (L.add s.rttMS (L.mul s.lossPercent (L.ofNat 10)))
    if uncertain s.health then L.add sum (L.ofNat 100) else sum

/-- `viablePath`. -/
def Router.viablePath (r : Router F) (env : Environment F) (path : Path F) : Option F :=
  match path.hops with
  | source :: first :: _ =>
    if source ≠ r.localNodeID ∨ path.health = ascii "failed" then none
    else if ¬ env.canSend first then none
    else
      match env.linkStatus first with
      | some status =>
        if status.health = ascii "failed" then none else some (pathScore L path (some status))
      | none => some (pathScore L path none)
  | _ => none

/-- The loop over the paths: availability and scores. -/
def Router.observe (r : Router F) (env : Environment F) (now : Time) :
    List (Path F) → (GoString → Option PathAvailability) →
      (GoString → Option PathAvailability) × List (Path F × F)
  | [], availability => (availability, [])
  | path :: paths, availability =>
    let score := r.viablePath L env path
    let recoveredAt :=
      match availability path.id with
      | some prior => if score.isSome ∧ ¬ prior.viable then now else prior.recoveredAt
      | none => zeroTime
    let availability' := fun id =>
      if id = path.id then some ⟨score.isSome, recoveredAt⟩ else availability id
    let (final, candidates) := r.observe env now paths availability'
    (final, (score.map fun s => (path, s)).toList ++ candidates)

/-- The loop over the known ids. -/
def markUnobserved (paths : List (Path F)) (availability : GoString → Option PathAvailability) :
    GoString → Option PathAvailability :=
  fun id => (availability id).map fun prior =>
    if paths.any fun path => path.id = id then prior else { prior with viable := false }

/-- Does the best path still have to prove itself? -/
def RouteSelection.waiting (state : RouteSelection) (best : GoString) (now : Time) : Bool :=
  let recoveredAt := ((state.availability best).map (·.recoveredAt)).getD zeroTime
  (recoveredAt ≠ zeroTime && now - recoveredAt < pathRecoveryCooldown) ||
    now - state.candidateSince < pathStableInterval

/-- `choosePath`. -/
def Router.choosePath (r : Router F) (env : Environment F) (route : Route) (paths : List (Path F))
    (now : Time) : Router F × Except GoString (Path F) :=
  let before := (r.selections (routeKey route)).getD .fresh
  let (availability, candidates) := r.observe L env now paths before.availability
  let state := { before with availability := markUnobserved paths availability }
  let put (s : RouteSelection) : Router F :=
    { r with selections := fun key => if key = routeKey route then some s else r.selections key }
  let settled := { state with candidateID := [], candidateSince := zeroTime }
  match L.sortSlice (fun a b =>
      if L.eq a.2 b.2 then decide (a.1.id < b.1.id) else L.lt a.2 b.2) candidates with
  | [] => (put settled, .error (ascii "no healthy end-to-end path to owner " ++ route.ownerNodeID))
  | best :: rest =>
    let switched := { settled with currentID := best.1.id, lastSwitch := now }
    match (best :: rest).find? fun candidate => candidate.1.id = state.currentID with
    | none => (put switched, .ok best.1)
    | some current =>
      if best.1.id = current.1.id then (put settled, .ok current.1)
      -- recovery is deliberately sticky
      else if now - state.lastSwitch < pathRecoveryCooldown then (put state, .ok current.1)
      else if L.lt (L.sub current.2 best.2) (L.ofNat pathMinimumImprovement) then
        (put settled, .ok current.1)
      else if state.candidateID ≠ best.1.id then
        (put { state with candidateID := best.1.id, candidateSince := now }, .ok current.1)
      else if state.waiting best.1.id now then (put state, .ok current.1)
      else (put switched, .ok best.1)

/-! ## Reverse paths -/

/-- `rememberReverse`. -/
def Router.rememberReverse (r : Router F) (device : Nat) (path : Path F) (now : Time) : Router F :=
  { r with
    reverse := fun key =>
      if key = device then some ⟨path, now⟩
      else (r.reverse key).filter fun entry => now - entry.lastSeen ≤ reversePathTTL }

/-- `reverseFor`. -/
def Router.reverseFor (r : Router F) (device : Nat) (now : Time) : Router F × Option (Path F) :=
  match (r.reverse device).filter fun entry => now - entry.lastSeen ≤ reversePathTTL with
  | none => ({ r with reverse := fun key => if key = device then none else r.reverse key }, none)
  | some entry =>
    ({ r with
        reverse := fun key => if key = device then some ⟨entry.path, now⟩ else r.reverse key },
      some entry.path)

/-! ## Packets and frames -/

/-- `sendFrame`. -/
def sendFrame (env : Environment F) (frame : Frame) : Outcome :=
  if frame.hopIndex = 0 ∨ frame.hops.length ≤ frame.hopIndex then
    { error := some (ascii "cannot send frame with invalid next hop index") }
  else
    let next := (frame.hops[frame.hopIndex]?).getD []
    if ¬ env.ready next then
      { error := some (ascii "next hop " ++ next ++ ascii " is unhealthy") }
    else
      match marshalFrame frame with
      | .error e => { error := some e }
      | .ok raw => { sent := [(next, raw)], error := env.sendError next }

/-- `WritePacket`. -/
def writePacket (env : Environment F) (packet : List UInt8) : Outcome :=
  { written := [packet], error := env.writeError }

/-- `netip.Addr.String`. -/
def addrText (addr : Nat) : GoString :=
  decimal (addr / 2 ^ 24 : Nat) ++ ascii "." ++ decimal (addr / 2 ^ 16 % 256 : Nat) ++ ascii "." ++
    decimal (addr / 2 ^ 8 % 256 : Nat) ++ ascii "." ++ decimal (addr % 256 : Nat)

/-- The error after the policy ends. -/
def policyExpired : GoString := ascii "routed Controller policy expired; traffic denied"

/-- The return branch of `HandleTunPacket`. -/
def Router.returnPacket (r : Router F) (env : Environment F) (destination : Nat)
    (packet : List UInt8) : Router F × Outcome :=
  match r.reverseFor destination env.now with
  | (r', none) =>
    (r', { error := some (ascii "no reverse path learned for Device " ++ addrText destination) })
  | (r', some forward) =>
    let hops := forward.hops.reverse
    if hops.length < 2 ∨ hops.head? ≠ some r.localNodeID then
      (r', { error := some (ascii "invalid learned reverse path") })
    else (r', sendFrame env ⟨forward.id, r.localNodeID, hops, 1, true, packet⟩)

/-- The forward branch of `HandleTunPacket`. -/
def Router.forwardPacket (r : Router F) (env : Environment F) (destination : Nat)
    (packet : List UInt8) : Router F × Outcome :=
  match r.config.routeFor L destination with
  | none =>
    (r, { error := some (ascii "destination " ++ addrText destination ++
      ascii " is not a BPC-owned site route") })
  | some route =>
    match r.choosePath L env route (r.config.sourcePaths L r.localNodeID route) env.now with
    | (r', .error e) => (r', { error := some e })
    | (r', .ok path) =>
      (r', sendFrame env ⟨path.id, route.ownerNodeID, path.hops, 1, false, packet⟩)

/-- `HandleTunPacket`. -/
def Router.handleTunPacket (r : Router F) (env : Environment F) (packet : List UInt8) :
    Router F × Outcome :=
  match parseIPv4Endpoints packet with
  | .error e => (r, { error := some e })
  | .ok (_, destination) =>
    if ¬ r.config.policyValid (env.now / second) then (r, { error := some policyExpired })
    else if r.config.localSiteRouter ∧ r.config.inOverlay destination then
      r.returnPacket env destination packet
    else r.forwardPacket L env destination packet

/-- `HandleMeshData`. -/
def Router.handleMeshData (r : Router F) (env : Environment F) (peerID : GoString)
    (raw : List UInt8) : Router F × Outcome :=
  match unmarshalFrame raw with
  | .error e => (r, { error := some e })
  | .ok frame =>
    if ¬ r.config.policyValid (env.now / second) then (r, { error := some policyExpired })
    else
      match validateFrameForNode L frame r.localNodeID peerID r.config with
      | .error e => (r, { error := some e })
      | .ok path =>
        if frame.hopIndex = frame.hops.length - 1 then
          if frame.isReturn then (r, writePacket env frame.payload)
          else
            match parseIPv4Endpoints frame.payload with
            | .error e => (r, { error := some e })
            | .ok (source, _) =>
              (r.rememberReverse source path env.later, writePacket env frame.payload)
        else (r, sendFrame env { frame with hopIndex := frame.hopIndex + 1 })

/-! ## What a call does -/

variable {L}

theorem updateConfig_same (r : Router F) (config : RoutingConfig F) :
    (r.updateConfig L config).1.localNodeID = r.localNodeID ∧
      (r.updateConfig L config).1.reverse = r.reverse := by
  unfold Router.updateConfig
  split <;> exact ⟨rfl, rfl⟩

variable {r : Router F}

theorem updateConfig_accepted {config : RoutingConfig F}
    (h : config.validate L r.localNodeID = .ok ()) :
    (r.updateConfig L config).1.config = config := by
  unfold Router.updateConfig
  rw [h]

theorem sendFrame_written (env : Environment F) (frame : Frame) :
    (sendFrame env frame).written = [] := by
  unfold sendFrame
  split
  · rfl
  dsimp only
  split
  · rfl
  split <;> rfl

variable {env : Environment F} {peer : GoString} {raw : List UInt8}

/-- **What `sendFrame` sends**: the frame, to the hop at its index. -/
theorem sendFrame_sent {frame : Frame} (h : (peer, raw) ∈ (sendFrame env frame).sent) :
    frame.hops[frame.hopIndex]? = some peer ∧ marshalFrame frame = .ok raw ∧
      (sendFrame env frame).sent = [(peer, raw)] := by
  unfold sendFrame at h ⊢
  split at h
  · cases h
  rename_i hindex
  dsimp only at h
  split at h
  · cases h
  rename_i hready
  split at h
  · cases h
  rename_i bytes hbytes
  obtain ⟨rfl, rfl⟩ := Prod.mk.inj (List.mem_singleton.mp h)
  have hlt : frame.hopIndex < frame.hops.length := by omega
  refine ⟨?_, hbytes, ?_⟩
  · rw [List.getElem?_eq_getElem hlt]
    rfl
  · rw [if_neg hindex]
    dsimp only
    rw [if_neg hready]

/-- **A checked frame whose next hop is ready is sent.** -/
theorem sendFrame_ready (env : Environment F) {frame : Frame} {next : GoString}
    (hbasic : frame.Basic) (hnext : frame.hops[frame.hopIndex]? = some next)
    (hready : env.ready next = true) : ∃ raw, marshalFrame frame = .ok raw ∧
      sendFrame env frame = { sent := [(next, raw)], error := env.sendError next } := by
  have hindex := hbasic.index
  have hmarshal : ∃ raw, marshalFrame frame = .ok raw := by
    unfold marshalFrame
    rw [Frame.validateBasic_iff.mpr hbasic]
    exact ⟨_, rfl⟩
  obtain ⟨raw, hraw⟩ := hmarshal
  refine ⟨raw, hraw, ?_⟩
  unfold sendFrame
  rw [if_neg (by omega), hnext]
  show (if ¬ env.ready next = true then _ else _) = _
  rw [if_neg (not_not.mpr hready), hraw]
  rfl

theorem mem_observe {now : Time} {paths : List (Path F)}
    {availability : GoString → Option PathAvailability} {candidate : Path F × F}
    (h : candidate ∈ (r.observe L env now paths availability).2) : candidate.1 ∈ paths := by
  induction paths generalizing availability with
  | nil => cases h
  | cons path paths ih =>
    rw [Router.observe] at h
    dsimp only at h
    rcases List.mem_append.mp h with h | h
    · obtain ⟨s, _, rfl⟩ := Option.map_eq_some_iff.mp (Option.mem_toList.mp h)
      exact List.mem_cons_self
    · exact List.mem_cons_of_mem _ (ih h)

/-- Configuration and reverse paths are left alone. -/
def SameRoutes (r r' : Router F) : Prop :=
  r'.localNodeID = r.localNodeID ∧ r'.config = r.config ∧ r'.reverse = r.reverse

/-- **A chosen path is one of those it was chosen from.** -/
theorem choosePath_spec (r : Router F) (env : Environment F) (route : Route) (paths : List (Path F))
    (now : Time) : SameRoutes r (r.choosePath L env route paths now).1 ∧
      ∀ p, (r.choosePath L env route paths now).2 = .ok p → p ∈ paths := by
  have hmem : ∀ (less : Path F × F → Path F × F → Bool) candidate,
      candidate ∈ L.sortSlice less (r.observe L env now paths
        ((r.selections (routeKey route)).getD .fresh).availability).2 → candidate.1 ∈ paths :=
    fun less candidate h => mem_observe ((L.sortSlice_perm less _).mem_iff.mp h)
  unfold Router.choosePath
  dsimp only
  split
  · exact ⟨⟨rfl, rfl, rfl⟩, fun p hp => by cases hp⟩
  rename_i best rest hsorted
  have hbest : best.1 ∈ paths := hmem _ best (hsorted ▸ List.mem_cons_self)
  have hok : ∀ {q p : Path F}, q ∈ paths → (Except.ok q : Except GoString (Path F)) = .ok p →
      p ∈ paths := fun hq heq => Except.ok.inj heq ▸ hq
  split
  · exact ⟨⟨rfl, rfl, rfl⟩, fun p => hok hbest⟩
  rename_i current hcurrent
  have hcurrent : current.1 ∈ paths := hmem _ current (hsorted ▸ List.mem_of_find?_eq_some hcurrent)
  split
  · exact ⟨⟨rfl, rfl, rfl⟩, fun p => hok hcurrent⟩
  split
  · exact ⟨⟨rfl, rfl, rfl⟩, fun p => hok hcurrent⟩
  split
  · exact ⟨⟨rfl, rfl, rfl⟩, fun p => hok hcurrent⟩
  split
  · exact ⟨⟨rfl, rfl, rfl⟩, fun p => hok hcurrent⟩
  split
  · exact ⟨⟨rfl, rfl, rfl⟩, fun p => hok hcurrent⟩
  · exact ⟨⟨rfl, rfl, rfl⟩, fun p => hok hbest⟩

theorem mem_sourcePaths {c : RoutingConfig F} {localNodeID : GoString} {route : Route} {p : Path F}
    (h : p ∈ c.sourcePaths L localNodeID route) :
    p ∈ c.paths ∧ p.hops.head? = some localNodeID ∧ p.ownerNodeID = route.ownerNodeID ∧
      p.cidr = route.cidr := by
  have hmem := (L.sortSlice_perm _ _).mem_iff.mp h
  rw [List.mem_filter] at hmem
  simp only [Bool.and_eq_true, decide_eq_true_eq] at hmem
  exact ⟨hmem.1, hmem.2.1.1.2, hmem.2.1.2, hmem.2.2⟩

/-- **What `HandleMeshData` can do**: nothing, write the packet, or send the frame on. -/
theorem handleMeshData_cases (r : Router F) (env : Environment F) (peerID : GoString)
    (raw : List UInt8) :
    ((r.handleMeshData L env peerID raw).1 = r ∧ (r.handleMeshData L env peerID raw).2.sent = [] ∧
      (r.handleMeshData L env peerID raw).2.written = []) ∨
    ∃ frame path, unmarshalFrame raw = .ok frame ∧
      r.config.policyValid (env.now / second) = true ∧
      Accepted L r.config r.localNodeID peerID frame path ∧
      ((frame.hopIndex + 1 = frame.hops.length ∧
        (r.handleMeshData L env peerID raw).2 = writePacket env frame.payload ∧
        ((frame.isReturn = true ∧ (r.handleMeshData L env peerID raw).1 = r) ∨
         (frame.isReturn = false ∧ ∃ source destination,
          parseIPv4Endpoints frame.payload = .ok (source, destination) ∧
          (r.handleMeshData L env peerID raw).1 = r.rememberReverse source path env.later))) ∨
       (frame.hopIndex + 1 < frame.hops.length ∧ r.handleMeshData L env peerID raw =
        (r, sendFrame env { frame with hopIndex := frame.hopIndex + 1 }))) := by
  unfold Router.handleMeshData
  split
  · exact .inl ⟨rfl, rfl, rfl⟩
  rename_i frame hframe
  split
  · exact .inl ⟨rfl, rfl, rfl⟩
  rename_i hvalid
  split
  · exact .inl ⟨rfl, rfl, rfl⟩
  rename_i path hpath
  have haccepted := (validateFrameForNode_iff L).mp hpath
  have hindex := haccepted.basic.index
  right
  refine ⟨frame, path, hframe, not_not.mp hvalid, haccepted, ?_⟩
  split
  · rename_i hlast
    left
    refine ⟨by omega, ?_⟩
    split
    · rename_i hreturn
      exact ⟨rfl, .inl ⟨hreturn, rfl⟩⟩
    · rename_i hreturn
      obtain ⟨source, destination, hparse, _⟩ := haccepted.packet
      rw [hparse]
      exact ⟨rfl, .inr ⟨by simpa using hreturn, source, destination, rfl, rfl⟩⟩
  · right
    exact ⟨by omega, rfl⟩

/-- What the second router remembers, the first does. -/
def Remembers (r r' : Router F) : Prop :=
  ∀ device entry', r'.reverse device = some entry' →
    ∃ entry, r.reverse device = some entry ∧ entry.path = entry'.path

theorem reverseFor_spec (r : Router F) (device : Nat) (now : Time) :
    (r.reverseFor device now).1.localNodeID = r.localNodeID ∧
    (r.reverseFor device now).1.config = r.config ∧ Remembers r (r.reverseFor device now).1 ∧
    ∀ p, (r.reverseFor device now).2 = some p →
      ∃ entry, r.reverse device = some entry ∧ entry.path = p := by
  unfold Router.reverseFor
  split
  · refine ⟨rfl, rfl, fun key entry' h => ?_, fun p hp => by cases hp⟩
    dsimp only at h
    split at h
    · cases h
    · exact ⟨entry', h, rfl⟩
  · rename_i entry hfound
    have hentry : r.reverse device = some entry := (Option.filter_eq_some_iff.mp hfound).1
    refine ⟨rfl, rfl, fun key entry' h => ?_, fun p hp => ⟨entry, hentry, Option.some.inj hp⟩⟩
    dsimp only at h
    split at h
    · rename_i hkey
      obtain rfl := Option.some.inj h
      exact ⟨entry, hkey ▸ hentry, rfl⟩
    · exact ⟨entry', h, rfl⟩

/-- Forward, or back over a remembered path. -/
def Path.frame (p : Path F) (isReturn : Bool) (packet : List UInt8) : Frame :=
  ⟨p.id, p.ownerNodeID, directed isReturn p.hops, 1, isReturn, packet⟩

/-- What a call of `HandleTunPacket` can do. -/
structure TunEffect (r r' : Router F) (packet : List UInt8) (out : Outcome) : Prop where
  same : r'.localNodeID = r.localNodeID ∧ r'.config = r.config
  remembers : Remembers r r'
  written : out.written = []
  sent : ∀ peer raw, (peer, raw) ∈ out.sent →
    (∃ path ∈ r.config.paths, marshalFrame (path.frame false packet) = .ok raw) ∨
    ∃ source device entry, parseIPv4Endpoints packet = .ok (source, device) ∧
      r.config.localSiteRouter = true ∧ r.config.inOverlay device = true ∧
      r.reverse device = some entry ∧
      marshalFrame { entry.path.frame true packet with ownerNodeID := r.localNodeID } = .ok raw

theorem TunEffect.idle (r : Router F) (packet : List UInt8) (e : GoString) :
    TunEffect r r packet { error := some e } where
  same := ⟨rfl, rfl⟩
  remembers := fun _ entry' h => ⟨entry', h, rfl⟩
  written := rfl
  sent := fun _ _ h => by cases h

variable {destination : Nat} {packet : List UInt8}

theorem returnPacket_effect (r : Router F) (env : Environment F) {source : Nat}
    (hparse : parseIPv4Endpoints packet = .ok (source, destination))
    (hsite : r.config.localSiteRouter = true) (hoverlay : r.config.inOverlay destination = true) :
    TunEffect r (r.returnPacket env destination packet).1 packet
      (r.returnPacket env destination packet).2 := by
  obtain ⟨hlocal, hconfig, hremembers, hfound⟩ := reverseFor_spec r destination env.now
  unfold Router.returnPacket
  split
  · rename_i r' hreverse
    rw [hreverse] at hlocal hconfig hremembers
    exact ⟨⟨hlocal, hconfig⟩, hremembers, rfl, fun _ _ h => by cases h⟩
  rename_i r' forward hreverse
  rw [hreverse] at hlocal hconfig hremembers hfound
  dsimp only
  split
  · exact ⟨⟨hlocal, hconfig⟩, hremembers, rfl, fun _ _ h => by cases h⟩
  refine ⟨⟨hlocal, hconfig⟩, hremembers, sendFrame_written env _, fun peer raw h => .inr ?_⟩
  obtain ⟨entry, hentry, hpath⟩ := hfound forward rfl
  refine ⟨source, destination, entry, hparse, hsite, hoverlay, hentry, ?_⟩
  rw [hpath]
  exact (sendFrame_sent h).2.1

/-- **A Device heard of within ten minutes gets its packet sent back.** -/
theorem returnPacket_sends {entry : ReversePath F} (packet : List UInt8)
    (hentry : r.reverse destination = some entry)
    (hlive : env.now - entry.lastSeen ≤ reversePathTTL) (htwo : 2 ≤ entry.path.hops.length)
    (hlast : entry.path.hops.getLast? = some r.localNodeID) :
    (r.returnPacket env destination packet).2 =
      sendFrame env { entry.path.frame true packet with ownerNodeID := r.localNodeID } := by
  have hfound : (r.reverse destination).filter
      (fun entry => decide (env.now - entry.lastSeen ≤ reversePathTTL)) = some entry := by
    rw [hentry]
    exact Option.filter_eq_some_iff.mpr ⟨rfl, decide_eq_true hlive⟩
  have hhead : entry.path.hops.reverse.head? = some r.localNodeID := by
    rw [List.head?_reverse, hlast]
  unfold Router.returnPacket Router.reverseFor
  rw [hfound]
  dsimp only
  rw [if_neg]
  · rfl
  · rw [List.length_reverse, hhead]
    simp only [ne_eq, not_true_eq_false, or_false]
    omega

theorem forwardPacket_effect (r : Router F) (env : Environment F) (destination : Nat)
    (packet : List UInt8) : TunEffect r (r.forwardPacket L env destination packet).1 packet
      (r.forwardPacket L env destination packet).2 := by
  unfold Router.forwardPacket
  split
  · exact .idle r packet _
  rename_i route _
  obtain ⟨⟨hlocal, hconfig, hreverse⟩, hchosen⟩ := choosePath_spec (L := L) r env route
    (r.config.sourcePaths L r.localNodeID route) env.now
  have hkeeps : Remembers r (r.choosePath L env route
      (r.config.sourcePaths L r.localNodeID route) env.now).1 :=
    fun key entry' h => ⟨entry', hreverse ▸ h, rfl⟩
  split
  · rename_i r' e hchoose
    rw [hchoose] at hlocal hconfig hkeeps
    exact ⟨⟨hlocal, hconfig⟩, hkeeps, rfl, fun _ _ h => by cases h⟩
  rename_i r' path hchoose
  rw [hchoose] at hlocal hconfig hkeeps hchosen
  refine ⟨⟨hlocal, hconfig⟩, hkeeps, sendFrame_written env _, fun peer raw h => .inl ?_⟩
  obtain ⟨hpath, _, howner, _⟩ := mem_sourcePaths (hchosen path rfl)
  refine ⟨path, hpath, ?_⟩
  show marshalFrame ⟨path.id, path.ownerNodeID, path.hops, 1, false, packet⟩ = _
  rw [howner]
  exact (sendFrame_sent h).2.1

theorem handleTunPacket_effect (r : Router F) (env : Environment F) (packet : List UInt8) :
    TunEffect r (r.handleTunPacket L env packet).1 packet (r.handleTunPacket L env packet).2 := by
  unfold Router.handleTunPacket
  split
  · exact .idle r packet _
  rename_i source destination hparse
  split
  · exact .idle r packet _
  split
  · rename_i hreturn
    exact returnPacket_effect r env hparse hreturn.1 hreturn.2
  · exact forwardPacket_effect r env destination packet

theorem sendFrame_isReady {frame : Frame} (h : (peer, raw) ∈ (sendFrame env frame).sent) :
    env.ready peer = true := by
  have hnext := (sendFrame_sent h).1
  unfold sendFrame at h
  split at h
  · cases h
  rw [hnext] at h
  dsimp only [Option.getD_some] at h
  by_contra hready
  rw [if_pos hready] at h
  cases h

theorem returnPacket_sent (h : (peer, raw) ∈ (r.returnPacket env destination packet).2.sent) :
    ∃ frame : Frame, frame.isReturn = true ∧ marshalFrame frame = .ok raw := by
  unfold Router.returnPacket at h
  split at h
  · cases h
  dsimp only at h
  split at h
  · cases h
  · exact ⟨_, rfl, (sendFrame_sent h).2.1⟩

/-- **A forward frame leaves a Node as its first hop.** -/
theorem handleTunPacket_forward {frame : Frame}
    (h : (peer, raw) ∈ (r.handleTunPacket L env packet).2.sent)
    (hraw : marshalFrame frame = .ok raw) (hforward : frame.isReturn = false) :
    frame.hops[1]? = some peer ∧ frame.hops.head? = some r.localNodeID ∧ env.ready peer = true := by
  have hsame : ∀ {other : Frame}, marshalFrame other = .ok raw → other = frame := fun hother =>
    Except.ok.inj ((unmarshalFrame_marshal hother).symm.trans (unmarshalFrame_marshal hraw))
  unfold Router.handleTunPacket at h
  split at h
  · cases h
  split at h
  · cases h
  split at h
  · obtain ⟨other, hreturn, hother⟩ := returnPacket_sent h
    rw [hsame hother, hforward] at hreturn
    cases hreturn
  unfold Router.forwardPacket at h
  split at h
  · cases h
  rename_i route _
  split at h
  · cases h
  rename_i r' path hchosen
  have hmem : path ∈ r.config.sourcePaths L r.localNodeID route :=
    (choosePath_spec r env route _ env.now).2 path (congrArg Prod.snd hchosen)
  obtain ⟨hnext, hmarshal, _⟩ := sendFrame_sent h
  have hready := sendFrame_isReady h
  obtain rfl := hsame hmarshal
  exact ⟨hnext, (mem_sourcePaths hmem).2.1, hready⟩

end Bpc.Routed
