/-
  CARRIAGE — a frame that every hop accepts visits the hops in order, and the last one writes it,
  once (`Network.carry`).
-/
import Bpc.Routed.Network

namespace Bpc.Routed

variable {F : Type} {L : GoLib F}

/-! ## What is seen of a frame -/

/-- Neighbours of a list. -/
def pairs {α : Type} (l : List α) : List (α × α) := l.zip l.tail

/-- Who transmitted to whom. -/
def hopsOf (seen : List Occurrence) : List (GoString × GoString) :=
  seen.filterMap fun o =>
    match o with
    | .transmitted t => some (t.sender, t.receiver)
    | .wrote _ _ => none

/-- Who wrote what. -/
def writesOf (seen : List Occurrence) : List (GoString × List UInt8) :=
  seen.filterMap fun o =>
    match o with
    | .transmitted _ => none
    | .wrote node packet => some (node, packet)

/-- Over these hops, each once, and the last one writes, once. -/
structure Carries (hops : List GoString) (packet : List UInt8) (seen : List Occurrence) : Prop where
  visits : hopsOf seen = pairs hops
  writes : writesOf seen = (hops.getLast?.map fun node => (node, packet)).toList

/-! ## Healthy meshes -/

/-- A mesh without faults. -/
structure Healthy (env : Environment F) : Prop where
  canSend : ∀ peer, env.canSend peer = true
  ready : ∀ peer, env.ready peer = true
  sends : ∀ peer, env.sendError peer = none
  writes : env.writeError = none

/-- Every Node has its id and its configuration. -/
def Holds (net : Network F) (configs : GoString → RoutingConfig F) : Prop :=
  ∀ node, (net.routers node).localNodeID = node ∧ (net.routers node).config = configs node

theorem handleMeshData_same (r : Router F) (env : Environment F) (peerID : GoString)
    (raw : List UInt8) : (r.handleMeshData L env peerID raw).1.localNodeID = r.localNodeID ∧
      (r.handleMeshData L env peerID raw).1.config = r.config := by
  rcases handleMeshData_cases (L := L) r env peerID raw with ⟨hidle, _, _⟩ |
    ⟨_, _, _, _, _, ⟨_, _, hreturn | ⟨_, _, _, _, hforward⟩⟩ | ⟨_, hsend⟩⟩
  · rw [hidle]
    exact ⟨rfl, rfl⟩
  · rw [hreturn.2]
    exact ⟨rfl, rfl⟩
  · rw [hforward]
    exact ⟨rfl, rfl⟩
  · rw [hsend]
    exact ⟨rfl, rfl⟩

variable {net : Network F} {configs : GoString → RoutingConfig F} {result : Router F × Outcome}

theorem Holds.after (h : Holds net configs) {inFlight : List Transit} {node : GoString}
    {marked : Bool} (hlocal : result.1.localNodeID = (net.routers node).localNodeID)
    (hconfig : result.1.config = (net.routers node).config) :
    Holds (Network.after { net with inFlight := inFlight } node marked result).1 configs := by
  intro other
  show (if other = node then result.1 else net.routers other).localNodeID = other ∧
    (if other = node then result.1 else net.routers other).config = configs other
  by_cases hother : other = node
  · rw [if_pos hother, hlocal, hconfig, hother]
    exact h node
  · rw [if_neg hother]
    exact h other

theorem Holds.step (h : Holds net configs) (i : Nat) (env : Environment F) :
    Holds (net.step L (.deliver i env)).1 configs := by
  cases hnext : net.inFlight[i]? with
  | none => rwa [Network.step_idle hnext]
  | some t =>
    rw [Network.step_deliver hnext]
    obtain ⟨hlocal, hconfig⟩ := handleMeshData_same (L := L)
      (net.routers t.receiver) env t.sender t.raw
    exact h.after hlocal hconfig

/-! ## One delivery -/

theorem after_write (net : Network F) (node : GoString) (marked : Bool) {env : Environment F}
    {packet : List UInt8} (h : result.2 = writePacket env packet) : net.after node marked result =
      (⟨fun other => if other = node then result.1 else net.routers other, net.inFlight⟩,
        [.wrote node packet]) := by
  show (_, _) = _
  unfold Outcome.transits
  rw [h]
  show ((⟨_, net.inFlight ++ []⟩ : Network F), _) = _
  rw [List.append_nil]
  rfl

variable {raw : List UInt8}

theorem after_send (net : Network F) (node : GoString) (marked : Bool) {next : GoString}
    {error : Option GoString} (h : result.2 = { sent := [(next, raw)], error := error }) :
    net.after node marked result =
      (⟨fun other => if other = node then result.1 else net.routers other,
          net.inFlight ++ [⟨node, next, raw, marked⟩]⟩,
        [.transmitted ⟨node, next, raw, marked⟩]) := by
  show (_, _) = _
  unfold Outcome.transits
  rw [h]
  rfl

variable {t : Transit}

theorem step_single (h : net.inFlight = [t]) (env : Environment F) :
    net.step L (.deliver 0 env) =
      Network.after { net with inFlight := [] } t.receiver t.marked
        ((net.routers t.receiver).handleMeshData L env t.sender t.raw) := by
  rw [Network.step_deliver (by rw [h]; rfl), h]
  rfl

variable {frame : Frame}

theorem handleMeshData_accepted {r : Router F} (env : Environment F) {peerID : GoString}
    {path : Path F} (hread : unmarshalFrame raw = .ok frame)
    (hpolicy : r.config.policyValid (env.now / second) = true)
    (haccepted : Accepted L r.config r.localNodeID peerID frame path) :
    (r.handleMeshData L env peerID raw).2 =
      if frame.hopIndex = frame.hops.length - 1 then writePacket env frame.payload
      else sendFrame env { frame with hopIndex := frame.hopIndex + 1 } := by
  obtain ⟨source, destination, hparse, _⟩ := haccepted.packet
  unfold Router.handleMeshData
  rw [hread]
  dsimp only
  rw [if_neg (not_not.mpr hpolicy), (validateFrameForNode_iff L).mpr haccepted]
  dsimp only
  by_cases hlast : frame.hopIndex = frame.hops.length - 1
  · rw [if_pos hlast, if_pos hlast, hparse]
    split <;> rfl
  · rw [if_neg hlast, if_neg hlast]

theorem handleMeshData_rejected {r : Router F} (env : Environment F) {peerID : GoString}
    (hread : unmarshalFrame raw = .ok frame)
    (hrejected : ∀ path, ¬ Accepted L r.config r.localNodeID peerID frame path) :
    (r.handleMeshData L env peerID raw).2.sent = [] ∧
      (r.handleMeshData L env peerID raw).2.written = [] := by
  rcases handleMeshData_cases (L := L) r env peerID raw with ⟨_, hsent, hwritten⟩ |
    ⟨frame', path, hread', _, haccepted, _⟩
  · exact ⟨hsent, hwritten⟩
  · obtain rfl := Except.ok.inj (hread.symm.trans hread')
    exact absurd haccepted (hrejected path)

theorem run_idle (h : net.inFlight = []) (envs : List (Environment F)) :
    net.run L (envs.map (.deliver 0)) = (net, []) := by
  induction envs with
  | nil => rfl
  | cons env envs ih =>
    have hstep : net.step L (.deliver 0 env) = (net, []) := Network.step_idle (by rw [h]; rfl) env
    rw [List.map_cons, Network.run, hstep]
    dsimp only
    rw [ih]
    rfl

theorem run_silent (hflight : net.inFlight = [t]) {env : Environment F}
    (envs : List (Environment F))
    (hsent : ((net.routers t.receiver).handleMeshData L env t.sender t.raw).2.sent = [])
    (hwritten : ((net.routers t.receiver).handleMeshData L env t.sender t.raw).2.written = []) :
    (net.run L ((env :: envs).map (.deliver 0))).2 = [] := by
  have hstep := step_single (L := L) hflight env
  have hseen : (net.step L (.deliver 0 env)).2 = [] := by
    rw [hstep]
    show _ ++ _ = []
    unfold Outcome.transits
    rw [hsent, hwritten]
    rfl
  have hempty : (net.step L (.deliver 0 env)).1.inFlight = [] := by
    rw [hstep]
    show [] ++ _ = []
    unfold Outcome.transits
    rw [hsent]
    rfl
  show (net.step L (.deliver 0 env)).2 ++
    ((net.step L (.deliver 0 env)).1.run L (envs.map (.deliver 0))).2 = []
  rw [run_idle hempty, hseen]
  rfl

theorem run_rejected (hflight : net.inFlight = [t]) (hread : unmarshalFrame t.raw = .ok frame)
    (hrejected : ∀ path, ¬ Accepted L (net.routers t.receiver).config
      (net.routers t.receiver).localNodeID t.sender frame path) (envs : List (Environment F)) :
    (net.run L (envs.map (.deliver 0))).2 = [] := by
  cases envs with
  | nil => rfl
  | cons env envs =>
    obtain ⟨hsent, hwritten⟩ := handleMeshData_rejected env hread hrejected
    exact run_silent hflight envs hsent hwritten

/-! ## All deliveries -/

/-- **A frame that every hop accepts reaches the last one.** -/
theorem Network.carry {envs : List (Environment F)} {sender receiver : GoString} {marked : Bool}
    (hholds : Holds net configs) (hraw : marshalFrame frame = .ok raw)
    (hflight : net.inFlight = [⟨sender, receiver, raw, marked⟩])
    (hsender : frame.hops[frame.hopIndex - 1]? = some sender)
    (hreceiver : frame.hops[frame.hopIndex]? = some receiver)
    (haccepted : ∀ j peer node, frame.hopIndex ≤ j → frame.hops[j - 1]? = some peer →
      frame.hops[j]? = some node →
      ∃ path, Accepted L (configs node) node peer { frame with hopIndex := j } path)
    (henough : frame.hops.length - frame.hopIndex ≤ envs.length)
    (hpolicies : ∀ env ∈ envs, ∀ node ∈ frame.hops,
      (configs node).policyValid (env.now / second) = true)
    (hready : ∀ i env next, envs[i]? = some env → frame.hops[frame.hopIndex + i + 1]? = some next →
      env.ready next = true) :
    (net.run L (envs.map (.deliver 0))).1.inFlight = [] ∧
      Carries (frame.hops.drop frame.hopIndex) frame.payload
        (net.run L (envs.map (.deliver 0))).2 := by
  -- one environment for each hop that is left
  induction envs generalizing net frame raw sender receiver with
  | nil =>
    obtain ⟨hlt, _⟩ := List.getElem?_eq_some_iff.mp hreceiver
    simp only [List.length_nil] at henough
    omega
  | cons env envs ih =>
    obtain ⟨hlt, hget⟩ := List.getElem?_eq_some_iff.mp hreceiver
    obtain ⟨path, hpath⟩ := haccepted _ sender receiver (Nat.le_refl _) hsender hreceiver
    have hpolicy := hpolicies env List.mem_cons_self receiver (List.mem_of_getElem? hreceiver)
    obtain ⟨hlocal, hconfig⟩ := hholds receiver
    have hout := handleMeshData_accepted (L := L) (r := net.routers receiver) env
      (unmarshalFrame_marshal hraw) (by rw [hconfig]; exact hpolicy)
      (by rw [hconfig, hlocal]; exact hpath)
    have hholds' := hholds.step (L := L) 0 env
    have hrun : net.run L ((env :: envs).map (.deliver 0)) =
        (((net.step L (.deliver 0 env)).1.run L (envs.map (.deliver 0))).1,
          (net.step L (.deliver 0 env)).2 ++
            ((net.step L (.deliver 0 env)).1.run L (envs.map (.deliver 0))).2) := rfl
    have hstep := step_single (L := L) hflight env
    dsimp only at hstep
    by_cases hend : frame.hopIndex = frame.hops.length - 1
    · -- the last hop writes the packet, and nothing is in flight any more
      rw [if_pos hend] at hout
      have hseen : (net.step L (.deliver 0 env)).2 = [.wrote receiver frame.payload] := by
        rw [hstep, after_write _ _ _ hout]
      have hnone : (net.step L (.deliver 0 env)).1.inFlight = [] := by
        rw [hstep, after_write _ _ _ hout]
      have hdrop : frame.hops.drop frame.hopIndex = [receiver] := by
        rw [List.drop_eq_getElem_cons hlt, hget, List.drop_eq_nil_of_le (by omega)]
      rw [hrun, run_idle hnone, hseen, hdrop]
      exact ⟨hnone, rfl, rfl⟩
    · -- the frame is in flight to the next hop
      rw [if_neg hend] at hout
      have hnext : frame.hops[frame.hopIndex + 1]? = some (frame.hops[frame.hopIndex + 1]) :=
        List.getElem?_eq_getElem (by omega)
      have hbasic := hpath.basic.withIndex (Nat.succ_pos frame.hopIndex) (by dsimp only; omega)
      obtain ⟨raw', hraw', hsend⟩ := sendFrame_ready env hbasic hnext (hready 0 env _ rfl hnext)
      rw [hsend] at hout
      generalize frame.hops[frame.hopIndex + 1] = next at hnext hout
      have hseen : (net.step L (.deliver 0 env)).2 =
        [.transmitted ⟨receiver, next, raw', marked⟩] := by
        rw [hstep, after_send _ _ _ hout]
      have hflight' : (net.step L (.deliver 0 env)).1.inFlight =
        [⟨receiver, next, raw', marked⟩] := by
        rw [hstep, after_send _ _ _ hout]
        rfl
      obtain ⟨hempty, hvisits, hwrites⟩ := ih hholds' hraw' hflight' hreceiver hnext
        (fun j peer node hj => haccepted j peer node (by dsimp only at hj; omega))
        (by simp only [List.length_cons] at henough; dsimp only; omega)
        (fun e he => hpolicies e (List.mem_cons_of_mem _ he))
        (fun i e next' he hnext' => hready (i + 1) e next' he (by
          rw [← hnext']
          dsimp only
          congr 1
          omega))
      obtain ⟨hlt', hget'⟩ := List.getElem?_eq_some_iff.mp hnext
      have hdrop' : frame.hops.drop (frame.hopIndex + 1) =
          next :: frame.hops.drop (frame.hopIndex + 2) := by
        rw [List.drop_eq_getElem_cons hlt', hget']
      have hdrop : frame.hops.drop frame.hopIndex =
          receiver :: next :: frame.hops.drop (frame.hopIndex + 2) := by
        rw [List.drop_eq_getElem_cons hlt, hget, hdrop']
      dsimp only at hvisits hwrites
      rw [hdrop'] at hvisits hwrites
      rw [hrun, hseen, hdrop]
      refine ⟨hempty, ?_, ?_⟩
      · exact congrArg ((receiver, next) :: ·) hvisits
      · rw [List.getLast?_cons_cons]
        exact hwrites

end Bpc.Routed
