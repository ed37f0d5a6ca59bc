/-
  DISCOVERED TRANSPORT PATHS — `_discovered_transport_paths`: which endpoints a Device is told to
  try.

  1. **Candidates** — the enabled endpoints of live Public Nodes.  Reading a record can raise.
  2. **Collection** — at most sixteen paths with distinct endpoints; then ROUNDS: the second ports,
     the third ports, and so on.  A round in which every port REPEATS an endpoint ends them, so
     paths stay unused with room left (`transport_paths_capacity_iff`).
-/
import Bpc.Lib.Capped
import Bpc.Deploy.Configurable
import Bpc.Deploy.PlainMesh

namespace Bpc.Deploy

open SlashPath Controlplane Capped

/-! ## Node records with telemetry -/

section Merge

variable {Data : Type} (P : Runtime Data) (dir : ControlDir Data)

/-- The fields that telemetry overwrites. -/
def telemetryKeys : List Str :=
  ["last_seen", "last_status", "last_version", "protocol_version", "state_schema_version",
    "compatibility", "services", "transport"]

/-- The record of a Node, overwritten by its telemetry. -/
def withTelemetry (telemetry : Option Record) (node : Record) : Record :=
  match telemetry with
  | none => node
  | some telemetry => telemetryKeys.foldl (fun merged key =>
      match telemetry[key]? with
      | some v => merged.insert key v
      | none => merged) node

/-- The number that `last_seen` of a merged record stands for. -/
def lastSeen (node : Record) : Except PyError Int :=
  P.int (orElse (node.get "last_seen" (.int 0)) (.int 0))

/-- `merge_node_telemetry`; what does not convert is zero. -/
def mergeNodeTelemetry (now : Int) (node : Record) : Topo Record :=
  match (if strip (nodeId P node) = [] then .ok none
    else readNodeTelemetry P dir (strip (nodeId P node))) with
  | .error e => .error e
  | .ok telemetry =>
    let merged := withTelemetry telemetry node
    match converted (lastSeen P merged) 0 with
    | .error e => .error e
    | .ok seen => .ok (merged.insert "online" (.bool (!isRevoked merged && decide (0 < seen)
        && decide (now - seen ≤ telemetryTTL))))

end Merge

/-! ## Candidates -/

/-- A Node with an endpoint and its ports. -/
structure Candidate where
  node : Str
  host : Str
  ports : List Int
  deriving DecidableEq

/-- `HEARTBEAT_INTERVAL`. -/
def heartbeatInterval : Int := 5

/-- `isinstance(item, int) and 1024 <= item <= 65535`. -/
def portOf : Json → Option Int
  | .int n => if 1024 ≤ n ∧ n ≤ 65535 then some n else none
  | _ => none

/-- `for item in value`; keys and characters are no ports. -/
def portsOf : Json → Topo (List Int)
  | .arr items => .ok (items.filterMap portOf)
  | .obj _ => .ok []
  | .str _ => .ok []
  | _ => .error (.python .type)

/-- `isinstance(services, dict) and services.get("relay") == "active"`. -/
def relayActive (node : Record) : Bool :=
  match node.get "services" (.obj (.of [])) with
  | .obj services => (lookup services "relay" .null).beq (.str "active")
  | _ => false

section Candidates

-- `lower` is `str.lower`
variable {Data : Type} (P : Runtime Data) (lower : Str → Str)

/-- The host of an endpoint that is public and enabled. -/
def hostOf : Json → Option Str
  | .obj endpoint =>
    if (lookup endpoint "public" (.bool true)).truthy
        && (lookup endpoint "enabled" (.bool true)).truthy then
      let host := lower (strip (P.str (lookup endpoint "host" (.str []))))
      if host = [] then none else some host
    else none
  | _ => none

/-- The candidates of a Node record. -/
def candidatesOf (overlayKey : Str) (now : Int) (node : Record) : Topo (List Candidate) :=
  if isRevoked node || !isPublicNode node || !relayActive node then .ok []
  else
    match unguarded (lastSeen P node) with
    | .error e => .error e
    | .ok seen =>
      if seen ≤ now - heartbeatInterval * 3 then .ok []
      else
        match node.get "transport" (.obj (.of [])) with
        | .obj transport =>
          if strip (P.str (lookup transport "overlay_public_key" (.str []))) ≠ overlayKey then
            .ok []
          else
            match portsOf (lookup transport "udp_ports" (.arr [])) with
            | .error e => .error e
            | .ok ports =>
              if ports = [] then .ok []
              else
                match node.get "endpoints" (.arr []) with
                | .arr endpoints => .ok ((endpoints.filterMap (hostOf P lower)).map fun host =>
                    ⟨P.str (node.get "name" (node.get "node_id" (.str []))), host, ports⟩)
                | _ => .ok []
        | _ => .ok []

/-- One turn of the loop over the Node files. -/
def nodeCandidates (dir : ControlDir Data) (overlayKey : Str) (now : Int) (node : Record) :
    Topo (List Candidate) :=
  match mergeNodeTelemetry P dir now node with
  | .error e => .error e
  | .ok merged => candidatesOf P lower overlayKey now merged

end Candidates

/-! ## The collection -/

/-- A path that a Device may try. -/
structure TransportPath where
  node : Str
  endpoint : Str
  peerPublicKey : Str
  deriving DecidableEq

/-- The number of paths at most. -/
def maxTransportPaths : Nat := 16

/-- `f"{host}:{port}"`. -/
def portEndpoint (host : Str) (port : Int) : Str := host ++ ':' :: (toString port).toList

/-- `endpoint.rpartition(":")`, without the last part. -/
def beforeLastColon (endpoint : Str) : Option Str :=
  if ':' ∈ endpoint then some ((endpoint.reverse.dropWhile (· ≠ ':')).tail).reverse else none

/-- A bracket around an address. -/
def isBracket (c : Char) : Bool := c = '[' || c = ']'

/-- The paths so far; `seen` of the source holds their keys. -/
abbrev Paths (lower : Str → Str) : Type :=
  Collection (fun path : TransportPath => lower path.endpoint) maxTransportPaths

section Collection

variable (lower : Str → Str) (overlayKey : Str)

/-- `compatibility_node`; of two candidates the last one gives the name. -/
def compatibilityNode (candidates : List Candidate) (endpoint : Str) : Str :=
  match beforeLastColon endpoint with
  | none => "compat-primary"
  | some host =>
    let host := lower ((host.dropWhile isBracket).rdropWhile isBracket)
    match candidates.reverse.find? fun c => c.host = host with
    | some c => c.node
    | none => "compat-primary"

/-- The path to a server of the configuration. -/
def compatibilityPath (candidates : List Candidate) (endpoint : Str) : TransportPath :=
  ⟨compatibilityNode lower candidates endpoint, endpoint, overlayKey⟩

/-- The path to one port of a candidate, if there are that many. -/
def portPath (depth : Nat) (c : Candidate) : Option TransportPath :=
  c.ports[depth]?.map fun port => ⟨c.node, portEndpoint c.host port, overlayKey⟩

/-- One round, with the flag `added`. -/
def portRound (depth : Nat) : List Candidate → Paths lower → Bool → Paths lower × Bool
  | [], result, added => (result, added)
  | c :: candidates, result, added =>
    match portPath overlayKey depth c with
    | none => portRound depth candidates result added
    | some path =>
      let next := result.add path
      let added := added || decide (next.items.length ≠ result.items.length)
      if maxTransportPaths ≤ next.items.length then (next, added)
      else portRound depth candidates next added

/-- The rounds from `depth` on; `none` if the fuel does not suffice. -/
def portRounds (candidates : List Candidate) : Nat → Nat → Paths lower → Option (Paths lower)
  | 0, _, _ => none
  | fuel + 1, depth, result =>
    if result.items.length < maxTransportPaths then
      match portRound lower overlayKey depth candidates result false with
      | (next, true) => portRounds candidates fuel (depth + 1) next
      | (next, false) => some next
    else some result

/-- The paths before the rounds. -/
def basePaths (primary : Str) (compatibility : List Str) (candidates : List Candidate) :
    Paths lower :=
  ((Collection.empty.add (compatibilityPath lower overlayKey candidates primary)).addAll
    (candidates.filterMap (portPath overlayKey 0))).addAll
      (compatibility.map (compatibilityPath lower overlayKey candidates))

end Collection

/-! ## The configuration -/

/-- The names `_global_config` asks for. -/
def requiredNames : List Str :=
  ["config_version", "wgshim_server", "wgshim_listen", "wgshim_target", "padding_min",
    "padding_max", "wireguard_interface", "wireguard_subnet", "wireguard_server_address",
    "wireguard_server_public_key", "wireguard_mtu", "wireguard_keepalive",
    "wireguard_allowed_ips", "wgshim_key_dir"]

/-- What `_global_config` returns: an object with every required name. -/
structure GlobalConfig where
  value : Record
  complete : ∀ name ∈ requiredNames, (value[name]?).isSome = true

section Configuration

variable {Data : Type} (P : Runtime Data) (config : GlobalConfig)

/-- `global_config[name]`, of a required name. -/
def GlobalConfig.field (name : Str) : Json := config.value.get name .null

/-- The overlay key of the cluster. -/
def GlobalConfig.overlayKey : Str := strip (P.str (config.field "wireguard_server_public_key"))

/-- The primary server. -/
def GlobalConfig.primary : Str := strip (P.str (config.field "wgshim_server"))

/-- A server of the list, if it is a text that is not blank. -/
def serverOf : Json → Option Str
  | .str endpoint => if strip endpoint = [] then none else some (strip endpoint)
  | _ => none

/-- The compatibility servers, or the primary server. -/
def GlobalConfig.compatibility : List Str :=
  match config.value.get "wgshim_servers" (.arr [config.field "wgshim_server"]) with
  | .arr servers => servers.filterMap serverOf
  | _ => [config.field "wgshim_server"].filterMap serverOf

end Configuration

/-- `_discovered_transport_paths`. -/
def discoveredTransportPaths {Data : Type} (P : Runtime Data) (lower : Str → Str)
    (dir : ControlDir Data) (now : Int) (config : GlobalConfig) (fuel : Nat) :
    Topo (Option (List TransportPath)) :=
  let overlayKey := config.overlayKey P
  match Checked.collect (nodeCandidates P lower dir overlayKey now) (nodeRecords P dir) with
  | .error e => .error e
  | .ok candidates =>
    let base := basePaths lower overlayKey (config.primary P) config.compatibility candidates
    .ok ((portRounds lower overlayKey candidates fuel 1 base).map Collection.items)

/-! ## The rounds are those of a capped collection -/

section Rounds

variable {lower : Str → Str} {overlayKey : Str}

/-- The paths of one round. -/
def portLevel (overlayKey : Str) (candidates : List Candidate) (depth : Nat) :
    List TransportPath :=
  candidates.filterMap (portPath overlayKey depth)

theorem portRound_eq (depth : Nat) : ∀ (candidates : List Candidate) (result : Paths lower)
    (added : Bool), portRound lower overlayKey depth candidates result added =
      (result.addAll (portLevel overlayKey candidates depth),
        added || decide ((result.addAll (portLevel overlayKey candidates depth)).items.length ≠
          result.items.length))
  | [], result, added => by
    show (result, added) = (result, added || decide (result.items.length ≠ result.items.length))
    simp
  | c :: candidates, result, added => by
    rw [portRound]
    cases hpath : portPath overlayKey depth c with
    | none =>
      have hlevel : portLevel overlayKey (c :: candidates) depth =
          portLevel overlayKey candidates depth := List.filterMap_cons_none hpath
      rw [hlevel]
      exact portRound_eq depth candidates result added
    | some path =>
      have hlevel : portLevel overlayKey (c :: candidates) depth =
          path :: portLevel overlayKey candidates depth := List.filterMap_cons_some hpath
      rw [hlevel, Collection.addAll_cons]
      have hfirst : result.items.length ≤ (result.add path).items.length :=
        Collection.add_extends.length_le
      have hrest : (result.add path).items.length ≤
          ((result.add path).addAll (portLevel overlayKey candidates depth)).items.length :=
        Collection.addAll_extends.length_le
      dsimp only
      split
      · rename_i hfull
        rw [Collection.addAll_of_full hfull]
      · rw [portRound_eq depth candidates (result.add path) _, Bool.or_assoc]
        congr 2
        rw [← Bool.decide_or]
        exact decide_eq_decide.mpr (by omega)

theorem portRounds_eq (candidates : List Candidate) : ∀ (fuel depth : Nat) (result : Paths lower),
    portRounds lower overlayKey candidates fuel depth result =
      result.rounds (portLevel overlayKey candidates) fuel depth
  | 0, _, _ => rfl
  | fuel + 1, depth, result => by
    rw [portRounds, Collection.rounds, portRound_eq]
    split
    · by_cases hgrow : (result.addAll (portLevel overlayKey candidates depth)).items.length ≠
          result.items.length
      · rw [if_pos hgrow, decide_eq_true hgrow]
        exact portRounds_eq candidates fuel (depth + 1) _
      · rw [if_neg hgrow, decide_eq_false hgrow]
        rfl
    · rfl

end Rounds

/-! ## When the records can be read -/

section Reading

variable {Data : Type} {P : Runtime Data} {dir : ControlDir Data} {lower : Str → Str}
  {overlayKey : Str} {now : Int} {node : Record}

/-- A `for` loop can run over the value. -/
def isIterable : Json → Bool
  | .arr _ => true
  | .obj _ => true
  | .str _ => true
  | _ => false

theorem portsOf_returns_iff {v : Json} : (∃ ports, portsOf v = .ok ports) ↔
    isIterable v = true := by
  cases v <;> simp [portsOf, isIterable]

/-- A Node record as the discovery sees it. -/
def nodeView (P : Runtime Data) (dir : ControlDir Data) (node : Record) : Record :=
  withTelemetry (if strip (nodeId P node) = [] then none
    else telemetryOf P dir (strip (nodeId P node))) node

/-- A Public Node whose relay is active. -/
def isServing (node : Record) : Bool := !isRevoked node && isPublicNode node && relayActive node

/-- **What reading a Node record needs**: a blank id or a file name, a `last_seen` that converts
    (or a failure that is caught), iterable ports. -/
structure ReadableNode (P : Runtime Data) (dir : ControlDir Data) (overlayKey : Str) (now : Int)
    (node : Record) : Prop where
  name : strip (nodeId P node) = [] ∨ IsTelemetryName (strip (nodeId P node))
  caught : Caught (lastSeen P (nodeView P dir node))
  converts : isServing (nodeView P dir node) = true → Converts (lastSeen P (nodeView P dir node))
  ports : ∀ seen transport, isServing (nodeView P dir node) = true →
    lastSeen P (nodeView P dir node) = .ok seen → now - heartbeatInterval * 3 < seen →
    (nodeView P dir node).get "transport" (.obj (.of [])) = .obj transport →
    strip (P.str (lookup transport "overlay_public_key" (.str []))) = overlayKey →
    isIterable (lookup transport "udp_ports" (.arr [])) = true

theorem Record.get_insert_of_ne {r : Record} {key other : Str} (v d : Json) (h : other ≠ key) :
    Record.get (r.insert other v) key d = r.get key d := by
  unfold Record.get
  rw [SortedMap.get_insert_of_ne _ _ h]

theorem telemetry_returns_iff (hnode : node ∈ nodeRecords P dir) (telemetry : Option Record) :
    (if strip (nodeId P node) = [] then .ok none
      else readNodeTelemetry P dir (strip (nodeId P node))) = Except.ok telemetry ↔
    (strip (nodeId P node) = [] ∨ IsTelemetryName (strip (nodeId P node))) ∧
      telemetry = if strip (nodeId P node) = [] then none
        else telemetryOf P dir (strip (nodeId P node)) := by
  by_cases hblank : strip (nodeId P node) = []
  · rw [if_pos hblank, if_pos hblank]
    exact ⟨fun h => ⟨Or.inl hblank, (Except.ok.inj h).symm⟩, fun h => h.2 ▸ rfl⟩
  · rw [if_neg hblank, if_neg hblank]
    have hknown := known_of_node hnode hblank
    constructor
    · intro h
      have hname := readNodeTelemetry_returns hknown h
      rw [readNodeTelemetry_of_known hknown hname] at h
      exact ⟨Or.inr hname, (Except.ok.inj h).symm⟩
    · rintro ⟨hname, rfl⟩
      exact readNodeTelemetry_of_known hknown (hname.resolve_left hblank)

theorem mergeNodeTelemetry_ok (hnode : node ∈ nodeRecords P dir) {merged : Record}
    (h : mergeNodeTelemetry P dir now node = .ok merged) :
    (strip (nodeId P node) = [] ∨ IsTelemetryName (strip (nodeId P node))) ∧
      Caught (lastSeen P (nodeView P dir node)) ∧
      ∃ flag, merged = (nodeView P dir node).insert "online" (.bool flag) := by
  unfold mergeNodeTelemetry at h
  split at h
  · cases h
  rename_i telemetry htelemetry
  obtain ⟨hname, rfl⟩ := (telemetry_returns_iff hnode telemetry).mp htelemetry
  dsimp only at h
  split at h
  · cases h
  rename_i seen hseen
  exact ⟨hname, converted_returns_iff.mp ⟨seen, hseen⟩, _, (Except.ok.inj h).symm⟩

theorem mergeNodeTelemetry_returns (hnode : node ∈ nodeRecords P dir)
    (hname : strip (nodeId P node) = [] ∨ IsTelemetryName (strip (nodeId P node)))
    (hcaught : Caught (lastSeen P (nodeView P dir node))) :
    ∃ flag, mergeNodeTelemetry P dir now node =
      .ok ((nodeView P dir node).insert "online" (.bool flag)) := by
  obtain ⟨seen, hseen⟩ := converted_returns_iff.mpr hcaught
  have htelemetry := (telemetry_returns_iff hnode _).mpr ⟨hname, rfl⟩
  unfold mergeNodeTelemetry
  rw [htelemetry]
  dsimp only
  rw [show withTelemetry _ node = nodeView P dir node from rfl, hseen]
  exact ⟨_, rfl⟩

theorem candidatesOf_online (v : Json) :
    candidatesOf P lower overlayKey now (node.insert "online" v) =
      candidatesOf P lower overlayKey now node := by
  have hget : ∀ key d, ("online" : Str) ≠ key →
      Record.get (node.insert "online" v) key d = node.get key d :=
    fun key d h => Record.get_insert_of_ne v d h
  unfold candidatesOf isRevoked isPublicNode hasRole relayActive lastSeen
  rw [hget "revoked" _ (by decide), hget "roles" _ (by decide), hget "services" _ (by decide),
    hget "last_seen" _ (by decide), hget "transport" _ (by decide),
    hget "endpoints" _ (by decide), hget "node_id" _ (by decide), hget "name" _ (by decide)]

theorem candidatesOf_returns_iff :
    (∃ found, candidatesOf P lower overlayKey now node = .ok found) ↔
      (isServing node = true → Converts (lastSeen P node)) ∧
      ∀ seen transport, isServing node = true → lastSeen P node = .ok seen →
        now - heartbeatInterval * 3 < seen → node.get "transport" (.obj (.of [])) = .obj transport →
        strip (P.str (lookup transport "overlay_public_key" (.str []))) = overlayKey →
        isIterable (lookup transport "udp_ports" (.arr [])) = true := by
  have hserving : (isRevoked node || !isPublicNode node || !relayActive node) =
      !isServing node := by
    unfold isServing
    simp
  unfold candidatesOf
  rw [hserving]
  by_cases hserves : isServing node = true
  swap
  · rw [if_pos (by simpa using hserves)]
    exact ⟨fun _ => ⟨fun h => absurd h hserves, fun _ _ h => absurd h hserves⟩, fun _ => ⟨[], rfl⟩⟩
  rw [if_neg (by simp [hserves])]
  cases hseen : lastSeen P node with
  | error e =>
    constructor
    · rintro ⟨found, h⟩
      cases h
    · rintro ⟨h, -⟩
      obtain ⟨seen, h⟩ := h hserves
      cases h
  | ok seen =>
    constructor
    · rintro ⟨found, h⟩
      refine ⟨fun _ => ⟨seen, rfl⟩, fun seen' transport _ hok hlive htransport hkey => ?_⟩
      obtain rfl := Except.ok.inj hok
      have hold : ¬ seen ≤ now - heartbeatInterval * 3 := by omega
      dsimp only [unguarded] at h
      rw [if_neg hold, htransport] at h
      dsimp only at h
      rw [if_neg (not_not.mpr hkey)] at h
      split at h
      · cases h
      rename_i ports hports
      exact portsOf_returns_iff.mp ⟨ports, hports⟩
    · rintro ⟨-, h⟩
      dsimp only [unguarded]
      split
      · exact ⟨[], rfl⟩
      rename_i hold
      split
      · rename_i transport htransport
        split
        · exact ⟨[], rfl⟩
        rename_i hkey
        obtain ⟨ports, hports⟩ := portsOf_returns_iff.mpr
          (h seen transport hserves rfl (by omega) htransport (not_not.mp hkey))
        rw [hports]
        dsimp only
        split
        · exact ⟨[], rfl⟩
        · split
          · exact ⟨_, rfl⟩
          · exact ⟨[], rfl⟩
      · exact ⟨[], rfl⟩

theorem nodeCandidates_returns_iff (hnode : node ∈ nodeRecords P dir) :
    (∃ found, nodeCandidates P lower dir overlayKey now node = .ok found) ↔
      ReadableNode P dir overlayKey now node := by
  unfold nodeCandidates
  constructor
  · rintro ⟨found, h⟩
    split at h
    · cases h
    rename_i merged hmerged
    obtain ⟨hname, hcaught, flag, rfl⟩ := mergeNodeTelemetry_ok hnode hmerged
    rw [candidatesOf_online] at h
    obtain ⟨hconverts, hports⟩ := candidatesOf_returns_iff.mp ⟨found, h⟩
    exact ⟨hname, hcaught, hconverts, hports⟩
  · intro h
    obtain ⟨flag, hmerged⟩ := mergeNodeTelemetry_returns hnode h.name h.caught
    rw [hmerged]
    dsimp only
    rw [candidatesOf_online]
    exact candidatesOf_returns_iff.mpr ⟨h.converts, h.ports⟩

end Reading

/-! ## What the result holds -/

section Capacity

variable {lower : Str → Str} {overlayKey primary : Str} {compatibility : List Str}
  {candidates : List Candidate}

/-- The first endpoint of every candidate, up to case. -/
def firstEndpoints (lower : Str → Str) (candidates : List Candidate) : List Str :=
  candidates.filterMap fun c => c.ports[0]?.map fun port => lower (portEndpoint c.host port)

/-- Every endpoint that is offered. -/
def allEndpoints (lower : Str → Str) (primary : Str) (compatibility : List Str)
    (candidates : List Candidate) : List Str :=
  lower primary :: (compatibility.map lower ++
    candidates.flatMap fun c => c.ports.map fun port => lower (portEndpoint c.host port))

/-- The keys that are known before the rounds start. -/
def baseEndpoints (lower : Str → Str) (primary : Str) (compatibility : List Str)
    (candidates : List Candidate) : List Str :=
  lower primary :: (firstEndpoints lower candidates ++ compatibility.map lower)

/-- **The capacity is used.** -/
structure UsesCapacity (lower : Str → Str) (primary : Str) (compatibility : List Str)
    (candidates : List Candidate) (paths : List TransportPath) : Prop where
  atMost : paths.length ≤ 16
  distinct : (paths.map fun path => lower path.endpoint).Nodup
  first : paths.head?.map TransportPath.endpoint = some primary
  firstPorts : (firstEndpoints lower candidates).toFinset.card ≤ 15 →
    ∀ k ∈ firstEndpoints lower candidates, ∃ path ∈ paths, lower path.endpoint = k
  all : (allEndpoints lower primary compatibility candidates).toFinset.card ≤ 16 →
    ∀ k ∈ allEndpoints lower primary compatibility candidates,
      ∃ path ∈ paths, lower path.endpoint = k

/-- No depth that only repeats, with a new endpoint further down. -/
def PortsWithoutGap (lower : Str → Str) (overlayKey primary : Str) (compatibility : List Str)
    (candidates : List Candidate) : Prop :=
  Collection.NoGap (fun path : TransportPath => lower path.endpoint)
    (baseEndpoints lower primary compatibility candidates) (portLevel overlayKey candidates) 1

theorem mem_portLevel {depth : Nat} {path : TransportPath} :
    path ∈ portLevel overlayKey candidates depth ↔ ∃ c ∈ candidates, ∃ port,
      c.ports[depth]? = some port ∧ ⟨c.node, portEndpoint c.host port, overlayKey⟩ = path := by
  simp only [portLevel, List.mem_filterMap, portPath, Option.map_eq_some_iff]

theorem basePaths_eq : basePaths lower overlayKey primary compatibility candidates =
    Collection.empty.addAll (compatibilityPath lower overlayKey candidates primary ::
      (portLevel overlayKey candidates 0 ++
        compatibility.map (compatibilityPath lower overlayKey candidates))) := by
  rw [Collection.addAll_cons, Collection.addAll_append]
  rfl

theorem head_basePaths (lower : Str → Str) (overlayKey primary : Str) (compatibility : List Str)
    (candidates : List Candidate) : ∃ path rest,
    (basePaths lower overlayKey primary compatibility candidates).items = path :: rest ∧
      path.endpoint = primary := by
  have hadd : ((Collection.empty : Paths lower).add
      (compatibilityPath lower overlayKey candidates primary)).items =
        [compatibilityPath lower overlayKey candidates primary] :=
    Collection.items_add_of_new List.not_mem_nil (Nat.zero_lt_succ 15)
  obtain ⟨rest, hrest⟩ : [compatibilityPath lower overlayKey candidates primary] <+:
      (basePaths lower overlayKey primary compatibility candidates).items := by
    rw [basePaths_eq, Collection.addAll_cons, ← hadd]
    exact Collection.addAll_extends
  exact ⟨_, rest, hrest.symm, rfl⟩

theorem mem_firstEndpoints (overlayKey : Str) {k : Str} : k ∈ firstEndpoints lower candidates ↔
    ∃ path ∈ portLevel overlayKey candidates 0, lower path.endpoint = k := by
  unfold firstEndpoints
  simp only [List.mem_filterMap, Option.map_eq_some_iff, mem_portLevel]
  constructor
  · rintro ⟨c, hc, port, hport, rfl⟩
    exact ⟨_, ⟨c, hc, port, hport, rfl⟩, rfl⟩
  · rintro ⟨path, ⟨c, hc, port, hport, rfl⟩, rfl⟩
    exact ⟨c, hc, port, hport, rfl⟩

theorem mem_allEndpoints (overlayKey : Str) {k : Str} :
    k ∈ allEndpoints lower primary compatibility candidates ↔
    k ∈ baseEndpoints lower primary compatibility candidates ∨
      ∃ i, 1 ≤ i ∧ ∃ path ∈ portLevel overlayKey candidates i, lower path.endpoint = k := by
  have hports : k ∈ (candidates.flatMap fun c => c.ports.map fun port =>
      lower (portEndpoint c.host port)) ↔
      ∃ i, ∃ path ∈ portLevel overlayKey candidates i, lower path.endpoint = k := by
    simp only [List.mem_flatMap, List.mem_map, mem_portLevel]
    constructor
    · rintro ⟨c, hc, port, hport, rfl⟩
      obtain ⟨i, hi⟩ := List.mem_iff_getElem?.mp hport
      exact ⟨i, _, ⟨c, hc, port, hi, rfl⟩, rfl⟩
    · rintro ⟨i, path, ⟨c, hc, port, hport, rfl⟩, rfl⟩
      exact ⟨c, hc, port, List.mem_of_getElem? hport, rfl⟩
  have hdepth : (∃ i, ∃ path ∈ portLevel overlayKey candidates i, lower path.endpoint = k) ↔
      k ∈ firstEndpoints lower candidates ∨
        ∃ i, 1 ≤ i ∧ ∃ path ∈ portLevel overlayKey candidates i, lower path.endpoint = k := by
    constructor
    · rintro ⟨i, hi⟩
      obtain rfl | hpos := Nat.eq_zero_or_pos i
      · exact Or.inl ((mem_firstEndpoints overlayKey).mpr hi)
      · exact Or.inr ⟨i, hpos, hi⟩
    · rintro (h | ⟨i, -, hi⟩)
      · exact ⟨0, (mem_firstEndpoints overlayKey).mp h⟩
      · exact ⟨i, hi⟩
  unfold allEndpoints baseEndpoints
  rw [List.mem_cons, List.mem_append, hports, hdepth, List.mem_cons, List.mem_append]
  constructor
  · rintro (h | h | h | h)
    · exact Or.inl (Or.inl h)
    · exact Or.inl (Or.inr (Or.inr h))
    · exact Or.inl (Or.inr (Or.inl h))
    · exact Or.inr h
  · rintro ((h | h | h) | h)
    · exact Or.inl h
    · exact Or.inr (Or.inr (Or.inl h))
    · exact Or.inr (Or.inl h)
    · exact Or.inr (Or.inr (Or.inr h))

theorem baseEndpoints_eq (overlayKey : Str) :
    (compatibilityPath lower overlayKey candidates primary ::
      (portLevel overlayKey candidates 0 ++
        compatibility.map (compatibilityPath lower overlayKey candidates))).map
          (fun path => lower path.endpoint) =
    baseEndpoints lower primary compatibility candidates := by
  have hfirst : (portLevel overlayKey candidates 0).map (fun path => lower path.endpoint) =
      firstEndpoints lower candidates := by
    unfold portLevel firstEndpoints
    rw [List.map_filterMap]
    refine List.filterMap_congr fun c _ => ?_
    show ((c.ports[0]?.map _).map _) = _
    rw [Option.map_map]
    rfl
  rw [List.map_cons, List.map_append, hfirst, List.map_map]
  rfl

theorem mem_keys_basePaths
    (hroom : (allEndpoints lower primary compatibility candidates).toFinset.card ≤ 16) (k : Str) :
    k ∈ (basePaths lower overlayKey primary compatibility candidates).keys ↔
      k ∈ baseEndpoints lower primary compatibility candidates := by
  have hbase : ∀ path ∈ compatibilityPath lower overlayKey candidates primary ::
      (portLevel overlayKey candidates 0 ++
        compatibility.map (compatibilityPath lower overlayKey candidates)),
      lower path.endpoint ∈ (allEndpoints lower primary compatibility candidates).toFinset := by
    intro path hpath
    refine List.mem_toFinset.mpr ((mem_allEndpoints overlayKey).mpr (Or.inl ?_))
    rw [← baseEndpoints_eq overlayKey]
    exact List.mem_map_of_mem hpath
  have hempty : ∀ k ∈ (Collection.empty : Paths lower).keys,
      k ∈ (allEndpoints lower primary compatibility candidates).toFinset :=
    fun k hk => by cases hk
  rw [basePaths_eq, ← baseEndpoints_eq overlayKey, List.mem_map]
  exact (Collection.mem_keys_addAll_iff hroom hempty hbase).trans (or_iff_right List.not_mem_nil)

theorem firstEndpoints_mem_basePaths
    (hroom : (firstEndpoints lower candidates).toFinset.card ≤ 15) {k : Str}
    (hk : k ∈ firstEndpoints lower candidates) :
    k ∈ (basePaths lower overlayKey primary compatibility candidates).keys := by
  have hcard : (insert (lower primary) (firstEndpoints lower candidates).toFinset).card ≤
      maxTransportPaths := (Finset.card_insert_le _ _).trans (Nat.succ_le_succ hroom)
  rw [basePaths_eq, ← List.cons_append, Collection.addAll_append]
  refine Collection.mem_keys_addAll_of_mem ((Collection.mem_keys_addAll_iff hcard
    (fun k hk => absurd hk List.not_mem_nil) fun path hpath => ?_).mpr (Or.inr ?_))
  · obtain rfl | hpath := List.mem_cons.mp hpath
    · exact Finset.mem_insert_self _ _
    · exact Finset.mem_insert_of_mem
        (List.mem_toFinset.mpr ((mem_firstEndpoints overlayKey).mpr ⟨path, hpath, rfl⟩))
  · obtain ⟨path, hpath, hkey⟩ := (mem_firstEndpoints overlayKey).mp hk
    exact ⟨path, List.mem_cons_of_mem _ hpath, hkey⟩

/-- **The rounds use the capacity iff there are too many endpoints or no gap.** -/
theorem usesCapacity_iff {fuel : Nat} {r : Paths lower}
    (h : portRounds lower overlayKey candidates fuel 1
      (basePaths lower overlayKey primary compatibility candidates) = some r) :
    UsesCapacity lower primary compatibility candidates r.items ↔
      16 < (allEndpoints lower primary compatibility candidates).toFinset.card ∨
        PortsWithoutGap lower overlayKey primary compatibility candidates := by
  rw [portRounds_eq] at h
  have hprefix := Collection.rounds_extends h
  have hmem : ∀ k, (∃ path ∈ r.items, lower path.endpoint = k) ↔ k ∈ r.keys :=
    fun k => List.mem_map.symm
  -- the last part, with room for everything
  have hall : (allEndpoints lower primary compatibility candidates).toFinset.card ≤ 16 →
      ((∀ k ∈ (allEndpoints lower primary compatibility candidates).toFinset, k ∈ r.keys) ↔
        PortsWithoutGap lower overlayKey primary compatibility candidates) := by
    intro hroom
    refine Collection.rounds_complete_iff hroom (fun k => ?_) (fun i path hpath => ?_)
      (mem_keys_basePaths hroom) h
    · rw [List.mem_toFinset]
      exact mem_allEndpoints overlayKey
    · refine List.mem_toFinset.mpr ?_
      obtain rfl | hpos := Nat.eq_zero_or_pos i
      · exact (mem_allEndpoints overlayKey).mpr (Or.inl (List.mem_cons_of_mem _
          (List.mem_append_left _ ((mem_firstEndpoints overlayKey).mpr ⟨path, hpath, rfl⟩))))
      · exact (mem_allEndpoints overlayKey).mpr (Or.inr ⟨i, hpos, path, hpath, rfl⟩)
  constructor
  · intro hcapacity
    obtain hmany | hroom := Nat.lt_or_ge 16
      (allEndpoints lower primary compatibility candidates).toFinset.card
    · exact Or.inl hmany
    · exact Or.inr ((hall hroom).mp fun k hk =>
        (hmem k).mp (hcapacity.all hroom k (List.mem_toFinset.mp hk)))
  · intro hcondition
    refine ⟨r.bounded, r.distinct, ?_, fun hroom k hk => ?_, fun hroom k hk => ?_⟩
    · obtain ⟨path, rest, hitems, hendpoint⟩ :=
        head_basePaths lower overlayKey primary compatibility candidates
      rw [hitems] at hprefix
      obtain ⟨more, hmore⟩ := hprefix
      rw [← hmore]
      exact congrArg some hendpoint
    · exact (hmem k).mpr ((List.IsPrefix.map _ hprefix).subset
        (firstEndpoints_mem_basePaths hroom hk))
    · have hgap := hcondition.resolve_left (Nat.not_lt_of_le hroom)
      exact (hmem k).mpr ((hall hroom).mpr hgap k (List.mem_toFinset.mpr hk))

end Capacity

/-! ## The result of the discovery -/

section Discovery

variable {Data : Type} (P : Runtime Data) (lower : Str → Str) (dir : ControlDir Data) (now : Int)
  (config : GlobalConfig)

/-- The hosts and ports of the eligible Nodes. -/
def eligible : List Candidate :=
  (nodeRecords P dir).flatMap fun node =>
    Checked.values (nodeCandidates P lower dir (config.overlayKey P) now node)

/-- **The discovery returns, and uses the capacity, exactly if every Node record can be read and
    the ports leave no gap (or there are more than sixteen endpoints).** -/
theorem transport_paths_capacity_iff :
    (∃ paths, (∀ fuel, 16 < fuel →
        discoveredTransportPaths P lower dir now config fuel = .ok (some paths)) ∧
      UsesCapacity lower (config.primary P) config.compatibility
        (eligible P lower dir now config) paths) ↔
    (∀ node ∈ nodeRecords P dir, ReadableNode P dir (config.overlayKey P) now node) ∧
      (16 < (allEndpoints lower (config.primary P) config.compatibility
          (eligible P lower dir now config)).toFinset.card ∨
        PortsWithoutGap lower (config.overlayKey P) (config.primary P) config.compatibility
          (eligible P lower dir now config)) := by
  have hreadable : (∀ node ∈ nodeRecords P dir, ReadableNode P dir (config.overlayKey P) now node) ↔
      ∃ candidates, Checked.collect (nodeCandidates P lower dir (config.overlayKey P) now)
        (nodeRecords P dir) = .ok candidates := by
    rw [Checked.collect_returns_iff]
    exact forall₂_congr fun node hnode => (nodeCandidates_returns_iff hnode).symm
  constructor
  · rintro ⟨paths, hpaths, hcapacity⟩
    have hrun := hpaths 17 (by decide)
    unfold discoveredTransportPaths at hrun
    dsimp only at hrun
    split at hrun
    · cases hrun
    rename_i candidates hcandidates
    refine ⟨hreadable.mpr ⟨candidates, hcandidates⟩, ?_⟩
    obtain rfl : candidates = eligible P lower dir now config := Checked.collect_eq hcandidates
    obtain ⟨r, hr, rfl⟩ := Option.map_eq_some_iff.mp (Except.ok.inj hrun)
    exact (usesCapacity_iff hr).mp hcapacity
  · rintro ⟨hnodes, hcondition⟩
    obtain ⟨candidates, hcandidates⟩ := hreadable.mp hnodes
    obtain rfl : candidates = eligible P lower dir now config := Checked.collect_eq hcandidates
    obtain ⟨r, hr⟩ := Collection.rounds_total
      (portLevel (config.overlayKey P) (eligible P lower dir now config)) 1
      (basePaths lower (config.overlayKey P) (config.primary P) config.compatibility
        (eligible P lower dir now config))
    have hrun : ∀ fuel, 16 < fuel → portRounds lower (config.overlayKey P)
        (eligible P lower dir now config) fuel 1 (basePaths lower (config.overlayKey P)
          (config.primary P) config.compatibility (eligible P lower dir now config)) = some r := by
      intro fuel hfuel
      rw [portRounds_eq]
      exact hr fuel (Nat.lt_of_le_of_lt (Nat.sub_le _ _) hfuel)
    refine ⟨r.items, fun fuel hfuel => ?_, (usesCapacity_iff (hrun 17 (by decide))).mpr hcondition⟩
    unfold discoveredTransportPaths
    dsimp only
    rw [hcandidates]
    dsimp only
    rw [hrun fuel hfuel]
    rfl

end Discovery

/-! ## A port that is never offered -/

/-- A Node whose second port is known. -/
def gapNode : Record :=
  Record.of [("node_id", .str "n"), ("name", .str "n"), ("last_seen", .int 100),
    ("roles", .obj (.of [("gateway", .bool true), ("relay", .bool true)])),
    ("services", .obj (.of [("relay", .str "active")])),
    ("endpoints", .arr [.obj (.of [("host", .str "h")])]),
    ("transport", .obj (.of [("overlay_public_key", .str "k"),
      ("udp_ports", .arr [.int 1100, .int 2000, .int 3000])]))]

/-- The directory with that Node. -/
def gapDir : ControlDir Loaded := meshDir [meshFile "control/nodes" "n" gapNode] []

/-- The second port of the Node is also a compatibility server. -/
def gapConfig : GlobalConfig where
  value := Record.of (requiredNames.map (fun name => (name, Json.str [])) ++
    [("wireguard_server_public_key".toList, .str "k"), ("wgshim_server".toList, .str "p:1"),
      ("wgshim_servers".toList, .arr [.str "h:2000"])])
  complete := by decide +kernel

/-- **The second ports repeat, so the third port is never reached**: four endpoints, three paths. -/
theorem transport_paths_stop_early :
    discoveredTransportPaths plainRuntime toLower gapDir 100 gapConfig 17 =
      .ok (some [⟨"compat-primary", "p:1", "k"⟩, ⟨"n", "h:1100", "k"⟩, ⟨"n", "h:2000", "k"⟩]) ∧
    allEndpoints toLower (gapConfig.primary plainRuntime) gapConfig.compatibility
      (eligible plainRuntime toLower gapDir 100 gapConfig) =
        ["p:1".toList, "h:2000".toList, "h:1100".toList, "h:2000".toList, "h:3000".toList] ∧
    ¬ ∃ paths, (∀ fuel, 16 < fuel →
        discoveredTransportPaths plainRuntime toLower gapDir 100 gapConfig fuel =
          .ok (some paths)) ∧
      UsesCapacity toLower (gapConfig.primary plainRuntime) gapConfig.compatibility
        (eligible plainRuntime toLower gapDir 100 gapConfig) paths := by
  have hrun : discoveredTransportPaths plainRuntime toLower gapDir 100 gapConfig 17 =
      .ok (some [⟨"compat-primary", "p:1", "k"⟩, ⟨"n", "h:1100", "k"⟩, ⟨"n", "h:2000", "k"⟩]) := by
    rfl
  have hall : allEndpoints toLower (gapConfig.primary plainRuntime) gapConfig.compatibility
      (eligible plainRuntime toLower gapDir 100 gapConfig) =
        ["p:1".toList, "h:2000".toList, "h:1100".toList, "h:2000".toList, "h:3000".toList] := by
    decide +kernel
  refine ⟨hrun, hall, ?_⟩
  rintro ⟨paths, hpaths, hcapacity⟩
  rw [hpaths 17 (by decide)] at hrun
  obtain rfl := Option.some.inj (Except.ok.inj hrun)
  have hmissing := hcapacity.all (by rw [hall]; decide) "h:3000".toList (by rw [hall]; decide)
  exact absurd hmissing (by decide)

end Bpc.Deploy
