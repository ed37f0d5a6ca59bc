/-
  THE MESH TOPOLOGY — `bpc_topology.py`: from records and telemetry to the configuration of one
  Node.

  1. **Snapshot** — a link is a canonical record, in both directions, OR what a Node with fresh
     telemetry reports; the report wins.  Revoked Nodes are part of the graph.
  2. **Paths** — `candidate_paths`, at most three Nodes long; `validate_path` looks at each.
  3. **Configuration** — `routing_config_for_node`.  What no caller looks at is left out.
-/
import Bpc.Deploy.Access
import Bpc.Lib.Checked

namespace Bpc.Deploy

open SlashPath Controlplane

/-! ## Python's numbers -/

/-- Floating point, and `list.sort` with a key. -/
structure PyFloat (F : Type) where
  /-- `float(x)`. -/
  float : Json → Except PyError F
  ofInt : Int → F
  /-- `sum(values)`. -/
  sum : List F → F
  add : F → F → F
  sub : F → F → F
  mul : F → F → F
  div : F → F → F
  lt : F → F → Bool
  /-- `round(x, 3)`. -/
  round3 : F → F
  sort : {α : Type} → (α → F × F × Str) → List α → List α
  sort_perm : ∀ {α : Type} (key : α → F × F × Str) (l : List α), (sort key l).Perm l

/-- A `TopologyError`, or what else leaves a function. -/
inductive TopologyRaise where
  | topology (message : Str)
  | python (e : PyError)

/-- A result, or what was raised. -/
abbrev Topo := Except TopologyRaise

/-- `except (TypeError, ValueError)`. -/
def isConversion : PyError → Bool
  | .type => true
  | .value => true
  | _ => false

/-- `v or default`. -/
def orElse (v default : Json) : Json := if v.truthy then v else default

/-- A `try` around a conversion. -/
def converted {α : Type} (x : Except PyError α) (default : α) : Topo α :=
  match x with
  | .ok a => .ok a
  | .error e => if isConversion e then .ok default else .error (.python e)

/-- A conversion outside a `try`. -/
def unguarded {α : Type} (x : Except PyError α) : Topo α :=
  match x with
  | .ok a => .ok a
  | .error e => .error (.python e)

/-- `d.get(key, default)` of a nested dictionary. -/
def lookup (fields : Dict Json) (key : Str) (default : Json) : Json :=
  (fields.get key).getD default

/-! ## Inputs -/

/-- A control directory, the telemetry by Node, and the paths that are refused as too long. -/
structure ControlDir (Data : Type) where
  canonical : Bucket Data
  telemetry : Str → Option Data
  tooLong : Str → Bool

variable {Data : Type} (P : Runtime Data) (dir : ControlDir Data)

/-- The files `directory/*.json`, in the order of their names. -/
def jsonFiles (directory : Str) : List Data :=
  dir.canonical.toList.filterMap fun file =>
    if (directory ++ ['/']).isPrefixOf file.1 then
      let name := file.1.drop (directory.length + 1)
      if '/' ∉ name ∧ jsonSuffix.isSuffixOf name then some file.2 else none
    else none

/-- `_read_json`, where every error is caught. -/
def readObject (file : Option Data) : Option Record :=
  match file with
  | none => none
  | some data =>
    match P.loads data with
    | .object r => some r
    | _ => none

/-- The objects among the files of a directory. -/
def records (directory : Str) : List Record :=
  (jsonFiles dir directory).filterMap fun data => readObject P (some data)

/-- The Node records. -/
def nodeRecords : List Record := records P dir "control/nodes"

/-! ## Nodes -/

/-- `str(node.get("node_id", node.get("id", "")))`. -/
def nodeId (node : Record) : Str := P.str (node.get "node_id" (node.get "id" (.str [])))

/-- `node.get("revoked", False)`. -/
def isRevoked (node : Record) : Bool := (node.get "revoked" (.bool false)).truthy

/-- The Node has the role. -/
def hasRole (node : Record) (role : Str) : Bool :=
  match node.get "roles" (.obj (.of [])) with
  | .obj roles => (lookup roles role .null).truthy
  | _ => false

/-- `_is_public_node`. -/
def isPublicNode (node : Record) : Bool := hasRole node "gateway" && hasRole node "relay"

/-- `_is_site_router`. -/
def isSiteRouter (node : Record) : Bool := hasRole node "site_router"

/-- `_canonical_nodes`. -/
def canonicalNodes : List Record :=
  (nodeRecords P dir).filter fun node => strip (nodeId P node) ≠ [] && !isRevoked node

/-- `nodes.get(id)`: the last one with the id. -/
def nodeNamed (id : Str) : Option Record :=
  (canonicalNodes P dir).reverse.find? fun node => nodeId P node = id

/-- `control_dir / "nodes" / f"{node_id}.json"`; an absolute id replaces the directory. -/
def nodePath (id : Str) : Str :=
  if id.head? = some '/' then id ++ jsonSuffix else "control/nodes/" ++ (id ++ jsonSuffix)

/-- `_node_is_revoked`: by the name of the file, which is not too long. -/
def nodeIsRevoked (id : Str) : Bool :=
  match readObject P (dir.canonical[clean (nodePath id)]?) with
  | none => false
  | some node => isRevoked node

/-! ## Routes -/

/-- What is read of a route record. -/
structure RouteRecord where
  cidr : Str
  owner : Str
  record : Record

/-- `route_owner`. -/
def ownerOf (record : Record) : Str :=
  strip (P.str (record.get "owner_node_id" (record.get "node_id" (.str []))))

/-- The body of `route_records`. -/
def routeRecord (record : Record) : Option RouteRecord :=
  match P.ipNetwork4 (strip (P.strField record "cidr")) with
  | none => none
  | some network =>
    if network.bits = 0 ∨ ownerOf P record = [] ∨ nodeIsRevoked P dir (ownerOf P record) then none
    else some ⟨networkText (Cidr.ofPrefix network), ownerOf P record, record⟩

/-- The records that the loop of `route_records` appends. -/
def routeRecords : List RouteRecord :=
  (records P dir "control/routes").filterMap (routeRecord P dir)

/-- A record for whose owner `Path.is_file` raises: the name is too long. -/
def raisesOnOwner (record : Record) : Bool :=
  match P.ipNetwork4 (strip (P.strField record "cidr")) with
  | none => false
  | some network =>
    decide (network.bits ≠ 0) && decide (ownerOf P record ≠ []) && dir.tooLong
      (nodePath (ownerOf P record))

/-- `route_records`.  One call in its loop can raise, always the same error. -/
def readRoutes : Topo (List RouteRecord) :=
  if (records P dir "control/routes").any (raisesOnOwner P dir) then .error (.python .os)
  else .ok (routeRecords P dir)

/-! ## Links -/

/-- A canonical link record; the two ids are in order. -/
structure LinkRecord where
  id : Str
  left : Str
  right : Str
  psk : Str
  record : Record

/-- The two ends of a link, in order. -/
def linkPair (a b : Str) : Option (Str × Str) :=
  let a := strip a
  let b := strip b
  if a = [] ∨ b = [] ∨ a = b then none
  else if (compare a b).isLE then some (a, b) else some (b, a)

/-- `topology_link_id`, of two ids in order. -/
def topologyLinkId (left right : Str) : Str :=
  (P.sha256Text (left ++ Char.ofNat 0 :: right)).take 32

/-- The body of `topology_link_records`. -/
def linkRecord (record : Record) : Option LinkRecord :=
  match linkPair (P.strField record "a_node_id") (P.strField record "b_node_id") with
  | none => none
  | some (left, right) =>
    if P.b64Length (P.strField record "psk") = some 32 then
      some ⟨topologyLinkId P left right, left, right, P.strField record "psk", record⟩
    else none

/-- `topology_link_records`. -/
def linkRecords : List LinkRecord :=
  (records P dir "control/topology/links").filterMap (linkRecord P)

/-! ## Telemetry -/

/-- `read_node_telemetry`; the name of the file is checked. -/
def readNodeTelemetry (id : Str) : Topo (Option Record) :=
  let value := strip id
  if value = [] ∨ '/' ∈ value ∨ '\\' ∈ value ∨ 128 < value.length then
    .error (.topology "invalid Node id for telemetry")
  else .ok (readObject P (dir.telemetry value))

/-- `merge_node_telemetry`, of the one field that the snapshot uses. -/
def mergedLastSeen (node : Record) : Topo Json :=
  if strip (nodeId P node) = [] then .ok (node.get "last_seen" (.int 0))
  else
    match readNodeTelemetry P dir (strip (nodeId P node)) with
    | .error e => .error e
    | .ok none => .ok (node.get "last_seen" (.int 0))
    | .ok (some telemetry) => .ok (telemetry.get "last_seen" (node.get "last_seen" (.int 0)))

/-! ## The snapshot -/

/-- A Node of a snapshot. -/
structure SnapshotNode where
  id : Str
  isPublic : Bool
  lastSeen : Int
  revoked : Bool
  deriving DecidableEq

/-- A number of a link: computed, or as a Node reported it. -/
inductive Metric (F : Type) where
  | float (x : F)
  | json (v : Json)

/-- A link of a snapshot. -/
structure Link (F : Type) where
  start : Str
  target : Str
  health : Str
  rttMs : Metric F
  lossPercent : Metric F
  cost : Metric F
  lastSeen : Json

/-- A route of a snapshot. -/
structure SnapshotRoute where
  cidr : Str
  owner : Str
  updatedAt : Int
  deriving DecidableEq

/-- A snapshot. -/
structure Graph (F : Type) where
  nodes : List SnapshotNode
  links : List (Link F)
  routes : List SnapshotRoute

variable {F : Type} (N : PyFloat F)

/-- The Nodes of the snapshot, revoked ones included. -/
def snapshotNode (node : Record) : Topo (List SnapshotNode) :=
  match mergedLastSeen P dir node with
  | .error e => .error e
  | .ok lastSeen =>
    match converted (P.int (orElse lastSeen (.int 0))) 0 with
    | .error e => .error e
    | .ok _ =>
      if strip (nodeId P node) = [] then .ok []
      else
        match unguarded (P.int (orElse lastSeen (.int 0))) with
        | .error e => .error e
        | .ok seen =>
          .ok [⟨strip (nodeId P node), isPublicNode node, seen, isRevoked node⟩]

/-- An entry of `link_map`. -/
abbrev LinkEntry (F : Type) := (Str × Str) × Link F

/-- A canonical link, in both directions. -/
def canonicalEntries (ids : List Str) (record : LinkRecord) : Topo (List (LinkEntry F)) :=
  if record.left ∉ ids ∨ record.right ∉ ids then .ok []
  else
    match converted (N.float (orElse (record.record.get "cost" (.int 10)) (.int 10)))
      (N.ofInt 10) with
    | .error e => .error e
    | .ok cost =>
      let link (start target : Str) : Link F := ⟨start, target, "unknown",
        .float (N.ofInt 0), .float (N.ofInt 0), .float cost, .int 0⟩
      .ok [((record.left, record.right), link record.left record.right),
        ((record.right, record.left), link record.right record.left)]

/-- `DEFAULT_TELEMETRY_TTL`. -/
def telemetryTTL : Int := 90

/-- A link that a Node reports about itself. -/
def reportedEntry (ids : List Str) (id : Str) (link : Json) : Option (LinkEntry F) :=
  match link with
  | .obj fields =>
    let start := P.str (lookup fields "from" (.str []))
    let target := P.str (lookup fields "to" (.str []))
    if start = id ∧ target ∈ ids then
      some ((id, target), ⟨start, target, P.str (lookup fields "health" (.str "unknown")),
        .json (lookup fields "rtt_ms" (.int 0)), .json (lookup fields "loss_percent" (.int 0)),
        .json (lookup fields "cost" (.int 0)), lookup fields "last_seen" (.int 0)⟩)
    else none
  | _ => none

/-- The links that one Node reports, if its telemetry is fresh. -/
def reportedEntries (now : Int) (ids : List Str) (id : Str) : Topo (List (LinkEntry F)) :=
  match readNodeTelemetry P dir id with
  | .error e => .error e
  | .ok none => .ok []
  | .ok (some telemetry) =>
    if telemetry.toList = [] then .ok []
    else
      match converted (P.int (orElse (telemetry.get "last_seen" (.int 0)) (.int 0))) 0 with
      | .error e => .error e
      | .ok observed =>
        if observed ≤ 0 ∨ telemetryTTL < now - observed then .ok []
        else
          match telemetry.get "links" (.arr []) with
          | .arr links => .ok (links.filterMap (reportedEntry P ids id))
          | _ => .ok []

/-- The order of pairs of texts. -/
def pairLE (a b : Str × Str) : Bool :=
  (compare a.1 b.1 == .lt) || (a.1 = b.1 && (compare a.2 b.2).isLE)

/-- `[link_map[key] for key in sorted(link_map)]`. -/
def linkMap (entries : List (LinkEntry F)) : List (Link F) :=
  ((entries.map Prod.fst).dedup.insertionSort fun a b => pairLE a b = true).filterMap fun key =>
    (entries.reverse.find? fun entry => entry.1 = key).map Prod.snd

/-- The route of a record. -/
def snapshotRoute (route : RouteRecord) : Topo (List SnapshotRoute) :=
  match unguarded (P.int (orElse (route.record.get "updated_at" (.int 0)) (.int 0))) with
  | .error e => .error e
  | .ok updatedAt => .ok [⟨route.cidr, route.owner, updatedAt⟩]

/-- `topology_snapshot`. -/
def topologySnapshot (now : Int) : Topo (Graph F) :=
  match Checked.collect (snapshotNode P dir) (nodeRecords P dir) with
  | .error e => .error e
  | .ok nodes =>
    let ids := nodes.map SnapshotNode.id
    match Checked.collect (canonicalEntries N ids) (linkRecords P dir) with
    | .error e => .error e
    | .ok canonical =>
      match Checked.collect (reportedEntries P dir now ids) (sortedNames ids.dedup) with
      | .error e => .error e
      | .ok reported =>
        match readRoutes P dir with
        | .error e => .error e
        | .ok records =>
          match Checked.collect (snapshotRoute P) records with
          | .error e => .error e
          | .ok routes => .ok ⟨nodes, linkMap (canonical ++ reported), routes⟩

/-! ## Candidate paths -/

/-- `_public_node_ids`. -/
def Graph.publicIds (graph : Graph F) : List Str :=
  (graph.nodes.filter SnapshotNode.isPublic).map SnapshotNode.id

/-- A candidate path. -/
structure TopologyPath (F : Type) where
  id : Str
  owner : Str
  cidr : Str
  hops : List Str
  health : Str
  rttMs : F
  lossPercent : F
  cost : F
  score : F
  lastSeen : Int

/-- `float(x or 0)`; a computed zero stays zero. -/
def Metric.float0 : Metric F → Except PyError F
  | .float x => .ok x
  | .json v => N.float (orElse v (.int 0))

/-- `_bounded_float(x, default=0, minimum=0, maximum=100)`. -/
def Metric.percent (m : Metric F) : Topo F :=
  let bound (value : F) : F :=
    let value := if N.lt (N.ofInt 0) value then value else N.ofInt 0
    if N.lt value (N.ofInt 100) then value else N.ofInt 100
  match m with
  | .float x => .ok (bound x)
  | .json v =>
    match N.float v with
    | .ok value => .ok (bound value)
    | .error e => if isConversion e then .ok (N.ofInt 0) else .error (.python e)

/-- One term of a sum over the links. -/
def addend (field : Link F → Metric F) (link : Link F) : Topo (List F) :=
  match unguarded ((field link).float0 N) with
  | .error e => .error e
  | .ok x => .ok [x]

/-- What the loop reads of a link. -/
structure Measured (F : Type) where
  loss : F
  health : Str
  observed : Int

/-- What the loop over the links reads of one link. -/
def measure (link : Link F) : Topo (List (Measured F)) :=
  match link.lossPercent.percent N with
  | .error e => .error e
  | .ok loss =>
    match unguarded (P.int (orElse link.lastSeen (.int 0))) with
    | .error e => .error e
    | .ok observed => .ok [⟨loss, link.health, observed⟩]

/-- What the loop over the links accumulates. -/
structure Accumulated (F : Type) where
  survival : F
  health : Str
  penalty : F
  lastSeen : Int

/-- The body of the loop. -/
def accumulate (acc : Accumulated F) (m : Measured F) : Accumulated F :=
  let survival := N.mul acc.survival (N.sub (N.ofInt 1) (N.div m.loss (N.ofInt 100)))
  let lastSeen := if acc.lastSeen = 0 then m.observed else min acc.lastSeen m.observed
  if m.health = "failed" then
    ⟨survival, "failed", N.add acc.penalty (N.ofInt 1000000), lastSeen⟩
  else if m.health ≠ "healthy" ∧ acc.health ≠ "failed" then
    ⟨survival, "degraded", N.add acc.penalty (N.ofInt 1000), lastSeen⟩
  else ⟨survival, acc.health, acc.penalty, lastSeen⟩

/-- The text whose digest is the id of a path. -/
def pathText (owner cidr : Str) (hops : List Str) : Str :=
  owner ++ Char.ofNat 0 :: (cidr ++ Char.ofNat 0 :: ['|'].intercalate hops)

/-- The id of a path. -/
def pathId (owner cidr : Str) (hops : List Str) : Str :=
  (P.sha256Text (pathText owner cidr hops)).take 24

/-- The candidate for hops, from the numbers of its links. -/
def candidateOf (hops : List Str) (owner cidr : Str) (rtts costs : List F)
    (measured : List (Measured F)) : TopologyPath F :=
  let rtt := N.sum rtts
  let cost := N.sum costs
  let acc := measured.foldl (accumulate N) ⟨N.ofInt 1, "healthy", N.ofInt 0, 0⟩
  let loss := N.mul (N.sub (N.ofInt 1) acc.survival) (N.ofInt 100)
  { id := pathId P owner cidr hops, owner := owner, cidr := cidr, hops := hops
    health := acc.health, rttMs := N.round3 rtt, lossPercent := N.round3 loss, cost := N.round3 cost
    score := N.round3 (N.add (N.add (N.add cost rtt) (N.mul loss (N.ofInt 10))) acc.penalty)
    lastSeen := acc.lastSeen }

/-- `_candidate_from_links`: two sums, and a loop. -/
def candidateFromLinks (hops : List Str) (links : List (Link F)) (owner cidr : Str) :
    Topo (TopologyPath F) :=
  match Checked.collect (addend N Link.rttMs) links with
  | .error e => .error e
  | .ok rtts =>
    match Checked.collect (addend N Link.cost) links with
    | .error e => .error e
    | .ok costs =>
      match Checked.collect (measure P N) links with
      | .error e => .error e
      | .ok measured => .ok (candidateOf P N hops owner cidr rtts costs measured)

/-- `MAX_PATH_HOPS`. -/
def maxHops : Nat := 3

/-- `MAX_INTERMEDIATE_PUBLIC_NODES`. -/
def maxIntermediate : Nat := 2

/-- How many hops between the ends are Public Nodes. -/
def intermediates (pub : List Str) (hops : List Str) : Nat :=
  hops.tail.dropLast.countP fun hop => hop ∈ pub

/-- `validate_path`. -/
def validatePath (pub : List Str) (path : TopologyPath F) : Topo Unit :=
  if path.hops.length < 2 ∨ maxHops < path.hops.length then
    .error (.topology "path hop count is outside the supported bound")
  else if path.hops.dedup.length ≠ path.hops.length then
    .error (.topology "path contains a routing loop")
  else if path.owner = [] ∨ path.hops.getLast? ≠ some path.owner then
    .error (.topology "path does not terminate at the route owner")
  else if maxIntermediate < intermediates pub path.hops then
    .error (.topology "path exceeds the intermediate Public Node limit")
  else .ok ()

/-- `adjacency.get(node, [])`. -/
def Graph.adjacent (graph : Graph F) (includeFailed : Bool) (node : Str) : List (Link F) :=
  graph.links.filter fun link =>
    (includeFailed || link.health ≠ "failed") && strip link.start ≠ [] &&
      strip link.target ≠ [] && strip link.start ≠ strip link.target && strip link.start = node

/-- A candidate that was validated. -/
def checkedCandidate (pub : List Str) (hops : List Str) (links : List (Link F)) (owner cidr : Str) :
    Topo (List (TopologyPath F)) :=
  match candidateFromLinks P N hops links owner cidr with
  | .error e => .error e
  | .ok candidate =>
    match validatePath pub candidate with
    | .error e => .error e
    | .ok () => .ok [candidate]

/-- `walk`, with `MAX_PATH_HOPS + 1 - len(hops)` as fuel. -/
def walk (graph : Graph F) (includeFailed : Bool) (owner cidr : Str) :
    Nat → Str → List Str → List (Link F) → Topo (List (TopologyPath F))
  | 0, _, _, _ => .ok []
  | fuel + 1, node, hops, links =>
    if node = owner then checkedCandidate P N graph.publicIds hops links owner cidr
    else
      Checked.collect (fun link =>
        if link.target ∈ hops then .ok []
        else if maxIntermediate < intermediates graph.publicIds (hops ++ [link.target]) then .ok []
        else walk graph includeFailed owner cidr fuel link.target (hops ++ [link.target])
          (links ++ [link]))
        (graph.adjacent includeFailed node)

/-- `candidate_paths`. -/
def candidatePaths (graph : Graph F) (source owner cidr : Str) (includeFailed : Bool) :
    Topo (List (TopologyPath F)) :=
  if strip source = [] ∨ strip owner = [] then .error (.topology "source and owner are required")
  else
    match walk P N graph includeFailed (strip owner) cidr maxHops
      (strip source) [strip source] [] with
    | .error e => .error e
    | .ok found => .ok (N.sort (fun path => (path.score, path.rttMs, path.id)) found)

/-! ## Configurations -/

/-- A link of a configuration. -/
structure ConfigLink (F : Type) where
  id : Str
  peer : Str
  psk : Str
  port : Int
  cost : F

/-- The configuration of a Node. -/
structure NodeConfig (F : Type) where
  policyExpiresAt : Int
  overlaySubnet : Str
  localPublic : Bool
  localSiteRouter : Bool
  links : List (ConfigLink F)
  paths : List (TopologyPath F)
  transitPaths : List (TopologyPath F)
  routes : List (Str × Str)

/-- `ROUTED_MESH_PORT`. -/
def routedMeshPort : Int := 24446

/-- `ROUTED_OFFLINE_GRACE`. -/
def routedOfflineGrace : Int := 300

/-- The other end of a link. -/
def LinkRecord.peerOf (record : LinkRecord) (id : Str) : Option Str :=
  if id = record.left then some record.right
  else if id = record.right then some record.left
  else none

/-- The body of the loop over the link records. -/
def configLink (id : Str) (record : LinkRecord) : Topo (List (ConfigLink F)) :=
  match record.peerOf id with
  | none => .ok []
  | some peer =>
    match nodeNamed P dir peer with
    | none => .ok []
    | some _ =>
      match converted (P.int (record.record.get "port" (.int routedMeshPort))) routedMeshPort,
        unguarded (N.float (orElse (record.record.get "cost" (.int 10)) (.int 10))) with
      | .ok port, .ok cost => .ok [⟨record.id, peer, record.psk, port, cost⟩]
      | .error e, _ => .error e
      | _, .error e => .error e

/-- The first route of each owner and CIDR. -/
def distinctRoutes (routes : List SnapshotRoute) : List (Str × Str) :=
  ((routes.map fun route => (route.owner, route.cidr)).reverse.dedup).reverse

/-- The paths of one route, for a Node that may start them. -/
def ownPaths (graph : Graph F) (isPublic : Bool) (id : Str) (route : Str × Str) :
    Topo (List (TopologyPath F)) :=
  if isPublic then candidatePaths P N graph id route.1 route.2 false else .ok []

/-- The paths of one route from one Public Node, if they visit the Node. -/
def passingPaths (graph : Graph F) (id : Str) (route : Str × Str) (source : Str) :
    Topo (List (TopologyPath F)) :=
  match candidatePaths P N graph source route.1 route.2 true with
  | .error e => .error e
  | .ok found => .ok (found.filter fun path => id ∈ path.hops)

/-- The paths of one route, from all Public Nodes. -/
def transitPathsOf (graph : Graph F) (id : Str) (route : Str × Str) :
    Topo (List (TopologyPath F)) :=
  Checked.collect (passingPaths P N graph id route) (sortedNames graph.publicIds.dedup)

/-- Paths that start at the Node, and those that visit it. -/
def pathsOfRoute (graph : Graph F) (isPublic : Bool) (id : Str) (route : Str × Str) :
    Topo (List (List (TopologyPath F) × List (TopologyPath F))) :=
  match ownPaths P N graph isPublic id route, transitPathsOf P N graph id route with
  | .ok own, .ok transit => .ok [(own, transit)]
  | .error e, _ => .error e
  | _, .error e => .error e

/-- The overlay subnet of the configuration. -/
def overlaySubnet : Str :=
  let config := (readObject P (dir.canonical["control/config.json".toList]?)).getD ∅
  match P.ipNetwork4 (P.strField config "wireguard_subnet") with
  | some network => networkText (Cidr.ofPrefix network)
  | none => []

/-- `sorted(links, key=lambda item: item["peer_node_id"])`. -/
def sortedLinks (links : List (ConfigLink F)) : List (ConfigLink F) :=
  links.insertionSort fun a b => (compare a.peer b.peer).isLE = true

/-- `routing_config_for_node`. -/
def routingConfigForNode (now : Int) (id : Str) : Topo (NodeConfig F) :=
  match nodeNamed P dir id with
  | none => .error (.topology "routing config requested for an unknown Node")
  | some node =>
    match Checked.collect (configLink P dir N id) (linkRecords P dir) with
    | .error e => .error e
    | .ok links =>
      match topologySnapshot P dir N now with
      | .error e => .error e
      | .ok graph =>
        match Checked.collect (pathsOfRoute P N graph (isPublicNode node) id)
          (distinctRoutes graph.routes) with
        | .error e => .error e
        | .ok found =>
          .ok
            { policyExpiresAt := now + routedOfflineGrace
              overlaySubnet := overlaySubnet P dir
              localPublic := isPublicNode node
              localSiteRouter := isSiteRouter node
              links := sortedLinks links
              paths := found.flatMap Prod.fst
              transitPaths := found.flatMap Prod.snd
              -- `route_records` did not raise in the snapshot
              routes := (routeRecords P dir).map fun route => (route.cidr, route.owner) }

end Bpc.Deploy
