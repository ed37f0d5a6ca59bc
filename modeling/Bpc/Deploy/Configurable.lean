/-
  WHEN A NODE GETS A CONFIGURATION — one bad value anywhere stops `routing_config_for_node` for ALL
  Nodes.

  `configurable_iff` is exact.  The state machine lets a Public Node own a route, whose way to
  itself has one hop, which `validate_path` refuses: so `public_owner_breaks_config` is no corrupt
  directory.
-/
import Bpc.Deploy.RoutingConfig

namespace Bpc.Deploy

open SlashPath Controlplane Ways Utf8
open Routed (GoString GoLib)

variable {Data : Type} {P : Runtime Data} {dir : ControlDir Data} {F : Type} {N : PyFloat F}
  {L : GoLib F} {now : Int} {id : Str}

/-! ## The snapshot -/

/-- A Node id that is accepted as the name of a telemetry file. -/
def IsTelemetryName (id : Str) : Prop := '/' ∉ id ∧ '\\' ∉ id ∧ id.length ≤ 128

/-- The telemetry of a Node. -/
def telemetryOf (P : Runtime Data) (dir : ControlDir Data) (id : Str) : Option Record :=
  readObject P (dir.telemetry id)

/-- `last_seen` of a Node: from its telemetry, if that has one. -/
def lastSeenOf (P : Runtime Data) (dir : ControlDir Data) (node : Record) : Json :=
  match (if strip (nodeId P node) = [] then none else telemetryOf P dir
    (strip (nodeId P node))) with
  | none => node.get "last_seen" (.int 0)
  | some telemetry => telemetry.get "last_seen" (node.get "last_seen" (.int 0))

theorem readNodeTelemetry_of_known (hid : id ∈ knownIds P dir) (hname : IsTelemetryName id) :
    readNodeTelemetry P dir id = .ok (telemetryOf P dir id) := by
  obtain ⟨hstrip, hne⟩ := strip_of_known hid
  obtain ⟨hslash, hback, hlength⟩ := hname
  unfold readNodeTelemetry
  dsimp only
  rw [hstrip, if_neg]
  · rfl
  · rintro (h | h | h | h)
    · exact hne h
    · exact hslash h
    · exact hback h
    · omega

theorem readNodeTelemetry_returns {found : Option Record} (hid : id ∈ knownIds P dir)
    (h : readNodeTelemetry P dir id = .ok found) : IsTelemetryName id := by
  obtain ⟨hstrip, _⟩ := strip_of_known hid
  unfold readNodeTelemetry at h
  dsimp only at h
  rw [hstrip] at h
  split at h
  · cases h
  rename_i hgood
  simp only [not_or, not_lt] at hgood
  exact ⟨hgood.2.1, hgood.2.2.1, hgood.2.2.2⟩

variable {node : Record}

theorem known_of_node (hnode : node ∈ nodeRecords P dir) (hname : strip (nodeId P node) ≠ []) :
    strip (nodeId P node) ∈ knownIds P dir :=
  List.mem_filter.mpr ⟨List.mem_map_of_mem hnode, by simpa using hname⟩

/-- The last contact of a Node is a number.  A record without an id is skipped after the first
    conversion. -/
def SeenConverts (P : Runtime Data) (dir : ControlDir Data) (node : Record) : Prop :=
  if strip (nodeId P node) = [] then Caught (P.int (orElse (lastSeenOf P dir node) (.int 0)))
  else IsTelemetryName (strip (nodeId P node)) ∧
    Converts (P.int (orElse (lastSeenOf P dir node) (.int 0)))

theorem mergedLastSeen_blank (hblank : strip (nodeId P node) = []) :
    mergedLastSeen P dir node = .ok (lastSeenOf P dir node) := by
  unfold mergedLastSeen lastSeenOf
  rw [if_pos hblank, if_pos hblank]

theorem mergedLastSeen_named (hnode : node ∈ nodeRecords P dir) (hname : strip (nodeId P node) ≠ [])
    (htelemetry : IsTelemetryName (strip (nodeId P node))) :
    mergedLastSeen P dir node = .ok (lastSeenOf P dir node) := by
  unfold mergedLastSeen lastSeenOf
  rw [if_neg hname, if_neg hname, readNodeTelemetry_of_known (known_of_node hnode hname) htelemetry]
  cases telemetryOf P dir (strip (nodeId P node)) <;> rfl

theorem telemetryName_of_merged (hnode : node ∈ nodeRecords P dir)
    (hname : strip (nodeId P node) ≠ []) {seen : Json} (h : mergedLastSeen P dir node = .ok seen) :
    IsTelemetryName (strip (nodeId P node)) := by
  unfold mergedLastSeen at h
  rw [if_neg hname] at h
  cases hread : readNodeTelemetry P dir (strip (nodeId P node)) with
  | error e =>
    rw [hread] at h
    cases h
  | ok found => exact readNodeTelemetry_returns (known_of_node hnode hname) hread

theorem snapshotNode_returns_iff (hnode : node ∈ nodeRecords P dir) :
    (∃ found, snapshotNode P dir node = .ok found) ↔ SeenConverts P dir node := by
  unfold SeenConverts
  by_cases hblank : strip (nodeId P node) = []
  · rw [if_pos hblank, ← converted_returns_iff (d := 0)]
    unfold snapshotNode
    rw [mergedLastSeen_blank hblank]
    dsimp only
    constructor
    · rintro ⟨found, h⟩
      split at h
      · cases h
      rename_i seen hseen
      exact ⟨seen, hseen⟩
    · rintro ⟨seen, hseen⟩
      rw [hseen]
      exact ⟨[], if_pos hblank⟩
  · rw [if_neg hblank]
    constructor
    · rintro ⟨found, h⟩
      unfold snapshotNode at h
      split at h
      · cases h
      rename_i seen hmerged
      have hname := telemetryName_of_merged hnode hblank hmerged
      rw [mergedLastSeen_named hnode hblank hname] at hmerged
      obtain rfl := Except.ok.inj hmerged
      refine ⟨hname, unguarded_returns_iff.mp ?_⟩
      split at h
      · cases h
      rw [if_neg hblank] at h
      split at h
      · cases h
      rename_i seen hseen
      exact ⟨seen, hseen⟩
    · rintro ⟨hname, hconverts⟩
      obtain ⟨guarded, hguarded⟩ := converted_returns_iff (d := 0) |>.mpr hconverts.caught
      obtain ⟨seen, hseen⟩ := unguarded_returns_iff.mpr hconverts
      unfold snapshotNode
      rw [mergedLastSeen_named hnode hblank hname]
      dsimp only
      rw [hguarded]
      dsimp only
      rw [if_neg hblank, hseen]
      exact ⟨_, rfl⟩

theorem canonicalEntries_returns_iff {ids : List Str} {record : LinkRecord} :
    (∃ found, canonicalEntries N ids record = .ok found) ↔
      (record.left ∈ ids → record.right ∈ ids →
        Caught (N.float (orElse (record.record.get "cost" (.int 10)) (.int 10)))) := by
  unfold canonicalEntries
  by_cases hunknown : record.left ∉ ids ∨ record.right ∉ ids
  · rw [if_pos hunknown]
    refine ⟨fun _ hleft hright => ?_, fun _ => ⟨[], rfl⟩⟩
    rcases hunknown with h | h
    · exact absurd hleft h
    · exact absurd hright h
  · rw [if_neg hunknown]
    obtain ⟨hleft, hright⟩ := not_or.mp hunknown
    rw [← converted_returns_iff (d := N.ofInt 10)]
    constructor
    · rintro ⟨found, h⟩ _ _
      split at h
      · cases h
      rename_i cost hcost
      exact ⟨cost, hcost⟩
    · intro h
      obtain ⟨cost, hcost⟩ := h (not_not.mp hleft) (not_not.mp hright)
      rw [hcost]
      exact ⟨_, rfl⟩

/-- Python's `int` of an integer. -/
def IntLiteral (P : Runtime Data) : Prop := ∀ n, P.int (.int n) = .ok n

theorem orElse_zero : orElse (.int 0) (.int 0) = .int 0 := rfl

theorem reportedEntries_returns (hint : IntLiteral P) (hid : id ∈ knownIds P dir)
    (hseen : ∀ node ∈ nodeRecords P dir, SeenConverts P dir node) :
    ∃ found : List (LinkEntry F), reportedEntries P dir now (knownIds P dir) id = .ok found := by
  obtain ⟨hmem, hne⟩ := List.mem_filter.mp hid
  obtain ⟨node, hnode, rfl⟩ := List.mem_map.mp hmem
  have hnamed : strip (nodeId P node) ≠ [] := by simpa using hne
  have hnodeSeen := hseen node hnode
  unfold SeenConverts at hnodeSeen
  rw [if_neg hnamed] at hnodeSeen
  obtain ⟨hname, hconverts⟩ := hnodeSeen
  unfold reportedEntries
  rw [readNodeTelemetry_of_known hid hname]
  cases htelemetry : telemetryOf P dir (strip (nodeId P node)) with
  | none => exact ⟨[], rfl⟩
  | some telemetry =>
    have hseenOf : lastSeenOf P dir node =
        telemetry.get "last_seen" (node.get "last_seen" (.int 0)) := by
      unfold lastSeenOf
      rw [if_neg hnamed, htelemetry]
    have hcaught : Caught (P.int (orElse (telemetry.get "last_seen" (.int 0)) (.int 0))) := by
      rw [hseenOf] at hconverts
      unfold Record.get at hconverts ⊢
      cases hfield : telemetry["last_seen".toList]? with
      | none =>
        rw [Option.getD_none, orElse_zero, hint]
        exact fun e he => by cases he
      | some value =>
        rw [hfield] at hconverts
        exact hconverts.caught
    dsimp only
    split
    · exact ⟨[], rfl⟩
    obtain ⟨observed, hobserved⟩ := converted_returns_iff (d := 0) |>.mpr hcaught
    rw [hobserved]
    dsimp only
    split
    · exact ⟨[], rfl⟩
    split
    · exact ⟨_, rfl⟩
    · exact ⟨_, rfl⟩

variable {route : RouteRecord}

theorem snapshotRoute_returns_iff :
    (∃ found, snapshotRoute P route = .ok found) ↔
      Converts (P.int (orElse (route.record.get "updated_at" (.int 0)) (.int 0))) := by
  rw [← unguarded_returns_iff]
  unfold snapshotRoute
  constructor
  · rintro ⟨found, h⟩
    split at h
    · cases h
    rename_i updatedAt hupdated
    exact ⟨updatedAt, hupdated⟩
  · rintro ⟨updatedAt, hupdated⟩
    rw [hupdated]
    exact ⟨_, rfl⟩

/-- What `topology_snapshot` needs of its inputs. -/
structure SnapshotInputs (P : Runtime Data) (dir : ControlDir Data) (N : PyFloat F) : Prop where
  names : ∀ record ∈ records P dir "control/routes", raisesOnOwner P dir record = false
  seen : ∀ node ∈ nodeRecords P dir, SeenConverts P dir node
  cost : ∀ record ∈ linkRecords P dir, record.left ∈ knownIds P dir →
    record.right ∈ knownIds P dir →
    Caught (N.float (orElse (record.record.get "cost" (.int 10)) (.int 10)))
  updated : ∀ route ∈ routeRecords P dir,
    Converts (P.int (orElse (route.record.get "updated_at" (.int 0)) (.int 0)))

/-- **When a snapshot can be built.** -/
theorem topologySnapshot_returns_iff (hint : IntLiteral P) :
    (∃ graph, topologySnapshot P dir N now = .ok graph) ↔ SnapshotInputs P dir N := by
  constructor
  · rintro ⟨graph, h⟩
    unfold topologySnapshot at h
    split at h
    · cases h
    rename_i nodes hnodes
    have hids : nodes.map SnapshotNode.id = knownIds P dir := snapshot_ids hnodes
    dsimp only at h
    rw [hids] at h
    split at h
    · cases h
    rename_i canonical hcanonical
    split at h
    · cases h
    split at h
    · cases h
    rename_i read hread
    split at h
    · cases h
    rename_i routes hroutes
    obtain ⟨hnames, rfl⟩ := readRoutes_ok.mp hread
    have hnodes' := Checked.collect_returns_iff.mp ⟨nodes, hnodes⟩
    have hcanonical' := Checked.collect_returns_iff.mp ⟨canonical, hcanonical⟩
    have hroutes' := Checked.collect_returns_iff.mp ⟨routes, hroutes⟩
    exact
      { names := hnames
        seen := fun node hnode => (snapshotNode_returns_iff hnode).mp (hnodes' node hnode)
        cost := fun record hrecord => canonicalEntries_returns_iff.mp (hcanonical' record hrecord)
        updated := fun route hroute => snapshotRoute_returns_iff.mp (hroutes' route hroute) }
  · rintro ⟨hnames, hseen, hcost, hupdated⟩
    obtain ⟨nodes, hnodes⟩ := Checked.collect_returns_iff.mpr fun node hnode =>
      (snapshotNode_returns_iff hnode).mpr (hseen node hnode)
    have hids : nodes.map SnapshotNode.id = knownIds P dir := snapshot_ids hnodes
    obtain ⟨canonical, hcanonical⟩ := Checked.collect_returns_iff.mpr fun record hrecord =>
      (canonicalEntries_returns_iff (N := N)).mpr (hcost record hrecord)
    have hreports : ∀ name ∈ sortedNames (knownIds P dir).dedup,
        ∃ found : List (LinkEntry F), reportedEntries P dir now (knownIds P dir) name = .ok found :=
      fun name hname => reportedEntries_returns hint
        (List.mem_dedup.mp (mem_sortedNames.mp hname)) hseen
    obtain ⟨reported, hreported⟩ := Checked.collect_returns_iff.mpr hreports
    obtain ⟨routes, hroutes⟩ := Checked.collect_returns_iff.mpr fun route hroute =>
      snapshotRoute_returns_iff.mpr (hupdated route hroute)
    unfold topologySnapshot
    rw [hnodes]
    dsimp only
    rw [hids, hcanonical]
    dsimp only
    rw [hreported, readRoutes_ok.mpr ⟨hnames, rfl⟩]
    dsimp only
    rw [hroutes]
    exact ⟨_, rfl⟩

/-! ## The numbers of a link -/

theorem IsCanonical.measurable (hint : IntLiteral P) {link : Link F} (h : IsCanonical N link) :
    Measurable P N link := by
  obtain ⟨cost, hcost⟩ := h.cost
  refine ⟨?_, ?_, ?_, ?_⟩
  · rw [h.rtt]
    exact ⟨_, rfl⟩
  · rw [hcost]
    exact ⟨_, rfl⟩
  · rw [h.loss]
    exact fun e he => by cases he
  · rw [h.lastSeen, orElse_zero, hint]
    exact ⟨0, rfl⟩

/-- The reports about the links of a chain of hops have their numbers. -/
def ReportsMeasurable (P : Runtime Data) (dir : ControlDir Data) (N : PyFloat F) (now : Int)
    (hops : List Str) : Prop :=
  ∀ a b, [a, b] <:+: hops → ∀ link, lastReport P dir F now a b = some link → Measurable P N link

variable {graph : Graph F} {source : Str}

theorem Snapshot.measurable_iff (S : Snapshot P dir N now graph) (hint : IntLiteral P)
    {owner : Str} :
    (∀ hops links, ShortWay graph true source owner hops links →
        ∀ link ∈ links, Measurable P N link) ↔
      ∀ hops, MeshWay P dir F now true source owner hops → ReportsMeasurable P dir N now hops := by
  constructor
  · intro h hops hway a b hinfix link hreport
    obtain ⟨links, hshort⟩ := S.meshWay_iff.mp hway
    have hpair := List.IsChain.infix hshort.way.chain hinfix
    obtain ⟨e, he, hadjacent, rfl⟩ := List.isChain_pair.mp hpair
    obtain ⟨hat, _, _⟩ := S.mem_adjacent.mp hadjacent
    have ha := (S.known_of_linkAt (Option.isSome_of_mem hat)).1
    rw [S.linkAt_eq ha, hreport] at hat
    obtain rfl : link = e := Option.some.inj hat
    exact h hops links hshort link he
  · intro h hops links hshort link hlink
    obtain ⟨u, hadjacent, hinfix⟩ := hshort.way.neighbours hlink
    obtain ⟨hat, _, _⟩ := S.mem_adjacent.mp hadjacent
    have hu := (S.known_of_linkAt (Option.isSome_of_mem hat)).1
    rw [S.linkAt_eq hu] at hat
    cases hreport : lastReport P dir F now u link.target with
    | some reported =>
      rw [hreport] at hat
      obtain rfl : reported = link := Option.some.inj hat
      exact h hops (S.meshWay_iff.mpr ⟨links, hshort⟩) _ _ hinfix _ hreport
    | none =>
      rw [hreport, Option.none_or] at hat
      exact (S.canonical_of_linkAt hat).measurable hint

/-! ## The paths -/

theorem passingPaths_returns_iff {route : Str × Str} :
    (∃ found, passingPaths P N graph id route source = .ok found) ↔
      ∃ all, candidatePaths P N graph source route.1 route.2 true = .ok all := by
  constructor
  · rintro ⟨found, h⟩
    obtain ⟨all, hall, _⟩ := mem_passingPaths h
    exact ⟨all, hall⟩
  · rintro ⟨all, hall⟩
    unfold passingPaths
    rw [hall]
    exact ⟨_, rfl⟩

theorem pathsOfRoute_returns_iff {isPublic : Bool} {route : Str × Str} :
    (∃ found, pathsOfRoute P N graph isPublic id route = .ok found) ↔
      (∃ own, ownPaths P N graph isPublic id route = .ok own) ∧
        ∃ transit, transitPathsOf P N graph id route = .ok transit := by
  constructor
  · rintro ⟨found, h⟩
    obtain ⟨own, transit, hown, htransit, _⟩ := pathsOfRoute_ok h
    exact ⟨⟨own, hown⟩, transit, htransit⟩
  · rintro ⟨⟨own, hown⟩, transit, htransit⟩
    unfold pathsOfRoute
    rw [hown, htransit]
    exact ⟨_, rfl⟩

/-- No Public Node owns a route, and reported links have their numbers. -/
structure PathInputs (P : Runtime Data) (dir : ControlDir Data) (N : PyFloat F) (now : Int) :
    Prop where
  owners : ∀ source ∈ publicIds P dir, ∀ route ∈ routeRecords P dir, route.owner ≠ source
  reports : ∀ source ∈ publicIds P dir, ∀ route ∈ routeRecords P dir, ∀ hops,
    MeshWay P dir F now true source route.owner hops → ReportsMeasurable P dir N now hops

theorem Snapshot.candidates_return_iff (S : Snapshot P dir N now graph) (hint : IntLiteral P)
    (hsource : source ∈ publicIds P dir) (hroute : route ∈ routeRecords P dir) :
    (∃ all, candidatePaths P N graph source route.owner route.cidr true = .ok all) ↔
      route.owner ≠ source ∧ ∀ hops, MeshWay P dir F now true source route.owner hops →
        ReportsMeasurable P dir N now hops := by
  obtain ⟨hstrip, hne⟩ := strip_of_known (known_of_public hsource)
  obtain ⟨hstrip', hne'⟩ := owner_of_routeRecord hroute
  rw [candidatePaths_returns_iff, hstrip, hstrip', S.measurable_iff hint]
  constructor
  · rintro ⟨_, _, hdiffer, hall⟩
    exact ⟨hdiffer.symm, hall⟩
  · rintro ⟨hdiffer, hall⟩
    exact ⟨hne, hne', hdiffer.symm, hall⟩

theorem ownPaths_returns (hnamed : nodeNamed P dir id = some node)
    (hall : ∀ source ∈ publicIds P dir,
      ∃ all, candidatePaths P N graph source route.owner route.cidr true = .ok all) :
    ∃ own, ownPaths P N graph (isPublicNode node) id (route.owner, route.cidr) = .ok own := by
  unfold ownPaths
  split
  · rename_i hpublic
    have hsource := public_of_named hnamed hpublic
    obtain ⟨hstrip, _⟩ := strip_of_known (known_of_public hsource)
    obtain ⟨hne, howner, hdiffer, hmeasured⟩ := candidatePaths_returns_iff.mp (hall _ hsource)
    rw [hstrip] at hne hdiffer hmeasured
    exact candidatePaths_returns_iff.mpr ⟨hne, howner, hdiffer, fun hops links hway =>
      hmeasured hops links hway.weaken⟩
  · exact ⟨[], rfl⟩

/-- **When the paths of a Node can be enumerated.** -/
theorem Snapshot.paths_return_iff (S : Snapshot P dir N now graph) (hint : IntLiteral P)
    (hnamed : nodeNamed P dir id = some node) :
    (∃ found, Checked.collect (pathsOfRoute P N graph (isPublicNode node) id)
      (distinctRoutes graph.routes) = .ok found) ↔ PathInputs P dir N now := by
  have hsources : ∀ source,
      source ∈ sortedNames graph.publicIds.dedup ↔ source ∈ publicIds P dir := by
    intro source
    rw [mem_sortedNames, List.mem_dedup, S.publicIds_eq]
  rw [Checked.collect_returns_iff]
  constructor
  · intro h
    have hcandidates : ∀ source ∈ publicIds P dir, ∀ route ∈ routeRecords P dir,
        ∃ all, candidatePaths P N graph source route.owner route.cidr true = .ok all := by
      intro source hsource route hroute
      obtain ⟨_, htransit⟩ := pathsOfRoute_returns_iff.mp
        (h (route.owner, route.cidr) (S.mem_distinctRoutes.mpr ⟨route, hroute, rfl, rfl⟩))
      exact passingPaths_returns_iff.mp
        (Checked.collect_returns_iff.mp htransit source ((hsources source).mpr hsource))
    exact
      { owners := fun source hsource route hroute =>
          ((S.candidates_return_iff hint hsource hroute).mp
            (hcandidates source hsource route hroute)).1
        reports := fun source hsource route hroute =>
          ((S.candidates_return_iff hint hsource hroute).mp
            (hcandidates source hsource route hroute)).2 }
  · rintro ⟨howners, hreports⟩ ⟨owner, cidr⟩ hmem
    obtain ⟨route, hroute, rfl, rfl⟩ := S.mem_distinctRoutes.mp hmem
    have hcandidates : ∀ source ∈ publicIds P dir,
        ∃ all, candidatePaths P N graph source route.owner route.cidr true = .ok all :=
      fun source hsource => (S.candidates_return_iff hint hsource hroute).mpr
        ⟨howners source hsource route hroute, hreports source hsource route hroute⟩
    refine pathsOfRoute_returns_iff.mpr ⟨ownPaths_returns hnamed hcandidates, ?_⟩
    exact Checked.collect_returns_iff.mpr fun source hsource =>
      passingPaths_returns_iff.mpr (hcandidates source ((hsources source).mp hsource))

/-! ## The configuration -/

theorem configLink_returns_iff {record : LinkRecord} (hvalid : ValidLink P L record) :
    (∃ found, configLink P dir N id record = .ok found) ↔
      ((knownPeer P dir id record).isSome →
        Converts (N.float (orElse (record.record.get "cost" (.int 10)) (.int 10)))) := by
  obtain ⟨port, hport, _⟩ := hvalid.port
  unfold knownPeer configLink
  rw [hport]
  cases hpeer : record.peerOf id with
  | none => exact ⟨fun _ h => (by cases h), fun _ => ⟨[], rfl⟩⟩
  | some peer =>
    dsimp only
    cases hnamed : nodeNamed P dir peer with
    | none => exact ⟨fun _ h => absurd h (by simp [Option.filter, hnamed]), fun _ => ⟨[], rfl⟩⟩
    | some node =>
      rw [← unguarded_returns_iff]
      dsimp only
      constructor
      · rintro ⟨found, h⟩ _
        split at h
        · rename_i cost _ hcost
          exact ⟨_, hcost⟩
        · cases h
        · cases h
      · intro h
        obtain ⟨cost, hcost⟩ := h (by simp [Option.filter, hnamed])
        rw [hcost]
        exact ⟨_, rfl⟩

/-- What is needed for a Node to get a configuration that it accepts. -/
structure Configurable (P : Runtime Data) (dir : ControlDir Data) (N : PyFloat F) (now : Int)
    (id : Str) : Prop where
  snapshot : SnapshotInputs P dir N
  paths : PathInputs P dir N now
  costs : ∀ record ∈ linkRecords P dir, (knownPeer P dir id record).isSome →
    Converts (N.float (orElse (record.record.get "cost" (.int 10)) (.int 10)))
  peers : ((linkRecords P dir).filterMap (knownPeer P dir id)).Nodup

/-- **When a Node gets a configuration and accepts it.** -/
theorem configurable_iff (hint : IntLiteral P)
    (hlinks : ∀ record ∈ linkRecords P dir, ValidLink P L record) {node : Record}
    (hnamed : nodeNamed P dir id = some node) :
    (∃ config, routingConfigForNode P dir N now id = .ok config ∧
        (goConfig config).validate L (utf8 id) = .ok ()) ↔ Configurable P dir N now id := by
  constructor
  · rintro ⟨config, hconfig, hvalid⟩
    obtain ⟨I⟩ := Issue.of_returned hconfig
    obtain rfl := Option.some.inj (I.named.symm.trans hnamed)
    have hsnapshot : ∃ graph, topologySnapshot P dir N now = .ok graph := by
      unfold routingConfigForNode at hconfig
      rw [I.named] at hconfig
      dsimp only at hconfig
      rw [I.links_eq] at hconfig
      dsimp only at hconfig
      split at hconfig
      · cases hconfig
      rename_i graph hgraph
      exact ⟨graph, hgraph⟩
    exact
      { snapshot := (topologySnapshot_returns_iff hint).mp hsnapshot
        paths := (I.snapshot.paths_return_iff hint I.named).mp ⟨_, I.found_eq⟩
        costs := fun record hrecord => (configLink_returns_iff (hlinks record hrecord)).mp
          (Checked.collect_returns_iff.mp ⟨_, I.links_eq⟩ record hrecord)
        peers := (I.validate_iff hlinks).mp hvalid }
  · rintro ⟨hsnapshot, hpaths, hcosts, hpeers⟩
    obtain ⟨graph, hgraph⟩ : ∃ graph, topologySnapshot P dir N now = .ok graph :=
      (topologySnapshot_returns_iff hint).mpr hsnapshot
    obtain ⟨S⟩ := Snapshot.of_returned hgraph
    obtain ⟨found, hfound⟩ := (S.paths_return_iff hint hnamed).mpr hpaths
    have hlink : ∀ record ∈ linkRecords P dir, ∃ found, configLink P dir N id record = .ok found :=
      fun record hrecord =>
        (configLink_returns_iff (hlinks record hrecord)).mpr (hcosts record hrecord)
    obtain ⟨links, hlinksOk⟩ := Checked.collect_returns_iff.mpr hlink
    obtain ⟨config, hconfig⟩ : ∃ config, routingConfigForNode P dir N now id = .ok config := by
      unfold routingConfigForNode
      rw [hnamed]
      dsimp only
      rw [hlinksOk]
      dsimp only
      rw [hgraph]
      dsimp only
      rw [hfound]
      exact ⟨_, rfl⟩
    obtain ⟨I⟩ := Issue.of_returned hconfig
    exact ⟨config, hconfig, (I.validate_iff hlinks).mpr hpeers⟩

/-! ## A Public Node that owns a route -/

theorem meshRuntime_int : IntLiteral meshRuntime := fun _ => rfl

/-- The links of a directory have valid ports and keys, as a test. -/
def linksTest (dir : ControlDir Loaded) : Bool :=
  (linkRecords meshRuntime dir).all fun record =>
    (match meshRuntime.int (record.record.get "port" (.int routedMeshPort)) with
      | .ok port => decide (1024 ≤ port ∧ port ≤ 65535)
      | .error _ => false) &&
    decide ((Routed.plainLibrary.decodeBase64 (Routed.trimSpace (utf8 record.psk))).map
      List.length =
      some 32)

theorem validLinks_of_test {dir : ControlDir Loaded} (h : linksTest dir = true) :
    ∀ record ∈ linkRecords meshRuntime dir, ValidLink meshRuntime Routed.plainLibrary record := by
  intro record hrecord
  obtain ⟨hport, hkey⟩ := Bool.and_eq_true_iff.mp (List.all_eq_true.mp h record hrecord)
  refine ⟨?_, decide_eq_true_iff.mp hkey⟩
  split at hport
  · rename_i port heq
    exact ⟨port, heq, of_decide_eq_true hport⟩
  · cases hport

/-- `a` is a Public Node and a site router, and owns a route. -/
def publicOwnerDir : ControlDir Loaded :=
  meshDir
    [meshFile "control/nodes" "a"
        (meshNode "a" (publicRoles ++ siteRoles) ["10.1.0.0/16"] false),
      meshFile "control/nodes" "b" (meshNode "b" publicRoles [] false),
      meshFile "control/topology/links" "ab" (meshLink "a" "b"),
      meshFile "control/routes" "r" (meshRoute "10.1.0.0/16" "a")]
    []

/-- The configuration of a Node fails on the number of hops of a path. -/
def hopsTest (id : Str) : Bool :=
  match routingConfigForNode meshRuntime publicOwnerDir plainFloat 100 id with
  | .error (.topology message) =>
    decide (message = ("path hop count is outside the supported bound" : Str))
  | _ => false

/-- **One role combination breaks the configuration of every Node.** -/
theorem public_owner_breaks_config :
    RouteOwnershipInvariant meshRuntime.codec publicOwnerDir.canonical ∧
      (∀ record ∈ linkRecords meshRuntime publicOwnerDir,
        ValidLink meshRuntime Routed.plainLibrary record) ∧
      ∀ id ∈ ["a".toList, "b".toList], (nodeNamed meshRuntime publicOwnerDir id).isSome ∧
        routingConfigForNode meshRuntime publicOwnerDir plainFloat 100 id =
          .error (.topology "path hop count is outside the supported bound") := by
  have hinvariant : RouteOwnershipInvariant meshRuntime.codec
    (applyOps publicOwnerDir.canonical []) :=
    validate_sound (by decide +kernel)
  refine ⟨hinvariant, validLinks_of_test (by decide +kernel), ?_⟩
  have htest : ([("a".toList : Str), "b".toList].all fun id =>
      (nodeNamed meshRuntime publicOwnerDir id).isSome && hopsTest id) = true := by decide +kernel
  intro id hid
  obtain ⟨hnamed, hraised⟩ := Bool.and_eq_true_iff.mp (List.all_eq_true.mp htest id hid)
  refine ⟨hnamed, ?_⟩
  unfold hopsTest at hraised
  split at hraised
  · rename_i message heq
    rw [heq, of_decide_eq_true hraised]
  · cases hraised

/-- The configuration of `a` is computed and accepted. -/
def joinedTest : Bool :=
  match routingConfigForNode meshRuntime joinedDir plainFloat 100 "a" with
  | .ok config => match (goConfig config).validate Routed.plainLibrary (utf8 "a") with
    | .ok _ => true
    | .error _ => false
  | .error _ => false

/-- Where the owner is no Public Node, `a` gets a configuration. -/
theorem configurable_joined :
    (∃ config, routingConfigForNode meshRuntime joinedDir plainFloat 100 "a" = .ok config ∧
        (goConfig config).validate Routed.plainLibrary (utf8 "a") = .ok ()) ∧
      Configurable meshRuntime joinedDir plainFloat 100 "a" := by
  have htest : joinedTest = true := by decide +kernel
  have hreturned : ∃ config,
      routingConfigForNode meshRuntime joinedDir plainFloat 100 "a" = .ok config ∧
        (goConfig config).validate Routed.plainLibrary (utf8 "a") = .ok () := by
    unfold joinedTest at htest
    split at htest
    · rename_i config hconfig
      split at htest
      · rename_i hvalid
        exact ⟨config, hconfig, hvalid⟩
      · cases htest
    · cases htest
  obtain ⟨node, hnamed⟩ : ∃ node, nodeNamed meshRuntime joinedDir "a" = some node :=
    Option.isSome_iff_exists.mp (by decide +kernel)
  exact ⟨hreturned,
    (configurable_iff meshRuntime_int (validLinks_of_test (by decide +kernel)) hnamed).mp hreturned⟩

end Bpc.Deploy
