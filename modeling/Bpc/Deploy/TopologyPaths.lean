/-
  ISSUED PATHS — which paths a Node gets, and whether they run over trusted links only.

  THE LAW FAILS in three ways: a link that is only reported is used, a revoked Node stays in the
  graph, and a Node in the middle need not be public.  Nothing else can go wrong
  (`issued_paths_trusted_iff`); `revoked_hop_issued` is a directory where two of them do.
-/
import Bpc.Deploy.TopologyGraph
import Bpc.Deploy.PlainMesh

namespace Bpc.Deploy

open SlashPath Controlplane Ways

variable {Data : Type} {P : Runtime Data} {dir : ControlDir Data} {F : Type} {N : PyFloat F}
    {now : Int}

/-! ## The paths of a configuration -/

variable {route : RouteRecord}

theorem owner_of_routeRecord (h : route ∈ routeRecords P dir) :
    strip route.owner = route.owner ∧ route.owner ≠ [] := by
  obtain ⟨record, _, hrecord⟩ := List.mem_filterMap.mp h
  unfold routeRecord at hrecord
  split at hrecord
  · cases hrecord
  split at hrecord
  · cases hrecord
  rename_i hgood
  obtain rfl := Option.some.inj hrecord
  exact ⟨strip_strip _, (not_or.mp (not_or.mp hgood).2).1⟩

variable {graph : Graph F} {owner : Str}

theorem Snapshot.mem_distinctRoutes (S : Snapshot P dir N now graph) {cidr : Str} :
    (owner, cidr) ∈ distinctRoutes graph.routes ↔
      ∃ route ∈ routeRecords P dir, route.owner = owner ∧ route.cidr = cidr := by
  unfold distinctRoutes
  rw [List.mem_reverse, List.mem_dedup, List.mem_reverse, S.routes_eq, List.mem_map]
  simp only [Prod.mk.injEq]

/-- What a configuration that was returned is made of. -/
structure Issue (P : Runtime Data) (dir : ControlDir Data) (N : PyFloat F) (now : Int) (id : Str)
    (config : NodeConfig F) where
  node : Record
  links : List (ConfigLink F)
  graph : Graph F
  snapshot : Snapshot P dir N now graph
  found : List (List (TopologyPath F) × List (TopologyPath F))
  named : nodeNamed P dir id = some node
  links_eq : Checked.collect (configLink P dir N id) (linkRecords P dir) = .ok links
  found_eq : Checked.collect (pathsOfRoute P N graph (isPublicNode node) id)
    (distinctRoutes graph.routes) = .ok found
  config_eq : config =
    { policyExpiresAt := now + routedOfflineGrace
      overlaySubnet := overlaySubnet P dir
      localPublic := isPublicNode node
      localSiteRouter := isSiteRouter node
      links := sortedLinks links
      paths := found.flatMap Prod.fst
      transitPaths := found.flatMap Prod.snd
      routes := (routeRecords P dir).map fun route => (route.cidr, route.owner) }

variable {id : Str} {config : NodeConfig F}

theorem Issue.of_returned (h : routingConfigForNode P dir N now id = .ok config) :
    Nonempty (Issue P dir N now id config) := by
  unfold routingConfigForNode at h
  split at h
  · cases h
  rename_i node hnode
  split at h
  · cases h
  rename_i links hlinks
  split at h
  · cases h
  rename_i graph hgraph
  split at h
  · cases h
  rename_i found hfound
  obtain ⟨S⟩ := Snapshot.of_returned hgraph
  exact ⟨⟨node, links, graph, S, found, hnode, hlinks, hfound, (Except.ok.inj h).symm⟩⟩

theorem pathsOfRoute_ok {isPublic : Bool} {route : Str × Str}
    {found : List (List (TopologyPath F) × List (TopologyPath F))}
    (h : pathsOfRoute P N graph isPublic id route = .ok found) :
    ∃ own transit, ownPaths P N graph isPublic id route = .ok own ∧
      transitPathsOf P N graph id route = .ok transit ∧ found = [(own, transit)] := by
  unfold pathsOfRoute at h
  split at h
  · rename_i own transit hown htransit
    exact ⟨own, transit, hown, htransit, (Except.ok.inj h).symm⟩
  · cases h
  · cases h

section Issue

variable {id : Str} {config : NodeConfig F} (I : Issue P dir N now id config)

theorem Issue.mem_found {pair : List (TopologyPath F) × List (TopologyPath F)} :
    pair ∈ I.found ↔ ∃ route ∈ routeRecords P dir,
      ownPaths P N I.graph (isPublicNode I.node) id (route.owner, route.cidr) = .ok pair.1 ∧
        transitPathsOf P N I.graph id (route.owner, route.cidr) = .ok pair.2 := by
  rw [Checked.mem_collect I.found_eq]
  constructor
  · rintro ⟨⟨owner, cidr⟩, hroute, found, hfound, hpair⟩
    obtain ⟨own, transit, hown, htransit, rfl⟩ := pathsOfRoute_ok hfound
    obtain rfl := List.mem_singleton.mp hpair
    obtain ⟨route, hmem, rfl, rfl⟩ := I.snapshot.mem_distinctRoutes.mp hroute
    exact ⟨route, hmem, hown, htransit⟩
  · rintro ⟨route, hmem, hown, htransit⟩
    refine ⟨_, I.snapshot.mem_distinctRoutes.mpr ⟨route, hmem, rfl, rfl⟩, [pair], ?_,
      List.mem_singleton_self _⟩
    unfold pathsOfRoute
    rw [hown, htransit]

theorem Issue.exists_found (hroute : route ∈ routeRecords P dir) :
    ∃ own transit, (own, transit) ∈ I.found ∧
      ownPaths P N I.graph (isPublicNode I.node) id (route.owner, route.cidr) = .ok own ∧
        transitPathsOf P N I.graph id (route.owner, route.cidr) = .ok transit := by
  obtain ⟨found, hfound⟩ := Checked.collect_returns_iff.mp ⟨_, I.found_eq⟩ _
    (I.snapshot.mem_distinctRoutes.mpr ⟨route, hroute, rfl, rfl⟩)
  obtain ⟨own, transit, hown, htransit, rfl⟩ := pathsOfRoute_ok hfound
  exact ⟨own, transit, I.mem_found.mpr ⟨route, hroute, hown, htransit⟩, hown, htransit⟩

variable {source : Str}

theorem mem_passingPaths {route : Str × Str} {found : List (TopologyPath F)}
    (h : passingPaths P N graph id route source = .ok found) :
    ∃ all, candidatePaths P N graph source route.1 route.2 true = .ok all ∧
      found = all.filter fun path => id ∈ path.hops := by
  unfold passingPaths at h
  split at h
  · cases h
  rename_i all hall
  exact ⟨all, hall, (Except.ok.inj h).symm⟩

theorem Issue.mem_paths {path : TopologyPath F} :
    path ∈ config.paths ↔ isPublicNode I.node = true ∧ ∃ route ∈ routeRecords P dir, ∃ hops links,
      ShortWay I.graph false (strip id) route.owner hops links ∧
        candidateFromLinks P N hops links route.owner route.cidr = .ok path := by
  have hpaths : config.paths = I.found.flatMap Prod.fst := congrArg NodeConfig.paths I.config_eq
  rw [hpaths, List.mem_flatMap]
  constructor
  · rintro ⟨⟨own, transit⟩, hpair, hpath⟩
    obtain ⟨route, hroute, hown, _⟩ := I.mem_found.mp hpair
    unfold ownPaths at hown
    split at hown
    · rename_i hpublic
      obtain ⟨hops, links, hway, hcandidate⟩ := (mem_candidatePaths hown).mp hpath
      rw [(owner_of_routeRecord hroute).1] at hway hcandidate
      exact ⟨hpublic, route, hroute, hops, links, hway, hcandidate⟩
    · obtain rfl := Except.ok.inj hown
      cases hpath
  · rintro ⟨hpublic, route, hroute, hops, links, hway, hcandidate⟩
    obtain ⟨own, transit, hpair, hown, _⟩ := I.exists_found hroute
    refine ⟨_, hpair, ?_⟩
    unfold ownPaths at hown
    rw [if_pos hpublic] at hown
    refine (mem_candidatePaths hown).mpr ⟨hops, links, ?_⟩
    rw [(owner_of_routeRecord hroute).1]
    exact ⟨hway, hcandidate⟩

theorem Issue.mem_transitPaths {path : TopologyPath F} :
    path ∈ config.transitPaths ↔ ∃ route ∈ routeRecords P dir, ∃ source ∈ publicIds P dir,
      ∃ hops links, ShortWay I.graph true source route.owner hops links ∧ id ∈ hops ∧
        candidateFromLinks P N hops links route.owner route.cidr = .ok path := by
  have hpaths : config.transitPaths = I.found.flatMap Prod.snd :=
    congrArg NodeConfig.transitPaths I.config_eq
  have hsources : ∀ source, source ∈ sortedNames I.graph.publicIds.dedup ↔
    source ∈ publicIds P dir := by
    intro source
    rw [mem_sortedNames, List.mem_dedup, I.snapshot.publicIds_eq]
  rw [hpaths, List.mem_flatMap]
  constructor
  · rintro ⟨⟨own, transit⟩, hpair, hpath⟩
    obtain ⟨route, hroute, _, htransit⟩ := I.mem_found.mp hpair
    obtain ⟨source, hsource, found, hfound, hmem⟩ := (Checked.mem_collect htransit).mp hpath
    obtain ⟨all, hall, rfl⟩ := mem_passingPaths hfound
    obtain ⟨hmem, hvisits⟩ := List.mem_filter.mp hmem
    obtain ⟨hops, links, hway, hcandidate⟩ := (mem_candidatePaths hall).mp hmem
    have hknown := strip_of_known (known_of_public ((hsources source).mp hsource))
    rw [(owner_of_routeRecord hroute).1] at hway hcandidate
    rw [hknown.1] at hway
    rw [(candidateFromLinks_ok hcandidate).2.2.2, decide_eq_true_iff] at hvisits
    exact ⟨route, hroute, source, (hsources source).mp hsource, hops, links, hway, hvisits,
      hcandidate⟩
  · rintro ⟨route, hroute, source, hsource, hops, links, hway, hvisits, hcandidate⟩
    obtain ⟨own, transit, hpair, _, htransit⟩ := I.exists_found hroute
    refine ⟨_, hpair, ?_⟩
    have hmem := (hsources source).mpr hsource
    obtain ⟨found, hfound⟩ := Checked.collect_returns_iff.mp ⟨_, htransit⟩ source hmem
    refine (Checked.mem_collect htransit).mpr ⟨source, hmem, found, hfound, ?_⟩
    obtain ⟨all, hall, rfl⟩ := mem_passingPaths hfound
    refine List.mem_filter.mpr ⟨(mem_candidatePaths hall).mpr ⟨hops, links, ?_⟩, ?_⟩
    · rw [(owner_of_routeRecord hroute).1, (strip_of_known (known_of_public hsource)).1]
      exact ⟨hway, hcandidate⟩
    · rw [(candidateFromLinks_ok hcandidate).2.2.2, decide_eq_true_iff]
      exact hvisits

theorem Issue.candidates_returned (hroute : route ∈ routeRecords P dir)
    (hsource : source ∈ publicIds P dir) :
    source ≠ route.owner ∧ ∀ hops links, ShortWay I.graph true source route.owner hops links →
      ∀ link ∈ links, Measurable P N link := by
  obtain ⟨own, transit, _, _, htransit⟩ := I.exists_found hroute
  have hmem : source ∈ sortedNames I.graph.publicIds.dedup := by
    rw [mem_sortedNames, List.mem_dedup, I.snapshot.publicIds_eq]
    exact hsource
  obtain ⟨found, hfound⟩ := Checked.collect_returns_iff.mp ⟨_, htransit⟩ source hmem
  obtain ⟨all, hall, _⟩ := mem_passingPaths hfound
  obtain ⟨_, _, hne, hmeasured⟩ := candidatePaths_returns_iff.mp ⟨all, hall⟩
  dsimp only at hne hmeasured
  rw [(owner_of_routeRecord hroute).1, (strip_of_known (known_of_public hsource)).1]
    at hne hmeasured
  exact ⟨hne, hmeasured⟩

theorem Issue.exists_candidate {includeFailed : Bool} {hops : List Str} {links : List (Link F)}
    (hroute : route ∈ routeRecords P dir) (hsource : source ∈ publicIds P dir)
    (hway : ShortWay I.graph includeFailed source route.owner hops links) :
    ∃ path, candidateFromLinks P N hops links route.owner route.cidr = .ok path :=
  candidateFromLinks_returns_iff.mpr ((I.candidates_returned hroute hsource).2 hops links
    hway.weaken)

end Issue

/-! ## Trust -/

/-- A path that runs over trusted links only. -/
structure Trusted (P : Runtime Data) (dir : ControlDir Data) (path : TopologyPath F) : Prop where
  standing : ∀ hop ∈ path.hops, hop ∈ knownIds P dir ∧ ¬ Revoked P dir hop
  source : ∃ s ∈ publicIds P dir, path.hops.head? = some s
  middle : ∀ hop ∈ path.hops.tail.dropLast, hop ∈ publicIds P dir
  owner : ∃ route ∈ routeRecords P dir,
    route.owner = path.owner ∧ route.cidr = path.cidr ∧ path.hops.getLast? = some route.owner
  nodup : path.hops.Nodup
  short : path.hops.length ≤ maxHops
  joined : path.hops.IsChain (Joined P dir)

/-- The hops that a Node is told about: those that visit it, and, for a Public Node, those that
    start at it and did not fail. -/
structure ToldTo (P : Runtime Data) (dir : ControlDir Data) (F : Type) (now : Int) (id : Str)
    (hops : List Str) : Prop where
  way : ∃ source ∈ publicIds P dir, ∃ route ∈ routeRecords P dir,
    MeshWay P dir F now true source route.owner hops
  reason : id ∈ hops ∨ (∃ node, nodeNamed P dir id = some node ∧ isPublicNode node = true) ∧
    hops.head? = some (strip id) ∧ hops.IsChain (Step P dir F now false)

/-- None is revoked, those in the middle are public, and every link has a record. -/
structure SafeHops (P : Runtime Data) (dir : ControlDir Data) (hops : List Str) : Prop where
  standing : ∀ hop ∈ hops, ¬ Revoked P dir hop
  middle : ∀ hop ∈ hops.tail.dropLast, hop ∈ publicIds P dir
  joined : hops.IsChain (Joined P dir)

theorem Step.weaken {includeFailed : Bool} {a b : Str} (h : Step P dir F now includeFailed a b) :
    Step P dir F now true a b :=
  ⟨h.1, .inl rfl⟩

theorem MeshWay.weaken {includeFailed : Bool} {source : Str} {hops : List Str}
    (h : MeshWay P dir F now includeFailed source owner hops) :
    MeshWay P dir F now true source owner hops :=
  ⟨h.head, h.last, h.nodup, h.short, h.steps.imp fun _ _ => Step.weaken⟩

theorem MeshWay.known {includeFailed : Bool} {source : Str} {hops : List Str}
    (h : MeshWay P dir F now includeFailed source owner hops) (hsource : source ∈ knownIds P dir) :
    ∀ hop ∈ hops, hop ∈ knownIds P dir := by
  obtain ⟨hhead, _, _, _, hsteps⟩ := h
  clear * - hhead hsteps hsource
  induction hops generalizing source with
  | nil => exact fun hop hmem => by cases hmem
  | cons first hops ih =>
    obtain rfl := Option.some.inj hhead
    refine List.forall_mem_cons.mpr ⟨hsource, ?_⟩
    cases hops with
    | nil => exact fun hop hmem => by cases hmem
    | cons second hops =>
      obtain ⟨hstep, hrest⟩ := List.isChain_cons_cons.mp hsteps
      exact ih hstep.1.target rfl hrest

theorem public_of_named {node : Record} (hnamed : nodeNamed P dir id = some node)
    (hpublic : isPublicNode node = true) : strip id ∈ publicIds P dir := by
  have hmem : node ∈ canonicalNodes P dir :=
    List.mem_reverse.mp (List.mem_of_find?_eq_some hnamed)
  have hid : nodeId P node = id := by simpa using List.find?_some hnamed
  obtain ⟨hnode, hgood⟩ := List.mem_filter.mp hmem
  rw [Bool.and_eq_true, decide_eq_true_iff, hid] at hgood
  refine List.mem_filter.mpr ⟨List.mem_map.mpr ⟨node, List.mem_filter.mpr ⟨hnode, hpublic⟩, ?_⟩, ?_⟩
  · rw [hid]
  · simpa using hgood.1

theorem Issue.path_iff_toldTo (I : Issue P dir N now id config) {hops : List Str} :
    (∃ path ∈ config.paths ++ config.transitPaths, path.hops = hops) ↔
      ToldTo P dir F now id hops := by
  have S := I.snapshot
  constructor
  · rintro ⟨path, hpath, rfl⟩
    rcases List.mem_append.mp hpath with hpath | hpath
    · obtain ⟨hpublic, route, hroute, hops, links, hway, hcandidate⟩ := I.mem_paths.mp hpath
      rw [(candidateFromLinks_ok hcandidate).2.2.2]
      have hmesh := S.meshWay_iff.mpr ⟨links, hway⟩
      exact ⟨⟨_, public_of_named I.named hpublic, route, hroute, hmesh.weaken⟩,
        .inr ⟨⟨I.node, I.named, hpublic⟩, hmesh.head, hmesh.steps⟩⟩
    · obtain ⟨route, hroute, source, hsource, hops, links, hway, hvisits, hcandidate⟩ :=
        I.mem_transitPaths.mp hpath
      rw [(candidateFromLinks_ok hcandidate).2.2.2]
      exact ⟨⟨source, hsource, route, hroute, S.meshWay_iff.mpr ⟨links, hway⟩⟩, .inl hvisits⟩
  · rintro ⟨⟨source, hsource, route, hroute, hway⟩, hreason⟩
    rcases hreason with hvisits | ⟨⟨node, hnamed, hpublic⟩, hhead, hsteps⟩
    · obtain ⟨links, hshort⟩ := S.meshWay_iff.mp hway
      obtain ⟨path, hpath⟩ := I.exists_candidate hroute hsource hshort
      exact ⟨path, List.mem_append_right _ (I.mem_transitPaths.mpr
        ⟨route, hroute, source, hsource, hops, links, hshort, hvisits, hpath⟩),
        (candidateFromLinks_ok hpath).2.2.2⟩
    · obtain rfl := Option.some.inj (I.named.symm.trans hnamed)
      have hown : MeshWay P dir F now false (strip id) route.owner hops :=
        ⟨hhead, hway.last, hway.nodup, hway.short, hsteps⟩
      obtain ⟨links, hshort⟩ := S.meshWay_iff.mp hown
      obtain ⟨path, hpath⟩ := I.exists_candidate hroute (public_of_named hnamed hpublic) hshort
      exact ⟨path, List.mem_append_left _ (I.mem_paths.mpr
        ⟨hpublic, route, hroute, hops, links, hshort, hpath⟩), (candidateFromLinks_ok hpath).2.2.2⟩

/-- Where a path of a configuration comes from. -/
structure Origin (P : Runtime Data) (dir : ControlDir Data) (now : Int) (path : TopologyPath F)
    (source : Str) (route : RouteRecord) : Prop where
  starts : source ∈ publicIds P dir
  listed : route ∈ routeRecords P dir
  way : MeshWay P dir F now true source route.owner path.hops
  id : path.id = pathId P route.owner route.cidr path.hops
  owner : path.owner = route.owner
  cidr : path.cidr = route.cidr

theorem Issue.origin (I : Issue P dir N now id config) {path : TopologyPath F}
    (hpath : path ∈ config.paths ++ config.transitPaths) :
    ∃ source route, Origin P dir now path source route := by
  have S := I.snapshot
  rcases List.mem_append.mp hpath with hpath | hpath
  · obtain ⟨hpublic, route, hroute, hops, links, hway, hcandidate⟩ := I.mem_paths.mp hpath
    obtain ⟨hid, howner, hcidr, rfl⟩ := candidateFromLinks_ok hcandidate
    exact ⟨_, route, public_of_named I.named hpublic, hroute,
      (S.meshWay_iff.mpr ⟨links, hway⟩).weaken, hid, howner, hcidr⟩
  · obtain ⟨route, hroute, source, hsource, hops, links, hway, _, hcandidate⟩ :=
      I.mem_transitPaths.mp hpath
    obtain ⟨hid, howner, hcidr, rfl⟩ := candidateFromLinks_ok hcandidate
    exact ⟨source, route, hsource, hroute, S.meshWay_iff.mpr ⟨links, hway⟩, hid, howner, hcidr⟩

theorem Issue.trusted_iff (I : Issue P dir N now id config) {path : TopologyPath F}
    (hpath : path ∈ config.paths ++ config.transitPaths) :
    Trusted P dir path ↔ SafeHops P dir path.hops := by
  constructor
  · exact fun h => ⟨fun hop hmem => (h.standing hop hmem).2, h.middle, h.joined⟩
  intro hsafe
  obtain ⟨source, route, o⟩ := I.origin hpath
  exact
    { standing := fun hop hmem =>
        ⟨o.way.known (known_of_public o.starts) hop hmem, hsafe.standing hop hmem⟩
      source := ⟨source, o.starts, o.way.head⟩
      middle := hsafe.middle
      owner := ⟨route, o.listed, o.owner.symm, o.cidr.symm, o.way.last⟩
      nodup := o.way.nodup
      short := o.way.short
      joined := hsafe.joined }

/-- **When issued paths run over trusted links only**: if the hops that the Node is told about are
    safe.  The start, the owner, the length and loops are never at fault. -/
theorem issued_paths_trusted_iff {id : Str} {config : NodeConfig F}
    (h : routingConfigForNode P dir N now id = .ok config) :
    (∀ path ∈ config.paths ++ config.transitPaths, Trusted P dir path) ↔
      ∀ hops, ToldTo P dir F now id hops → SafeHops P dir hops := by
  obtain ⟨I⟩ := Issue.of_returned h
  constructor
  · intro htrusted hops htold
    obtain ⟨path, hpath, rfl⟩ := I.path_iff_toldTo.mpr htold
    exact (I.trusted_iff hpath).mp (htrusted path hpath)
  · intro hsafe path hpath
    exact (I.trusted_iff hpath).mpr (hsafe _ (I.path_iff_toldTo.mp ⟨path, hpath, rfl⟩))

/-! ## A directory with a revoked Node -/

/-- `b` is revoked, with records for its links; the link from `a` to `c` is only reported. -/
def revokedDir : ControlDir Loaded :=
  meshDir
    [meshFile "control/nodes" "a" (meshNode "a" publicRoles [] false),
      meshFile "control/nodes" "b" (meshNode "b" publicRoles [] true),
      meshFile "control/nodes" "c" (meshNode "c" siteRoles ["10.1.0.0/16"] false),
      meshFile "control/topology/links" "ab" (meshLink "a" "b"),
      meshFile "control/topology/links" "bc" (meshLink "b" "c"),
      meshFile "control/routes" "r" (meshRoute "10.1.0.0/16" "c")]
    [("a", meshTelemetry "a" 100 ["c"])]

theorem exists_path_of_test (dir : ControlDir Loaded) (id : Str) (hopLists : List (List Str))
    (h : (match routingConfigForNode meshRuntime dir plainFloat 100 id with
      | .ok config => hopLists.all fun hops => config.paths.any fun path => path.hops = hops
      | .error _ => false) = true) :
    ∃ config, routingConfigForNode meshRuntime dir plainFloat 100 id = .ok config ∧
      ∀ hops ∈ hopLists, ∃ path ∈ config.paths, path.hops = hops := by
  cases hconfig : routingConfigForNode meshRuntime dir plainFloat 100 id with
  | error e =>
    rw [hconfig] at h
    cases h
  | ok config =>
    rw [hconfig] at h
    refine ⟨config, rfl, fun hops hmem => ?_⟩
    obtain ⟨path, hpath, heq⟩ := List.any_eq_true.mp (List.all_eq_true.mp h hops hmem)
    exact ⟨path, hpath, by simpa using heq⟩

/-- **A revoked Node and a link without a record** are on paths that `a` gets. -/
theorem revoked_hop_issued :
    ∃ config, routingConfigForNode meshRuntime revokedDir plainFloat 100 "a".toList = .ok config ∧
      (∃ path ∈ config.paths, path.hops = ["a".toList, "b".toList, "c".toList] ∧
        Revoked meshRuntime revokedDir "b".toList ∧ ¬ Trusted meshRuntime revokedDir path) ∧
      ∃ path ∈ config.paths, path.hops = ["a".toList, "c".toList] ∧
        ¬ Joined meshRuntime revokedDir "a".toList "c".toList ∧
          ¬ Trusted meshRuntime revokedDir path := by
  obtain ⟨config, hconfig, hpaths⟩ := exists_path_of_test revokedDir "a".toList
    [["a".toList, "b".toList, "c".toList], ["a".toList, "c".toList]] (by decide +kernel)
  have hrevoked : Revoked meshRuntime revokedDir "b".toList := by
    have htest : ((nodeRecords meshRuntime revokedDir).any fun node =>
        strip (nodeId meshRuntime node) = "b".toList && isRevoked node) = true := by decide +kernel
    obtain ⟨node, hnode, hboth⟩ := List.any_eq_true.mp htest
    rw [Bool.and_eq_true, decide_eq_true_iff] at hboth
    exact ⟨node, hnode, hboth.1, hboth.2⟩
  have hjoined : ¬ Joined meshRuntime revokedDir "a".toList "c".toList := by
    have htest : ((linkRecords meshRuntime revokedDir).all fun record =>
        !decide ((record.left = "a".toList ∧ record.right = "c".toList) ∨
          (record.left = "c".toList ∧ record.right = "a".toList))) = true := by decide +kernel
    rintro ⟨record, hrecord, hends⟩
    have hnot := List.all_eq_true.mp htest record hrecord
    rw [decide_eq_true hends] at hnot
    cases hnot
  obtain ⟨long, hlong, hhops⟩ := hpaths _ List.mem_cons_self
  obtain ⟨direct, hdirect, hhops'⟩ := hpaths _ (List.mem_cons_of_mem _ List.mem_cons_self)
  refine ⟨config, hconfig, ⟨long, hlong, hhops, hrevoked, fun htrusted => ?_⟩,
    direct, hdirect, hhops', hjoined, fun htrusted => hjoined ?_⟩
  · exact (htrusted.standing _ (hhops ▸ by decide)).2 hrevoked
  · have hchain := htrusted.joined
    rw [hhops'] at hchain
    exact List.isChain_pair.mp hchain

/-- A directory where `a` and `c` are joined by a record. -/
def joinedDir : ControlDir Loaded :=
  meshDir
    [meshFile "control/nodes" "a" (meshNode "a" publicRoles [] false),
      meshFile "control/nodes" "c" (meshNode "c" siteRoles ["10.1.0.0/16"] false),
      meshFile "control/topology/links" "ac" (meshLink "a" "c"),
      meshFile "control/routes" "r" (meshRoute "10.1.0.0/16" "c")]
    []

theorem safeHops_joinedDir : SafeHops meshRuntime joinedDir ["a".toList, "c".toList] where
  standing := by
    have htest : ((nodeRecords meshRuntime joinedDir).all fun node => !isRevoked node) = true := by
      decide +kernel
    rintro hop _ ⟨node, hnode, _, hrevoked⟩
    have hnot := List.all_eq_true.mp htest node hnode
    rw [hrevoked] at hnot
    cases hnot
  middle := by
    intro hop hhop
    cases hhop
  joined := by
    have htest : ((linkRecords meshRuntime joinedDir).any fun record =>
        decide (record.left = "a".toList ∧ record.right = "c".toList)) = true := by decide +kernel
    obtain ⟨record, hrecord, hends⟩ := List.any_eq_true.mp htest
    exact List.isChain_pair.mpr ⟨record, hrecord, .inl (of_decide_eq_true hends)⟩

/-- The only path is the direct one, and it is trusted. -/
theorem issued_paths_trusted_joined :
    ∃ config, routingConfigForNode meshRuntime joinedDir plainFloat 100 "a".toList = .ok config ∧
      (∃ path ∈ config.paths, path.hops = ["a".toList, "c".toList]) ∧
      (∀ path ∈ config.paths ++ config.transitPaths, Trusted meshRuntime joinedDir path) ∧
      ∀ hops, ToldTo meshRuntime joinedDir Int 100 "a".toList hops →
        SafeHops meshRuntime joinedDir hops := by
  obtain ⟨config, hconfig, hpaths⟩ := exists_path_of_test joinedDir "a".toList
    [["a".toList, "c".toList]] (by decide +kernel)
  have htest : ((routingConfigForNode meshRuntime joinedDir plainFloat 100 "a".toList).toOption.any
      fun config => (config.paths ++ config.transitPaths).all fun path =>
        decide (path.hops = ["a".toList, "c".toList])) = true := by decide +kernel
  rw [hconfig] at htest
  obtain ⟨I⟩ := Issue.of_returned hconfig
  have htrusted : ∀ path ∈ config.paths ++ config.transitPaths,
    Trusted meshRuntime joinedDir path := by
    intro path hpath
    rw [I.trusted_iff hpath, of_decide_eq_true (List.all_eq_true.mp htest path hpath)]
    exact safeHops_joinedDir
  exact ⟨config, hconfig, hpaths _ List.mem_cons_self, htrusted,
    (issued_paths_trusted_iff hconfig).mp htrusted⟩

end Bpc.Deploy
