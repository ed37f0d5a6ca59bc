/-
  THE GRAPH OF THE MESH — what a snapshot contains and which paths a search in it finds.

  1. **Snapshot** — exactly the known Nodes, the links on record and the fresh reports
     (`Snapshot.linked_iff`).
  2. **Search** — the limit on Nodes in the middle excludes nothing (`walk_eq_search`), so the
     candidates are the chains of at most three linked Nodes (`Snapshot.meshWay_iff`).
-/
import Bpc.Deploy.Topology
import Bpc.Lib.Ways

namespace Bpc.Deploy

open SlashPath Controlplane Ways

/-! ## Stripped texts -/

theorem strip_strip (s : Str) : strip (strip s) = strip s := by
  obtain ⟨rest, hrest⟩ : strip s <+: s.dropWhile isPySpace := List.rdropWhile_prefix isPySpace _
  have hhead : (strip s).dropWhile isPySpace = strip s := by
    cases hs : strip s with
    | nil => rfl
    | cons c cs =>
      have hfirst := List.head?_dropWhile_not isPySpace s
      rw [← hrest, hs] at hfirst
      exact List.dropWhile_cons_of_neg (Bool.eq_false_iff.mp hfirst)
  show ((strip s).dropWhile isPySpace).rdropWhile isPySpace = strip s
  rw [hhead]
  exact List.rdropWhile_idempotent isPySpace _

variable {Data : Type} (P : Runtime Data) (dir : ControlDir Data)

/-! ## Inputs -/

/-- The ids of the Nodes on record. -/
def knownIds : List Str :=
  ((nodeRecords P dir).map fun node => strip (nodeId P node)).filter (· ≠ [])

/-- The ids of the Public Nodes, revoked ones included. -/
def publicIds : List Str :=
  (((nodeRecords P dir).filter isPublicNode).map fun node => strip (nodeId P node)).filter (· ≠ [])

/-- A record of the Node is revoked. -/
def Revoked (id : Str) : Prop :=
  ∃ node ∈ nodeRecords P dir, strip (nodeId P node) = id ∧ isRevoked node = true

/-- There is a record for the link. -/
def Joined (a b : Str) : Prop :=
  ∃ record ∈ linkRecords P dir,
    (record.left = a ∧ record.right = b) ∨ (record.left = b ∧ record.right = a)

/-- What the fresh telemetry of `a` reports last about `b`. -/
def lastReport (F : Type) (now : Int) (a b : Str) : Option (Link F) :=
  ((Checked.values (reportedEntries P dir now (knownIds P dir) a)).reverse.find?
    fun entry => entry.1 = (a, b)).map Prod.snd

/-- Two Nodes that are linked, by a record or by a report. -/
structure Linked (F : Type) (now : Int) (a b : Str) : Prop where
  start : a ∈ knownIds P dir
  target : b ∈ knownIds P dir
  ne : a ≠ b
  reason : Joined P dir a b ∨ (lastReport P dir F now a b).isSome

/-- The link is reported as failed. -/
def Failed (F : Type) (now : Int) (a b : Str) : Prop :=
  ∃ link, lastReport P dir F now a b = some link ∧ link.health = "failed"

variable {P dir} {F : Type} {N : PyFloat F} {now : Int}

variable {id : Str}

theorem strip_of_known (h : id ∈ knownIds P dir) : strip id = id ∧ id ≠ [] := by
  obtain ⟨hmem, hne⟩ := List.mem_filter.mp h
  obtain ⟨node, _, rfl⟩ := List.mem_map.mp hmem
  exact ⟨strip_strip _, by simpa using hne⟩

theorem known_of_public (h : id ∈ publicIds P dir) : id ∈ knownIds P dir := by
  obtain ⟨hmem, hne⟩ := List.mem_filter.mp h
  obtain ⟨node, hnode, rfl⟩ := List.mem_map.mp hmem
  exact List.mem_filter.mpr ⟨List.mem_map_of_mem (List.mem_of_mem_filter hnode), hne⟩

/-! ## The Nodes of a snapshot -/

variable {found : List SnapshotNode}

theorem snapshotNode_ok {node : Record} (h : snapshotNode P dir node = .ok found) :
    (strip (nodeId P node) = [] ∧ found = []) ∨
      (strip (nodeId P node) ≠ [] ∧ ∃ seen,
        found = [⟨strip (nodeId P node), isPublicNode node, seen, isRevoked node⟩]) := by
  unfold snapshotNode at h
  split at h
  · cases h
  split at h
  · cases h
  split at h
  · rename_i hblank
    exact .inl ⟨hblank, (Except.ok.inj h).symm⟩
  rename_i hname
  split at h
  · cases h
  rename_i seen _
  exact .inr ⟨hname, seen, (Except.ok.inj h).symm⟩

/-- The Nodes of a snapshot that pass a test are the records that pass it. -/
theorem snapshot_filter {q : SnapshotNode → Bool} {r : Record → Bool}
    (hq : ∀ node id seen, q ⟨id, isPublicNode node, seen, isRevoked node⟩ = r node)
    {nodes : List Record} (h : Checked.collect (snapshotNode P dir) nodes = .ok found) :
    (found.filter q).map SnapshotNode.id =
      ((nodes.filter r).map fun node => strip (nodeId P node)).filter (· ≠ []) := by
  induction nodes generalizing found with
  | nil =>
    obtain rfl := Except.ok.inj h
    rfl
  | cons node nodes ih =>
    obtain ⟨first, rest, hfirst, hrest, rfl⟩ := Checked.collect_cons_ok h
    rw [List.filter_append, List.map_append, ih hrest]
    rcases snapshotNode_ok hfirst with ⟨hblank, rfl⟩ | ⟨hname, seen, rfl⟩
    · cases hr : r node <;> simp [hr, hblank]
    · cases hr : r node <;> simp [hq, hr, hname]

theorem snapshot_ids {nodes : List Record}
    (h : Checked.collect (snapshotNode P dir) nodes = .ok found) :
    found.map SnapshotNode.id = (nodes.map fun node => strip (nodeId P node)).filter (· ≠ []) := by
  simpa using snapshot_filter (q := fun _ => true) (r := fun _ => true) (fun _ _ _ => rfl) h

/-! ## The links of a snapshot -/

/-- `link_map.get((a, b))`. -/
def linkAt (entries : List (LinkEntry F)) (a b : Str) : Option (Link F) :=
  (entries.reverse.find? fun entry => entry.1 = (a, b)).map Prod.snd

variable {link : Link F}

theorem mem_linkMap {entries : List (LinkEntry F)} :
    link ∈ linkMap entries ↔ ∃ a b, linkAt entries a b = some link := by
  unfold linkMap
  rw [List.mem_filterMap]
  constructor
  · rintro ⟨⟨a, b⟩, _, hfound⟩
    exact ⟨a, b, hfound⟩
  · rintro ⟨a, b, hfound⟩
    refine ⟨(a, b), ?_, hfound⟩
    obtain ⟨entry, hentry, _⟩ := Option.map_eq_some_iff.mp hfound
    have hmem : entry ∈ entries := List.mem_reverse.mp (List.mem_of_find?_eq_some hentry)
    have hkey : entry.1 = (a, b) := by simpa using List.find?_some hentry
    rw [List.mem_insertionSort, List.mem_dedup, ← hkey]
    exact List.mem_map_of_mem hmem

theorem linkAt_append (front back : List (LinkEntry F)) (a b : Str) :
    linkAt (front ++ back) a b = (linkAt back a b).or (linkAt front a b) := by
  unfold linkAt
  rw [List.reverse_append, List.find?_append, Option.map_or]

/-- The key of an entry is the pair of its ends. -/
def Keyed (entry : LinkEntry F) : Prop := entry.1 = (entry.2.start, entry.2.target)

variable {a b : Str}

theorem linkAt_ends {entries : List (LinkEntry F)} (hkeyed : ∀ entry ∈ entries, Keyed entry)
    (h : linkAt entries a b = some link) :
    (((a, b), link) ∈ entries) ∧ link.start = a ∧ link.target = b := by
  obtain ⟨⟨key, link'⟩, hentry, rfl⟩ := Option.map_eq_some_iff.mp h
  have hmem := List.mem_reverse.mp (List.mem_of_find?_eq_some hentry)
  have hkey : key = (a, b) := by simpa using List.find?_some hentry
  subst hkey
  have hends := Prod.mk.inj (hkeyed _ hmem)
  exact ⟨hmem, hends.1.symm, hends.2.symm⟩

theorem isSome_linkAt_iff {entries : List (LinkEntry F)} :
    (linkAt entries a b).isSome ↔ ∃ entry ∈ entries, entry.1 = (a, b) := by
  simp [linkAt, List.find?_isSome]

/-- A canonical link, as the snapshot has it. -/
structure IsCanonical (N : PyFloat F) (link : Link F) : Prop where
  health : link.health = "unknown"
  rtt : link.rttMs = .float (N.ofInt 0)
  loss : link.lossPercent = .float (N.ofInt 0)
  cost : ∃ cost, link.cost = .float cost
  lastSeen : link.lastSeen = .int 0

theorem mem_canonicalEntries {ids : List Str} {record : LinkRecord} {found : List (LinkEntry F)}
    (h : canonicalEntries N ids record = .ok found) :
    (∀ entry ∈ found, Keyed entry ∧ IsCanonical N entry.2) ∧
      ∀ a b, (∃ entry ∈ found, entry.1 = (a, b)) ↔ a ∈ ids ∧ b ∈ ids ∧
        ((record.left = a ∧ record.right = b) ∨ (record.left = b ∧ record.right = a)) := by
  unfold canonicalEntries at h
  split at h
  · rename_i hunknown
    obtain rfl := Except.ok.inj h
    refine ⟨fun entry hentry => (by cases hentry), fun a b => ⟨?_, ?_⟩⟩
    · rintro ⟨entry, hentry, _⟩
      cases hentry
    · rintro ⟨ha, hb, ⟨rfl, rfl⟩ | ⟨rfl, rfl⟩⟩
      · exact absurd hunknown (not_or.mpr ⟨not_not.mpr ha, not_not.mpr hb⟩)
      · exact absurd hunknown (not_or.mpr ⟨not_not.mpr hb, not_not.mpr ha⟩)
  rename_i hknown
  obtain ⟨hleft, hright⟩ := not_or.mp hknown
  split at h
  · cases h
  rename_i cost _
  obtain rfl := Except.ok.inj h
  constructor
  · intro entry hentry
    rcases List.mem_cons.mp hentry with rfl | hentry
    · exact ⟨rfl, rfl, rfl, rfl, ⟨cost, rfl⟩, rfl⟩
    · obtain rfl := List.mem_singleton.mp hentry
      exact ⟨rfl, rfl, rfl, rfl, ⟨cost, rfl⟩, rfl⟩
  · intro a b
    constructor
    · rintro ⟨entry, hentry, hkey⟩
      rcases List.mem_cons.mp hentry with rfl | hentry
      · obtain ⟨rfl, rfl⟩ := Prod.mk.inj hkey
        exact ⟨not_not.mp hleft, not_not.mp hright, .inl ⟨rfl, rfl⟩⟩
      · obtain rfl := List.mem_singleton.mp hentry
        obtain ⟨rfl, rfl⟩ := Prod.mk.inj hkey
        exact ⟨not_not.mp hright, not_not.mp hleft, .inr ⟨rfl, rfl⟩⟩
    · rintro ⟨_, _, ⟨rfl, rfl⟩ | ⟨rfl, rfl⟩⟩
      · exact ⟨_, List.mem_cons_self, rfl⟩
      · exact ⟨_, List.mem_cons_of_mem _ List.mem_cons_self, rfl⟩

theorem mem_reportedEntries {ids : List Str} {found : List (LinkEntry F)}
    (h : reportedEntries P dir now ids id = .ok found) {entry : LinkEntry F}
    (hentry : entry ∈ found) : Keyed entry ∧ entry.1.1 = id ∧ entry.1.2 ∈ ids := by
  unfold reportedEntries at h
  split at h
  · cases h
  · obtain rfl := Except.ok.inj h
    cases hentry
  split at h
  · obtain rfl := Except.ok.inj h
    cases hentry
  split at h
  · cases h
  split at h
  · obtain rfl := Except.ok.inj h
    cases hentry
  split at h
  · obtain rfl := Except.ok.inj h
    obtain ⟨link, _, hlink⟩ := List.mem_filterMap.mp hentry
    unfold reportedEntry at hlink
    split at hlink
    · dsimp only at hlink
      split at hlink
      · rename_i hends
        obtain rfl := Option.some.inj hlink
        exact ⟨by rw [Keyed, hends.1], rfl, hends.2⟩
      · cases hlink
    · cases hlink
  · obtain rfl := Except.ok.inj h
    cases hentry

/-! ## Snapshots -/

/-- What a snapshot that was built consists of. -/
structure Snapshot (P : Runtime Data) (dir : ControlDir Data) (N : PyFloat F) (now : Int)
    (graph : Graph F) where
  canonical : List (LinkEntry F)
  reported : List (LinkEntry F)
  canonical_eq : Checked.collect (canonicalEntries N (knownIds P dir)) (linkRecords P dir) =
    .ok canonical
  reported_eq : Checked.collect (reportedEntries P dir now (knownIds P dir))
    (sortedNames (knownIds P dir).dedup) = .ok reported
  publicIds_eq : graph.publicIds = publicIds P dir
  links_eq : graph.links = linkMap (canonical ++ reported)
  routes_eq : (graph.routes.map fun route => (route.owner, route.cidr)) =
    (routeRecords P dir).map fun route => (route.owner, route.cidr)

theorem snapshot_routes {records : List RouteRecord} {found : List SnapshotRoute}
    (h : Checked.collect (snapshotRoute P) records = .ok found) :
    (found.map fun route => (route.owner, route.cidr)) =
      records.map fun route => (route.owner, route.cidr) := by
  induction records generalizing found with
  | nil =>
    obtain rfl := Except.ok.inj h
    rfl
  | cons record records ih =>
    obtain ⟨first, rest, hfirst, hrest, rfl⟩ := Checked.collect_cons_ok h
    unfold snapshotRoute at hfirst
    split at hfirst
    · cases hfirst
    obtain rfl := Except.ok.inj hfirst
    rw [List.map_append, ih hrest]
    rfl

theorem readRoutes_ok {routes : List RouteRecord} :
    readRoutes P dir = .ok routes ↔
      (∀ record ∈ records P dir "control/routes", raisesOnOwner P dir record = false) ∧
        routeRecords P dir = routes := by
  unfold readRoutes
  split
  · rename_i hraises
    obtain ⟨record, hrecord, hlong⟩ := List.any_eq_true.mp hraises
    constructor
    · exact fun h => by cases h
    · rintro ⟨hnames, _⟩
      rw [hnames record hrecord] at hlong
      cases hlong
  · rename_i hnone
    have hnames := List.any_eq_false.mp (Bool.eq_false_iff.mpr hnone)
    exact ⟨fun h => ⟨fun record hrecord => Bool.eq_false_iff.mpr (hnames record hrecord),
      Except.ok.inj h⟩, fun h => congrArg _ h.2⟩

/-- **What a snapshot is made of**: the records and the telemetry. -/
theorem Snapshot.of_returned {graph : Graph F} (h : topologySnapshot P dir N now = .ok graph) :
    Nonempty (Snapshot P dir N now graph) := by
  unfold topologySnapshot at h
  split at h
  · cases h
  rename_i nodes hnodes
  have hids : nodes.map SnapshotNode.id = knownIds P dir := snapshot_ids hnodes
  dsimp only at h
  rw [hids] at h
  split at h
  · cases h
  rename_i canonical hcanonical
  split at h
  · cases h
  rename_i reported hreported
  split at h
  · cases h
  rename_i read hread
  obtain ⟨_, rfl⟩ := readRoutes_ok.mp hread
  split at h
  · cases h
  rename_i routes hroutes
  obtain rfl := Except.ok.inj h
  exact ⟨⟨canonical, reported, hcanonical, hreported, snapshot_filter (fun _ _ _ => rfl) hnodes,
    rfl, snapshot_routes hroutes⟩⟩

theorem find?_reverse_flatMap {α β : Type} {f : α → List β} {p : β → Bool} {a : α} {xs : List α}
    (hother : ∀ x ∈ xs, x ≠ a → ∀ y ∈ f x, p y = false) (ha : a ∈ xs) :
    (xs.flatMap f).reverse.find? p = (f a).reverse.find? p := by
  induction xs with
  | nil => cases ha
  | cons x xs ih =>
    obtain ⟨hx, hxs⟩ := List.forall_mem_cons.mp hother
    have hfirst : x ≠ a → (f x).reverse.find? p = none := fun hne =>
      List.find?_eq_none.mpr fun y hy => Bool.eq_false_iff.mp (hx hne y (List.mem_reverse.mp hy))
    rw [List.flatMap_cons, List.reverse_append, List.find?_append]
    by_cases hlater : a ∈ xs
    · rw [ih hxs hlater]
      by_cases heq : x = a
      · rw [heq, Option.or_self]
      · rw [hfirst heq, Option.or_none]
    · obtain rfl : a = x := (List.mem_cons.mp ha).resolve_right hlater
      have hrest : (xs.flatMap f).reverse.find? p = none := by
        refine List.find?_eq_none.mpr fun y hy => Bool.eq_false_iff.mp ?_
        obtain ⟨x', hx', hy'⟩ := List.mem_flatMap.mp (List.mem_reverse.mp hy)
        exact hxs x' hx' (fun heq => hlater (heq ▸ hx')) y hy'
      rw [hrest, Option.none_or]

section Links

variable {graph : Graph F} (S : Snapshot P dir N now graph)

/-- The entries of the link map. -/
def Snapshot.entries : List (LinkEntry F) := S.canonical ++ S.reported

theorem mem_values_reported {entry : LinkEntry F}
    (h : entry ∈ Checked.values (reportedEntries P dir now (knownIds P dir) id)) :
    Keyed entry ∧ entry.1.1 = id ∧ entry.1.2 ∈ knownIds P dir := by
  cases hreported : reportedEntries P dir now (knownIds P dir) id with
  | error e =>
    rw [hreported] at h
    cases h
  | ok found =>
    rw [hreported] at h
    exact mem_reportedEntries hreported h

include S in
theorem Snapshot.linkAt_reported (ha : a ∈ knownIds P dir) :
    linkAt S.reported a b = lastReport P dir F now a b := by
  unfold linkAt lastReport
  rw [Checked.collect_eq S.reported_eq]
  congr 1
  refine find?_reverse_flatMap (fun id _ hne entry hentry => ?_)
    (mem_sortedNames.mpr (List.mem_dedup.mpr ha))
  have hid := (mem_values_reported hentry).2.1
  refine decide_eq_false fun hkey => hne ?_
  rw [← hid, hkey]

theorem Snapshot.linkAt_eq (ha : a ∈ knownIds P dir) :
    linkAt S.entries a b = (lastReport P dir F now a b).or (linkAt S.canonical a b) := by
  rw [Snapshot.entries, linkAt_append, S.linkAt_reported ha]

theorem Snapshot.keyed : ∀ entry ∈ S.entries, Keyed entry := by
  intro entry hentry
  rcases List.mem_append.mp hentry with hentry | hentry
  · obtain ⟨record, _, found, hfound, hmem⟩ := (Checked.mem_collect S.canonical_eq).mp hentry
    exact ((mem_canonicalEntries hfound).1 entry hmem).1
  · obtain ⟨id, _, found, hfound, hmem⟩ := (Checked.mem_collect S.reported_eq).mp hentry
    exact (mem_reportedEntries hfound hmem).1

theorem Snapshot.isSome_linkAt_canonical :
    (linkAt S.canonical a b).isSome ↔ a ∈ knownIds P dir ∧ b ∈ knownIds P dir ∧
      Joined P dir a b := by
  rw [isSome_linkAt_iff]
  constructor
  · rintro ⟨entry, hentry, hkey⟩
    obtain ⟨record, hrecord, found, hfound, hmem⟩ := (Checked.mem_collect S.canonical_eq).mp hentry
    obtain ⟨ha, hb, hends⟩ := ((mem_canonicalEntries hfound).2 a b).mp ⟨entry, hmem, hkey⟩
    exact ⟨ha, hb, record, hrecord, hends⟩
  · rintro ⟨ha, hb, record, hrecord, hends⟩
    obtain ⟨found, hfound⟩ := Checked.collect_returns_iff.mp ⟨_, S.canonical_eq⟩ record hrecord
    obtain ⟨entry, hmem, hkey⟩ := ((mem_canonicalEntries hfound).2 a b).mpr ⟨ha, hb, hends⟩
    exact ⟨entry, (Checked.mem_collect S.canonical_eq).mpr
      ⟨record, hrecord, found, hfound, hmem⟩, hkey⟩

theorem Snapshot.canonical_of_linkAt (h : linkAt S.canonical a b = some link) :
    IsCanonical N link := by
  obtain ⟨entry, hentry, rfl⟩ := Option.map_eq_some_iff.mp h
  have hmem := List.mem_reverse.mp (List.mem_of_find?_eq_some hentry)
  obtain ⟨record, _, found, hfound, hmem⟩ := (Checked.mem_collect S.canonical_eq).mp hmem
  exact ((mem_canonicalEntries hfound).1 entry hmem).2

theorem Snapshot.known_of_linkAt (h : (linkAt S.entries a b).isSome) :
    a ∈ knownIds P dir ∧ b ∈ knownIds P dir := by
  rw [Snapshot.entries, linkAt_append, Option.isSome_or, Bool.or_eq_true] at h
  rcases h with h | h
  · obtain ⟨entry, hentry, hkey⟩ := isSome_linkAt_iff.mp h
    obtain ⟨id, hid, found, hfound, hmem⟩ := (Checked.mem_collect S.reported_eq).mp hentry
    obtain ⟨_, hstart, htarget⟩ := mem_reportedEntries hfound hmem
    rw [hkey] at hstart htarget
    dsimp only at hstart htarget
    exact ⟨hstart ▸ List.mem_dedup.mp (mem_sortedNames.mp hid), htarget⟩
  · exact ⟨(S.isSome_linkAt_canonical.mp h).1, (S.isSome_linkAt_canonical.mp h).2.1⟩

/-- **The links of the graph are the records and the reports.** -/
theorem Snapshot.linked_iff : Linked P dir F now a b ↔ a ≠ b ∧ (linkAt S.entries a b).isSome := by
  constructor
  · rintro ⟨ha, hb, hne, hreason⟩
    refine ⟨hne, ?_⟩
    rw [S.linkAt_eq ha, Option.isSome_or, Bool.or_eq_true]
    rcases hreason with hjoined | hreported
    · exact .inr (S.isSome_linkAt_canonical.mpr ⟨ha, hb, hjoined⟩)
    · exact .inl hreported
  · rintro ⟨hne, hsome⟩
    obtain ⟨ha, hb⟩ := S.known_of_linkAt hsome
    refine ⟨ha, hb, hne, ?_⟩
    rw [S.linkAt_eq ha, Option.isSome_or, Bool.or_eq_true] at hsome
    rcases hsome with hreported | hcanonical
    · exact .inr hreported
    · exact .inl (S.isSome_linkAt_canonical.mp hcanonical).2.2

theorem Snapshot.mem_adjacent {includeFailed : Bool} :
    link ∈ graph.adjacent includeFailed a ↔
      linkAt S.entries a link.target = some link ∧ a ≠ link.target ∧
        (includeFailed = true ∨ link.health ≠ "failed") := by
  unfold Graph.adjacent
  rw [List.mem_filter, S.links_eq, mem_linkMap]
  simp only [Bool.and_eq_true, Bool.or_eq_true, decide_eq_true_eq]
  constructor
  · rintro ⟨⟨a', b, hlink⟩, ⟨⟨⟨hfailed, _⟩, _⟩, hne⟩, hstart⟩
    obtain ⟨_, rfl, rfl⟩ := linkAt_ends S.keyed hlink
    obtain ⟨ha, hb⟩ := S.known_of_linkAt (Option.isSome_of_mem hlink)
    rw [(strip_of_known ha).1] at hstart hne
    rw [(strip_of_known hb).1] at hne
    subst hstart
    exact ⟨hlink, hne, hfailed⟩
  · rintro ⟨hlink, hne, hfailed⟩
    obtain ⟨_, rfl, _⟩ := linkAt_ends S.keyed hlink
    obtain ⟨ha, hb⟩ := S.known_of_linkAt (Option.isSome_of_mem hlink)
    rw [(strip_of_known ha).1, (strip_of_known hb).1]
    exact ⟨⟨_, _, hlink⟩, ⟨⟨⟨hfailed, (strip_of_known ha).2⟩, (strip_of_known hb).2⟩, hne⟩, rfl⟩

end Links

/-! ## Candidates -/

section Candidates

variable {graph : Graph F} {includeFailed : Bool} {owner cidr : Str}

theorem intermediates_le (pub hops : List Str) (target : Str) (hne : hops ≠ []) :
    intermediates pub (hops ++ [target]) ≤ hops.length - 1 := by
  unfold intermediates
  have hmiddle : (hops ++ [target]).tail.dropLast = hops.tail := by
    rw [List.tail_append_of_ne_nil hne, List.dropLast_concat]
  rw [hmiddle, ← List.length_tail]
  exact List.countP_le_length

/-- **The limit on intermediate Nodes excludes nothing.** -/
theorem walk_eq_search (fuel : Nat) (node : Str) (hops : List Str) (links : List (Link F))
    (hne : hops ≠ []) (hbound : hops.length + fuel ≤ maxHops + 1) :
    walk P N graph includeFailed owner cidr fuel node hops links =
      search (graph.adjacent includeFailed) Link.target
        (fun hops links => checkedCandidate P N graph.publicIds hops links owner cidr) owner
        fuel node hops links := by
  induction fuel generalizing node hops links with
  | zero => rfl
  | succ fuel ih =>
    rw [walk, search]
    by_cases howner : node = owner
    · rw [if_pos howner, if_pos howner]
    rw [if_neg howner, if_neg howner]
    congr 1
    funext link
    by_cases hseen : link.target ∈ hops
    · rw [if_pos hseen, if_pos hseen]
    · have hlimit : ¬ maxIntermediate < intermediates graph.publicIds (hops ++ [link.target]) := by
        have hle := intermediates_le graph.publicIds hops link.target hne
        unfold maxIntermediate
        unfold maxHops at hbound
        omega
      rw [if_neg hseen, if_neg hseen, if_neg hlimit]
      refine ih _ _ _ (by simp) ?_
      rw [List.length_append, List.length_singleton]
      omega

variable {hops : List Str} {links : List (Link F)}

/-! ## Conversions -/

/-- A conversion succeeds. -/
def Converts {α : Type} (x : Except PyError α) : Prop := ∃ a, x = .ok a

/-- A conversion succeeds, or raises what an `except` around it catches. -/
def Caught {α : Type} (x : Except PyError α) : Prop := ∀ e, x = .error e → isConversion e = true

variable {α : Type} {x : Except PyError α}

theorem Converts.caught (h : Converts x) : Caught x := by
  obtain ⟨a, rfl⟩ := h
  exact fun e he => by cases he

theorem converted_returns_iff {d : α} : (∃ a, converted x d = .ok a) ↔ Caught x := by
  cases x with
  | ok a => exact ⟨fun _ e he => (by cases he), fun _ => ⟨a, rfl⟩⟩
  | error e =>
    unfold converted
    constructor
    · rintro ⟨a, h⟩ e' he'
      obtain rfl := Except.error.inj he'
      by_contra hnot
      dsimp only at h
      rw [if_neg hnot] at h
      cases h
    · intro h
      exact ⟨d, if_pos (h e rfl)⟩

theorem unguarded_returns_iff : (∃ a, unguarded x = .ok a) ↔ Converts x := by
  cases x with
  | ok a => exact ⟨fun _ => ⟨a, rfl⟩, fun _ => ⟨a, rfl⟩⟩
  | error e =>
    constructor
    · rintro ⟨a, h⟩
      cases h
    · rintro ⟨a, h⟩
      cases h

/-- `float(x)` of a number of a link. -/
def Metric.toFloat (N : PyFloat F) : Metric F → Except PyError F
  | .float x => .ok x
  | .json v => N.float v

/-- The numbers of a link convert where the source converts them. -/
structure Measurable (P : Runtime Data) (N : PyFloat F) (link : Link F) : Prop where
  rtt : Converts (link.rttMs.float0 N)
  cost : Converts (link.cost.float0 N)
  loss : Caught (link.lossPercent.toFloat N)
  lastSeen : Converts (P.int (orElse link.lastSeen (.int 0)))

theorem percent_returns_iff {m : Metric F} :
    (∃ x, m.percent N = .ok x) ↔ Caught (m.toFloat N) := by
  cases m with
  | float x => exact ⟨fun _ e he => (by cases he), fun _ => ⟨_, rfl⟩⟩
  | json v =>
    show (∃ x, Metric.percent N (.json v) = .ok x) ↔ Caught (N.float v)
    unfold Metric.percent
    dsimp only
    cases hfloat : N.float v with
    | ok value => exact ⟨fun _ e he => (by cases he), fun _ => ⟨_, rfl⟩⟩
    | error e =>
      dsimp only
      constructor
      · rintro ⟨x, h⟩ e' he'
        obtain rfl := Except.error.inj he'
        by_contra hnot
        rw [if_neg hnot] at h
        cases h
      · intro h
        rw [if_pos (h e rfl)]
        exact ⟨_, rfl⟩

theorem addend_returns_iff {field : Link F → Metric F} {link : Link F} :
    (∃ xs, addend N field link = .ok xs) ↔ Converts ((field link).float0 N) := by
  rw [← unguarded_returns_iff]
  unfold addend
  constructor
  · rintro ⟨xs, h⟩
    split at h
    · cases h
    · rename_i x hx
      exact ⟨x, hx⟩
  · rintro ⟨x, hx⟩
    rw [hx]
    exact ⟨_, rfl⟩

theorem measure_returns_iff {link : Link F} :
    (∃ measured, measure P N link = .ok measured) ↔
      Caught (link.lossPercent.toFloat N) ∧ Converts (P.int (orElse link.lastSeen (.int 0))) := by
  rw [← percent_returns_iff, ← unguarded_returns_iff]
  unfold measure
  constructor
  · rintro ⟨measured, h⟩
    split at h
    · cases h
    rename_i loss hloss
    split at h
    · cases h
    rename_i observed hobserved
    exact ⟨⟨loss, hloss⟩, observed, hobserved⟩
  · rintro ⟨⟨loss, hloss⟩, observed, hobserved⟩
    rw [hloss]
    dsimp only
    rw [hobserved]
    exact ⟨_, rfl⟩

/-- **When a candidate can be computed**: its links have their numbers. -/
theorem candidateFromLinks_returns_iff :
    (∃ path, candidateFromLinks P N hops links owner cidr = .ok path) ↔
      ∀ link ∈ links, Measurable P N link := by
  constructor
  · rintro ⟨path, h⟩ link hlink
    unfold candidateFromLinks at h
    split at h
    · cases h
    rename_i rtts hrtts
    split at h
    · cases h
    rename_i costs hcosts
    split at h
    · cases h
    rename_i measured hmeasured
    obtain ⟨hloss, hseen⟩ :=
      measure_returns_iff.mp (Checked.collect_returns_iff.mp ⟨_, hmeasured⟩ link hlink)
    exact ⟨addend_returns_iff.mp (Checked.collect_returns_iff.mp ⟨_, hrtts⟩ link hlink),
      addend_returns_iff.mp (Checked.collect_returns_iff.mp ⟨_, hcosts⟩ link hlink), hloss, hseen⟩
  · intro h
    obtain ⟨rtts, hrtts⟩ := Checked.collect_returns_iff.mpr fun link hlink =>
      addend_returns_iff.mpr (h link hlink).rtt
    obtain ⟨costs, hcosts⟩ := Checked.collect_returns_iff.mpr fun link hlink =>
      addend_returns_iff.mpr (h link hlink).cost
    obtain ⟨measured, hmeasured⟩ := Checked.collect_returns_iff.mpr fun link hlink =>
      measure_returns_iff.mpr ⟨(h link hlink).loss, (h link hlink).lastSeen⟩
    unfold candidateFromLinks
    rw [hrtts, hcosts, hmeasured]
    exact ⟨_, rfl⟩

variable {path : TopologyPath F}

theorem candidateFromLinks_ok (h : candidateFromLinks P N hops links owner cidr = .ok path) :
    path.id = pathId P owner cidr hops ∧ path.owner = owner ∧ path.cidr = cidr ∧
      path.hops = hops := by
  unfold candidateFromLinks at h
  split at h
  · cases h
  split at h
  · cases h
  split at h
  · cases h
  obtain rfl := Except.ok.inj h
  exact ⟨rfl, rfl, rfl, rfl⟩

theorem intermediates_lt (pub hops : List Str) : intermediates pub hops ≤ hops.length - 2 := by
  unfold intermediates
  refine List.countP_le_length.trans ?_
  rw [List.length_dropLast, List.length_tail]
  omega

theorem validatePath_iff {pub : List Str} (hnodup : path.hops.Nodup)
    (hlast : path.hops.getLast? = some path.owner) (howner : path.owner ≠ [])
    (hshort : path.hops.length ≤ maxHops) :
    validatePath pub path = .ok () ↔ 2 ≤ path.hops.length := by
  have hlimit := intermediates_lt pub path.hops
  have hmax : maxHops = 3 := rfl
  have hmiddle : maxIntermediate = 2 := rfl
  unfold validatePath
  constructor
  · intro h
    split at h
    · cases h
    · omega
  · intro htwo
    rw [if_neg (by omega), if_neg (by rw [List.dedup_eq_self.mpr hnodup]; exact not_not.mpr rfl),
      if_neg (not_or.mpr ⟨howner, not_not.mpr hlast⟩), if_neg (by omega)]

/-- The ways that a search from a Node to an owner considers. -/
structure ShortWay (graph : Graph F) (includeFailed : Bool) (source owner : Str) (hops : List Str)
    (links : List (Link F)) : Prop where
  way : Way (graph.adjacent includeFailed) Link.target source owner hops links
  short : hops.length ≤ maxHops

variable {source : Str}

theorem ShortWay.weaken (h : ShortWay graph includeFailed source owner hops links) :
    ShortWay graph true source owner hops links := by
  refine ⟨h.way.imp fun link _ node hlink => ?_, h.short⟩
  obtain ⟨hmem, hkept⟩ := List.mem_filter.mp hlink
  simp only [Bool.and_eq_true] at hkept
  refine List.mem_filter.mpr ⟨hmem, ?_⟩
  simp only [Bool.and_eq_true, Bool.true_or, true_and]
  exact ⟨⟨⟨hkept.1.1.1.2, hkept.1.1.2⟩, hkept.1.2⟩, hkept.2⟩

theorem continues_iff :
    Continues (graph.adjacent includeFailed) Link.target owner maxHops source [] hops links ↔
      ShortWay graph includeFailed source owner hops links :=
  ⟨fun h => ⟨h.way, h.short⟩, fun h => ⟨h.way, fun _ _ => List.not_mem_nil, h.short⟩⟩

theorem checkedCandidate_returns_iff (howner : owner ≠ [])
    (h : ShortWay graph includeFailed source owner hops links) :
    (∃ found, checkedCandidate P N graph.publicIds hops links owner cidr = .ok found) ↔
      2 ≤ hops.length ∧ ∀ link ∈ links, Measurable P N link := by
  have hvalid : ∀ path, candidateFromLinks P N hops links owner cidr = .ok path →
      (validatePath graph.publicIds path = .ok () ↔ 2 ≤ hops.length) := by
    intro path hpath
    obtain ⟨_, hpowner, _, hphops⟩ := candidateFromLinks_ok hpath
    rw [← hphops]
    refine validatePath_iff ?_ ?_ (hpowner ▸ howner) ?_
    · exact hphops ▸ h.way.nodup
    · rw [hphops, hpowner, h.way.last]
    · exact hphops ▸ h.short
  have hmeasured : (∀ link ∈ links, Measurable P N link) ↔
      ∃ path, candidateFromLinks P N hops links owner cidr = .ok path :=
    candidateFromLinks_returns_iff.symm
  rw [hmeasured]
  unfold checkedCandidate
  constructor
  · rintro ⟨found, hfound⟩
    split at hfound
    · cases hfound
    rename_i path hpath
    split at hfound
    · cases hfound
    rename_i hok
    exact ⟨(hvalid path hpath).mp hok, path, hpath⟩
  · rintro ⟨htwo, path, hpath⟩
    rw [hpath]
    dsimp only
    rw [(hvalid path hpath).mpr htwo]
    exact ⟨_, rfl⟩

theorem checkedCandidate_ok {pub : List Str} {found : List (TopologyPath F)}
    (h : checkedCandidate P N pub hops links owner cidr = .ok found) :
    ∃ path, candidateFromLinks P N hops links owner cidr = .ok path ∧ found = [path] := by
  unfold checkedCandidate at h
  split at h
  · cases h
  rename_i path hpath
  split at h
  · cases h
  exact ⟨path, hpath, (Except.ok.inj h).symm⟩

theorem walk_returns_iff (howner : owner ≠ []) :
    (∃ found, walk P N graph includeFailed owner cidr maxHops source [source] [] = .ok found) ↔
      source ≠ owner ∧ ∀ hops links, ShortWay graph includeFailed source owner hops links →
        ∀ link ∈ links, Measurable P N link := by
  rw [walk_eq_search _ _ _ _ (by simp) (by simp [maxHops]),
    show [source] = [] ++ [source] from rfl, search_returns_iff List.not_mem_nil]
  constructor
  · intro h
    constructor
    · rintro rfl
      -- the way that consists of the owner alone has one hop
      have hshort : ShortWay graph includeFailed source source [source] [] :=
        ⟨.arrive source, by simp [maxHops]⟩
      have hone := (checkedCandidate_returns_iff howner hshort).mp
        (h _ _ (continues_iff.mpr hshort))
      exact absurd hone.1 (by simp)
    · intro hops links hway
      exact ((checkedCandidate_returns_iff howner hway).mp (h _ _ (continues_iff.mpr hway))).2
  · rintro ⟨hne, hall⟩ hops links hcontinues
    have hway := continues_iff.mp hcontinues
    exact (checkedCandidate_returns_iff howner hway).mpr ⟨hway.way.two_le hne, hall hops links hway⟩

theorem mem_walk {found : List (TopologyPath F)}
    (h : walk P N graph includeFailed owner cidr maxHops source [source] [] = .ok found) :
    path ∈ found ↔ ∃ hops links, ShortWay graph includeFailed source owner hops links ∧
      candidateFromLinks P N hops links owner cidr = .ok path := by
  rw [walk_eq_search _ _ _ _ (by simp) (by simp [maxHops]),
    show [source] = [] ++ [source] from rfl] at h
  rw [mem_search List.not_mem_nil h]
  constructor
  · rintro ⟨hops, links, hway, ys, hys, hpath⟩
    obtain ⟨path', hpath', rfl⟩ := checkedCandidate_ok hys
    obtain rfl := List.mem_singleton.mp hpath
    exact ⟨hops, links, continues_iff.mp hway, hpath'⟩
  · rintro ⟨hops, links, hway, hpath⟩
    obtain ⟨ys, hys⟩ := (search_returns_iff List.not_mem_nil).mp ⟨_, h⟩ hops links
      (continues_iff.mpr hway)
    obtain ⟨path', hpath', rfl⟩ := checkedCandidate_ok hys
    obtain rfl := Except.ok.inj (hpath'.symm.trans hpath)
    exact ⟨hops, links, continues_iff.mpr hway, _, hys, List.mem_singleton_self _⟩

/-- **When the candidates of a route can be enumerated.** -/
theorem candidatePaths_returns_iff :
    (∃ found, candidatePaths P N graph source owner cidr includeFailed = .ok found) ↔
      strip source ≠ [] ∧ strip owner ≠ [] ∧ strip source ≠ strip owner ∧
        ∀ hops links, ShortWay graph includeFailed (strip source) (strip owner) hops links →
          ∀ link ∈ links, Measurable P N link := by
  unfold candidatePaths
  by_cases hblank : strip source = [] ∨ strip owner = []
  · rw [if_pos hblank]
    constructor
    · rintro ⟨found, h⟩
      cases h
    · rintro ⟨hsource, howner, _⟩
      exact absurd hblank (not_or.mpr ⟨hsource, howner⟩)
  rw [if_neg hblank]
  obtain ⟨hsource, howner⟩ := not_or.mp hblank
  have hwalk : (∃ found, walk P N graph includeFailed (strip owner) cidr maxHops (strip source)
      [strip source] [] = .ok found) ↔ _ := walk_returns_iff howner
  constructor
  · rintro ⟨found, h⟩
    split at h
    · cases h
    rename_i found' hfound'
    exact ⟨hsource, howner, hwalk.mp ⟨found', hfound'⟩⟩
  · rintro ⟨_, _, hall⟩
    obtain ⟨found, hfound⟩ := hwalk.mpr hall
    rw [hfound]
    exact ⟨_, rfl⟩

theorem candidatePaths_ok {found : List (TopologyPath F)}
    (h : candidatePaths P N graph source owner cidr includeFailed = .ok found) :
    ∃ walked, walk P N graph includeFailed (strip owner) cidr maxHops (strip source)
      [strip source] [] = .ok walked ∧
      found = N.sort (fun path => (path.score, path.rttMs, path.id)) walked := by
  unfold candidatePaths at h
  split at h
  · cases h
  split at h
  · cases h
  rename_i walked hwalked
  exact ⟨walked, hwalked, (Except.ok.inj h).symm⟩

/-- **The candidates of a route are the short ways to its owner.** -/
theorem mem_candidatePaths {found : List (TopologyPath F)}
    (h : candidatePaths P N graph source owner cidr includeFailed = .ok found) :
    path ∈ found ↔ ∃ hops links,
      ShortWay graph includeFailed (strip source) (strip owner) hops links ∧
        candidateFromLinks P N hops links (strip owner) cidr = .ok path := by
  obtain ⟨walked, hwalked, rfl⟩ := candidatePaths_ok h
  rw [(N.sort_perm _ walked).mem_iff, mem_walk hwalked]

end Candidates

/-! ## Ways over the mesh -/

section MeshWays

variable {graph : Graph F} (S : Snapshot P dir N now graph)

include S in
theorem Snapshot.health_failed_iff (h : linkAt S.entries a b = some link) :
    link.health = "failed" ↔ Failed P dir F now a b := by
  have ha := (S.known_of_linkAt (Option.isSome_of_mem h)).1
  rw [S.linkAt_eq ha] at h
  cases hreport : lastReport P dir F now a b with
  | some reported =>
    rw [hreport] at h
    obtain rfl := Option.some.inj h
    exact ⟨fun hfailed => ⟨reported, hreport, hfailed⟩, fun ⟨link', hlink', hfailed⟩ =>
      Option.some.inj (hreport.symm.trans hlink') ▸ hfailed⟩
  | none =>
    rw [hreport, Option.none_or] at h
    constructor
    · intro hfailed
      rw [(S.canonical_of_linkAt h).health] at hfailed
      exact absurd hfailed (by decide)
    · rintro ⟨link', hlink', _⟩
      cases hreport.symm.trans hlink'

/-- A link that a search may follow. -/
def Step (P : Runtime Data) (dir : ControlDir Data) (F : Type) (now : Int) (includeFailed : Bool)
    (a b : Str) : Prop :=
  Linked P dir F now a b ∧ (includeFailed = true ∨ ¬ Failed P dir F now a b)

include S in
theorem Snapshot.step_iff {includeFailed : Bool} :
    Step P dir F now includeFailed a b ↔
      ∃ link ∈ graph.adjacent includeFailed a, link.target = b := by
  constructor
  · rintro ⟨hlinked, hfailed⟩
    obtain ⟨hne, hsome⟩ := S.linked_iff.mp hlinked
    obtain ⟨link, hlink⟩ := Option.isSome_iff_exists.mp hsome
    obtain ⟨_, _, rfl⟩ := linkAt_ends S.keyed hlink
    exact ⟨link, S.mem_adjacent.mpr
      ⟨hlink, hne, hfailed.imp_right fun hnot h => hnot ((S.health_failed_iff hlink).mp h)⟩, rfl⟩
  · rintro ⟨link, hlink, rfl⟩
    obtain ⟨hat, hne, hfailed⟩ := S.mem_adjacent.mp hlink
    exact ⟨S.linked_iff.mpr ⟨hne, Option.isSome_of_mem hat⟩,
      hfailed.imp_right fun hnot h => hnot ((S.health_failed_iff hat).mpr h)⟩

/-- Hops that a search from a Node to an owner finds. -/
structure MeshWay (P : Runtime Data) (dir : ControlDir Data) (F : Type) (now : Int)
    (includeFailed : Bool) (source owner : Str) (hops : List Str) : Prop where
  head : hops.head? = some source
  last : hops.getLast? = some owner
  nodup : hops.Nodup
  short : hops.length ≤ maxHops
  steps : hops.IsChain (Step P dir F now includeFailed)

include S in
/-- **The ways through the graph, read off the inputs.** -/
theorem Snapshot.meshWay_iff {includeFailed : Bool} {source owner : Str} {hops : List Str} :
    MeshWay P dir F now includeFailed source owner hops ↔
      ∃ links, ShortWay graph includeFailed source owner hops links := by
  constructor
  · intro h
    have hchain : hops.IsChain fun a b =>
        ∃ link ∈ graph.adjacent includeFailed a, link.target = b ∧ True :=
      h.steps.imp fun a b hstep => by
        obtain ⟨link, hlink, htarget⟩ := S.step_iff.mp hstep
        exact ⟨link, hlink, htarget, trivial⟩
    obtain ⟨links, hway, _⟩ := exists_way h.head h.last h.nodup hchain
    exact ⟨links, hway, h.short⟩
  · rintro ⟨links, hway, hshort⟩
    refine ⟨hway.head, hway.last, hway.nodup, hshort, hway.chain.imp fun a b hjoined => ?_⟩
    obtain ⟨link, _, hlink, htarget⟩ := hjoined
    exact S.step_iff.mpr ⟨link, hlink, htarget⟩

end MeshWays

end Bpc.Deploy
