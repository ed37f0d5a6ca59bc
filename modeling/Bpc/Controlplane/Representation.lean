/-
  CAN THE TREE SHOW THE MAP? — whole runs of `Apply`, crashes and `ReconcileProjection`.

  1. **The failure** — a key above another key, or one that scans back under another name, has no
     tree, and directories stay: after two ordinary puts no reconciliation succeeds
     (`projection_stuck`).
  2. **The condition** — `Representable`.  Then every file of the tree was put and every directory
     is above one (`TreeShape`), and the tree scans back as the map (`scan_reconciled`).
-/
import Bpc.Controlplane.Reconcile

namespace Bpc.Controlplane

open SlashPath

variable {Payload Data : Type}

/-! ## Runs -/

/-- What can happen to one state directory. -/
inductive ProjectionEvent (Payload Data : Type) where
  | apply (index : Nat) (payload : Payload)
  /-- The process dies after `done` operations were projected. -/
  | crash (index : Nat) (payload : Payload) (done : Nat)
  | reconcile (range : MapRange Str Data)

/-- A new database over an empty state directory. -/
def Machine.fresh (root : Str) (names : Names Str := linuxNames root) : Machine Data where
  root := root
  store := Store.empty
  tree := FileTree.empty names

/-- The tree after `done` operations. -/
def crashTree (m : Machine Data) (done : Nat) : Outcome Data → Tree Data
  | .committed ops => (projectOperations m.root m.tree (ops.take done)).1
  | _ => m.tree

/-- One event. -/
def runEvent (C : Codec Payload Data) (m : Machine Data) : ProjectionEvent Payload Data →
    Machine Data
  | .apply index payload => (apply C m index payload).1
  | .crash index payload done =>
    let applied := applyLog C m.store index payload
    { m with store := applied.1, tree := crashTree m done applied.2 }
  | .reconcile range =>
    { m with tree := (reconcileProjection range m.store.canonical m.tree).1 }

/-- A run. -/
def runEvents (C : Codec Payload Data) (m : Machine Data)
    (events : List (ProjectionEvent Payload Data)) : Machine Data :=
  events.foldl (runEvent C) m

/-- The paths that a commit puts. -/
def Outcome.putPaths : Outcome Data → List Str
  | .committed ops => (ops.filter fun op => decide (op.op = .put)).map Operation.path
  | _ => []

/-- The paths that an event puts. -/
def eventPuts (C : Codec Payload Data) (m : Machine Data) : ProjectionEvent Payload Data → List Str
  | .apply index payload => (applyLog C m.store index payload).2.putPaths
  | .crash index payload _ => (applyLog C m.store index payload).2.putPaths
  | .reconcile _ => []

/-- The paths put by the committed mutations of a run. -/
def putPaths (C : Codec Payload Data) : Machine Data →
    List (ProjectionEvent Payload Data) → List Str
  | _, [] => []
  | m, e :: rest => eventPuts C m e ++ putPaths C (runEvent C m e) rest

/-- Paths that one tree can show together. -/
structure Representable (names : Names Str) (paths : List Str) : Prop where
  stable : ∀ p ∈ paths, StablePath p
  antichain : ∀ p ∈ paths, ∀ q ∈ paths, ¬ Above (keyParts p) (keyParts q)
  named : ∀ p ∈ paths, names.refusesWrite (keyParts p) = none
  /-- The starting points of the scan have names that are taken. -/
  scanned : ∀ c ∈ scanCandidates, names.refuses (projectionPath c) = none

/-! ## The invariant -/

/-- Files are at put paths, directories above put paths. -/
structure TreeShape (names : Names Str) (paths : List Str) (tree : Tree Data) : Prop where
  names : tree.names = names
  files : ∀ r d, tree.get r = some (.file d) → ∃ p ∈ paths, keyParts p = r
  dirs : ∀ r, tree.get r = some .dir → r = [] ∨ ∃ p ∈ paths, Above r (keyParts p)

theorem treeShape_empty (names : Names Str) (paths : List Str) :
    TreeShape names paths (FileTree.empty names : Tree Data) := by
  have hget : ∀ r, (FileTree.empty names : Tree Data).get r =
      if [] = r then some .dir else none := by
    intro r
    show (Std.ExtTreeMap.insert (∅ : SortedMap (List Str) (Node Data)) [] .dir)[r]? = _
    rw [SortedMap.get_insert, SortedMap.get_empty]
  refine ⟨rfl, fun r d h => ?_, fun r h => ?_⟩
  · rw [hget] at h
    split at h <;> cases h
  · rw [hget] at h
    split at h
    · next hr => exact Or.inl hr.symm
    · cases h

variable {names : Names Str} {paths : List Str} {tree : Tree Data} {p : Str} {d : Data}

/-- Writing at a put path keeps the shape, also when it fails half-way. -/
theorem TreeShape.written (h : TreeShape names paths tree) (hp : p ∈ paths) (d : Data) :
    TreeShape names paths (tree.writeFile (keyParts p) d).1 := by
  refine ⟨by rw [FileTree.names_writeFile, h.names], fun r d' hr => ?_, fun r hr => ?_⟩
  · rcases FileTree.writeFile_cases tree (keyParts p) d r with ⟨heq, -⟩ | hsame | ⟨-, hdir, -⟩
    · exact ⟨p, hp, heq.symm⟩
    · exact h.files r d' (hsame ▸ hr)
    · rw [hdir] at hr
      cases hr
  · rcases FileTree.writeFile_cases tree (keyParts p) d r with ⟨-, hfile⟩ | hsame | ⟨habove, -, -⟩
    · rw [hfile] at hr
      cases hr
    · exact h.dirs r (hsame ▸ hr)
    · exact Or.inr ⟨p, hp, habove⟩

theorem TreeShape.discarded (h : TreeShape names paths tree) (r : List Str) :
    TreeShape names paths (tree.discard r).1 := by
  refine ⟨by rw [FileTree.names_discard, h.names], fun q d hq => ?_, fun q hq => ?_⟩
  all_goals
    rcases FileTree.discard_cases tree r q with ⟨-, hnone⟩ | hsame
    · rw [hnone] at hq
      cases hq
  · exact h.files q d (hsame ▸ hq)
  · exact h.dirs q (hsame ▸ hq)

theorem projectionPath_of_stable (h : StablePath p) : projectionPath p = keyParts p :=
  projectionPath_of_normalized h

theorem TreeShape.projected {root : Str} {ops : List (Operation Data)}
    (hpaths : Representable names paths) (h : TreeShape names paths tree)
    (hops : ∀ op ∈ ops, op.op = .put → op.path ∈ paths) :
    TreeShape names paths (projectOperations root tree ops).1 := by
  refine runSteps_keeps (fun op hop s hs => ?_) h
  refine projectOperation_keeps hs (fun hput => ?_) fun _ => hs.discarded _
  have hp := hops op hop hput
  rw [projectionPath_of_stable (hpaths.stable _ hp)]
  exact hs.written hp op.data

variable {canonical : Bucket Data}

theorem TreeShape.writtenAll (hpaths : Representable names paths) (h : TreeShape names paths tree)
    (hkeys : ∀ key, canonical[key]? ≠ none → key ∈ paths) (range : MapRange Str Data) :
    TreeShape names paths (tree.writeAll (projectEntries range canonical)).1 := by
  refine runSteps_keeps (fun e he s hs => ?_) h
  obtain ⟨key, hkey, hpath⟩ := mem_projectEntries.mp (show (e.1, e.2) ∈ _ from he)
  have hp := hkeys key (by rw [hkey]; simp)
  rw [← hpath, projectionPath_of_stable (hpaths.stable _ hp)]
  exact hs.written hp e.2

theorem TreeShape.reconciled (hpaths : Representable names paths) (h : TreeShape names paths tree)
    (hkeys : ∀ key, canonical[key]? ≠ none → key ∈ paths) (range : MapRange Str Data) :
    TreeShape names paths (reconcileProjection range canonical tree).1 := by
  have hwritten := h.writtenAll hpaths hkeys range
  unfold reconcileProjection
  simp only
  split
  · exact hwritten
  · split
    · exact hwritten
    · exact runSteps_keeps (fun p _ s hs => hs.discarded p) hwritten

/-- The tree has the shape, and the keys were put. -/
structure Shaped (names : Names Str) (paths : List Str) (m : Machine Data) : Prop where
  tree : TreeShape names paths m.tree
  keys : ∀ key, m.store.canonical[key]? ≠ none → key ∈ paths

theorem mem_putPaths {ops : List (Operation Data)} {op : Operation Data} (hop : op ∈ ops)
    (hput : op.op = .put) : op.path ∈ (Outcome.committed ops).putPaths :=
  List.mem_map.mpr ⟨op, List.mem_filter.mpr ⟨hop, by simp [hput]⟩, rfl⟩

variable {C : Codec Payload Data}

theorem key_of_applyLog {store : Store Data} {index : Nat} {payload : Payload} {key : Str}
    (h : (applyLog C store index payload).1.canonical[key]? ≠ none) :
    store.canonical[key]? ≠ none ∨ key ∈ (applyLog C store index payload).2.putPaths := by
  rcases applyLog_cases C store index payload with hs | ⟨e, hs, -⟩ | ⟨ops, store', hs, hc⟩
  · rw [hs] at h
    exact Or.inl h
  · rw [hs] at h
    exact Or.inl h
  · rw [hs] at h ⊢
    obtain ⟨command, -, hcommits⟩ := hc.decoded
    rw [hcommits.canonical] at h
    obtain ⟨v, hv⟩ := Option.ne_none_iff_exists'.mp h
    rcases key_of_applyOps hv with hold | ⟨op, hop, hput, hpath, -⟩
    · exact Or.inl (by rw [hold]; simp)
    · exact Or.inr (hpath ▸ mem_putPaths hop hput)

theorem Shaped.event {m : Machine Data} (hpaths : Representable names paths)
    (h : Shaped names paths m)
    (e : ProjectionEvent Payload Data) (hputs : ∀ p ∈ eventPuts C m e, p ∈ paths) :
    Shaped names paths (runEvent C m e) := by
  -- the tree an entry leaves: some of its operations projected, or nothing done
  have hproject : ∀ outcome : Outcome Data, (∀ p ∈ outcome.putPaths, p ∈ paths) →
      ∀ n, TreeShape names paths (crashTree m n outcome) := by
    intro outcome hout n
    cases outcome with
    | rejected e => exact h.tree
    | replayed => exact h.tree
    | conflicted e => exact h.tree
    | committed ops =>
      refine h.tree.projected hpaths fun op hop hput => ?_
      exact hout _ (mem_putPaths (List.mem_of_mem_take hop) hput)
  have hkeys : ∀ index payload,
      (∀ p ∈ (applyLog C m.store index payload).2.putPaths, p ∈ paths) →
      ∀ key, (applyLog C m.store index payload).1.canonical[key]? ≠ none → key ∈ paths := by
    intro index payload hout key hkey
    rcases key_of_applyLog hkey with hold | hput
    · exact h.keys key hold
    · exact hout key hput
  cases e with
  | apply index payload =>
    refine ⟨?_, ?_⟩
    · show TreeShape names paths (finishApply m _ (applyLog C m.store index payload).2).1.tree
      have hputs' : ∀ p ∈ (applyLog C m.store index payload).2.putPaths, p ∈ paths := hputs
      revert hputs'
      cases (applyLog C m.store index payload).2 with
      | rejected e => exact fun _ => h.tree
      | replayed => exact fun _ => h.tree
      | conflicted e => exact fun _ => h.tree
      | committed ops =>
        intro hout
        exact h.tree.projected hpaths fun op hop hput => hout _ (mem_putPaths hop hput)
    · intro key hkey
      have hstore := apply_store C m index payload
      rw [show (runEvent C m (.apply index payload)).store = _ from hstore] at hkey
      exact hkeys index payload hputs key hkey
  | crash index payload done =>
    exact ⟨hproject _ hputs done, hkeys index payload hputs⟩
  | reconcile range =>
    exact ⟨h.tree.reconciled hpaths h.keys range, h.keys⟩

theorem Shaped.run (hpaths : Representable names paths) :
    ∀ {events : List (ProjectionEvent Payload Data)} {m : Machine Data}, Shaped names paths m →
      (∀ p ∈ putPaths C m events, p ∈ paths) → Shaped names paths (runEvents C m events)
  | [], _, h, _ => h
  | e :: rest, m, h, hputs => by
    have hstep : Shaped names paths (runEvent C m e) :=
      h.event hpaths e fun p hp => hputs p (List.mem_append_left _ hp)
    show Shaped names paths (runEvents C (runEvent C m e) rest)
    exact Shaped.run hpaths hstep fun p hp => hputs p (List.mem_append_right _ hp)

/-! ## The invariant lets a reconciliation succeed -/

section Shape

variable {names : Names Str} {paths : List Str} {canonical : Bucket Data} {tree : Tree Data}

theorem normalizedKeys_of_stable (hpaths : Representable names paths)
    (hkeys : ∀ key, canonical[key]? ≠ none → key ∈ paths) : NormalizedKeys canonical :=
  fun key hkey => ⟨key, hpaths.stable key (hkeys key hkey)⟩

theorem occupied_shape (hpaths : Representable names paths) (h : TreeShape names paths tree)
    (hkeys : ∀ key, canonical[key]? ≠ none → key ∈ paths) {r : List Str}
    (hr : Occupied canonical tree r) : ∃ p ∈ paths, keyParts p = r := by
  rcases hr with hfile | ⟨key, hkey, hpath⟩
  · obtain ⟨d, hd⟩ := FileTree.isFile_iff.mp hfile
    exact h.files r d hd
  · refine ⟨key, hkeys key hkey, ?_⟩
    rw [← projectionPath_of_stable (hpaths.stable key (hkeys key hkey)), hpath]

theorem not_above_node (hpaths : Representable names paths) (h : TreeShape names paths tree)
    (hp : p ∈ paths)
    {q : List Str} (hq : tree.get q ≠ none) : ¬ Above (keyParts p) q := by
  intro hab
  obtain ⟨n, hn⟩ := Option.ne_none_iff_exists'.mp hq
  cases n with
  | file d =>
    obtain ⟨p', hp', rfl⟩ := h.files q d hn
    exact hpaths.antichain p hp p' hp' hab
  | dir =>
    rcases h.dirs q hn with rfl | ⟨p', hp', hq'⟩
    · exact hab.2 (List.prefix_nil.mp hab.1)
    · exact hpaths.antichain p hp p' hp' (hab.extend hq'.1)

theorem reconcilable_of_shape (hpaths : Representable names paths) (h : TreeShape names paths tree)
    (hkeys : ∀ key, canonical[key]? ≠ none → key ∈ paths) : Reconcilable canonical tree := by
  have hpath : ∀ key, canonical[key]? ≠ none → projectionPath key = keyParts key :=
    fun key hkey => projectionPath_of_stable (hpaths.stable key (hkeys key hkey))
  constructor
  · -- entries can be written
    intro key hkey
    rw [hpath key hkey]
    constructor
    · intro a ha
      rw [FileTree.isFile_eq_false]
      intro d hd
      obtain ⟨p, hp, rfl⟩ := h.files a d hd
      exact hpaths.antichain p hp key (hkeys key hkey) ha
    · rw [h.names]
      exact hpaths.named key (hkeys key hkey)
    · intro hdir
      rcases h.dirs _ hdir with hnil | ⟨p, hp, hab⟩
      · exact keyParts_ne_nil key hnil
      · exact hpaths.antichain key (hkeys key hkey) p hp hab
  · intro key key' hkey hkey'
    rw [hpath key hkey, hpath key' hkey']
    exact hpaths.antichain key (hkeys key hkey) key' (hkeys key' hkey')
  · -- no file above a starting point of the scan
    intro c hc
    refine ⟨fun a ha => ?_, by rw [h.names, hpaths.scanned c hc]⟩
    rw [FileTree.isFile_eq_false]
    intro d hd
    obtain ⟨p, hp, rfl⟩ := h.files a d hd
    rw [← projectionPath_of_stable (hpaths.stable p hp)] at ha
    exact not_above_candidate (hpaths.stable p hp) hc ha
  · -- a reported file is reported under its own path
    intro c hc f key _ hocc hnorm hnone
    obtain ⟨p, hp, rfl⟩ := occupied_shape hpaths h hkeys hocc
    rw [join_keyParts, hpaths.stable p hp] at hnorm
    obtain rfl : p = key := Except.ok.inj hnorm
    rw [projectionPath_of_stable (hpaths.stable p hp)]
    refine ⟨by rw [h.names, names.written (hpaths.named p hp)], fun a ha hocc' => ?_,
      fun q hq hab => ?_⟩
    · obtain ⟨p', hp', rfl⟩ := occupied_shape hpaths h hkeys hocc'
      exact hpaths.antichain p' hp' p hp ha
    · rcases hq with hocc' | hold
      · obtain ⟨p', hp', rfl⟩ := occupied_shape hpaths h hkeys hocc'
        exact hpaths.antichain p hp p' hp' hab
      · exact not_above_node hpaths h hp hold hab

end Shape

/-! ## What the scan reads back -/

theorem prefix_candidate : ∀ c ∈ replicatedPrefixes,
    c ∈ scanCandidates ∧ c = c.dropLast ++ ['/'] ∧ projectionPath c = keyParts c.dropLast := by
  decide +kernel

theorem exact_candidate : ∀ c ∈ replicatedExact,
    c ∈ scanCandidates ∧ projectionPath c = keyParts c := by
  decide +kernel

theorem candidate_of_replicated : ∀ c ∈ scanCandidates,
    isReplicated (join (projectionPath c)) = true → join (projectionPath c) = c := by
  decide +kernel

theorem scannedAt_of_stable (hp : StablePath p) (hget : tree.get (keyParts p) = some (.file d)) :
    ∃ c ∈ scanCandidates, ScannedAt tree c p d := by
  have hrep : isReplicated p = true := (normalize_cases hp).2
  simp only [isReplicated, Bool.or_eq_true, List.contains_iff_mem, List.any_eq_true,
    Bool.and_eq_true, decide_eq_true_eq, List.isPrefixOf_iff_prefix] at hrep
  rcases hrep with hexact | ⟨c, hc, ⟨t, rfl⟩, hlen⟩
  · obtain ⟨hmem, hpath⟩ := exact_candidate p hexact
    exact ⟨p, hmem, Or.inl ⟨by rw [hpath]; exact hget, rfl⟩⟩
  · obtain ⟨hmem, htext, hpath⟩ := prefix_candidate c hc
    have hparts : keyParts (c ++ t) = projectionPath c ++ keyParts t := by
      rw [hpath, htext, List.dropLast_concat, List.append_assoc]
      exact List.splitOn_append_cons_self _ _
    have habove : Above (projectionPath c) (keyParts (c ++ t)) := by
      rw [hparts]
      refine ⟨List.prefix_append _ _, fun heq => keyParts_ne_nil t ?_⟩
      exact List.self_eq_append_right.mp heq
    refine ⟨c, hmem, Or.inr ⟨FileTree.get_above (by rw [hget]; simp) habove, keyParts (c ++ t),
      hget, habove.1, ?_⟩⟩
    rw [join_keyParts]
    exact hp

theorem key_of_scannedAt {c key : Str} (hc : c ∈ scanCandidates)
    (hfiles : ∀ r d, tree.get r = some (.file d) → ∃ p, StablePath p ∧ keyParts p = r)
    (h : ScannedAt tree c key d) : StablePath key ∧ tree.get (keyParts key) = some (.file d) := by
  rcases h with ⟨hget, rfl⟩ | ⟨-, f, hget, -, hnorm⟩
  · obtain ⟨p, hp, hpath⟩ := hfiles _ d hget
    have hjoin : join (projectionPath key) = p := by rw [← hpath, join_keyParts]
    have hrep : isReplicated (join (projectionPath key)) = true := by
      rw [hjoin]
      exact (normalize_cases hp).2
    obtain rfl : p = key := by rw [← hjoin, candidate_of_replicated key hc hrep]
    exact ⟨hp, by rw [hpath]; exact hget⟩
  · obtain ⟨p, hp, rfl⟩ := hfiles f d hget
    rw [join_keyParts, hp] at hnorm
    obtain rfl : p = key := Except.ok.inj hnorm
    exact ⟨hp, hget⟩

theorem reconciled_file_iff {range : MapRange Str Data} (hpaths : Representable names paths)
    (h : TreeShape names paths tree) (hkeys : ∀ key, canonical[key]? ≠ none → key ∈ paths)
    (hok : (reconcileProjection range canonical tree).2 = none) (hp : p ∈ paths) :
    (reconcileProjection range canonical tree).1.get (keyParts p) = some (.file d) ↔
      canonical[p]? = some d := by
  have hnorm := normalizedKeys_of_stable hpaths hkeys
  obtain ⟨hw, existing, hscan, hdiscard⟩ := reconcile_eq_none.mp hok
  have htree : (reconcileProjection range canonical tree).1 =
      ((tree.writeAll (projectEntries range canonical)).1.discardAll
        (stalePaths range canonical existing)).1 := by
    unfold reconcileProjection
    simp only [hw, hscan]
  have hshape := h.writtenAll hpaths hkeys range
  have hfiles : ∀ r d', (tree.writeAll (projectEntries range canonical)).1.get r =
      some (.file d') → ∃ p, StablePath p ∧ keyParts p = r := by
    intro r d' hr
    obtain ⟨p', hp', hpath⟩ := hshape.files r d' hr
    exact ⟨p', hpaths.stable p' hp', hpath⟩
  -- the removed paths are the reported ones that are not entries
  have hstale : keyParts p ∈ stalePaths range canonical existing ↔
      (∃ d', (tree.writeAll (projectEntries range canonical)).1.get (keyParts p) =
        some (.file d')) ∧ canonical[p]? = none := by
    rw [mem_stalePaths]
    constructor
    · rintro ⟨key, hfound, hnone, hpath⟩
      obtain ⟨d', hd'⟩ := Option.ne_none_iff_exists'.mp hfound
      obtain ⟨c, hc, hscanned⟩ := scanned_of_get hscan hd'
      obtain ⟨hstable, hget⟩ := key_of_scannedAt hc hfiles hscanned
      rw [projectionPath_of_stable hstable] at hpath
      obtain rfl : key = p := keyParts_injective hpath
      exact ⟨⟨d', hget⟩, hnone⟩
    · rintro ⟨⟨d', hd'⟩, hnone⟩
      obtain ⟨c, hc, hscanned⟩ := scannedAt_of_stable (hpaths.stable p hp) hd'
      exact ⟨p, get_of_scanned hscan ⟨c, hc, hscanned⟩, hnone,
        projectionPath_of_stable (hpaths.stable p hp)⟩
  rw [htree, FileTree.get_discardAll _ hdiscard]
  by_cases hmem : keyParts p ∈ stalePaths range canonical existing
  · rw [if_pos hmem, (hstale.mp hmem).2]
    simp
  · rw [if_neg hmem, written_file_iff hnorm hw]
    constructor
    · rintro (⟨key, hkey, hpath⟩ | ⟨hold, hno⟩)
      · rw [projectionPath_of_stable (hpaths.stable key (hkeys key (by rw [hkey]; simp)))] at hpath
        rwa [← keyParts_injective hpath]
      · exfalso
        have hnone : canonical[p]? = none := by
          by_contra hne
          exact hno p hne (projectionPath_of_stable (hpaths.stable p hp))
        exact hmem (hstale.mpr ⟨⟨d, (written_file_iff hnorm hw).mpr (Or.inr ⟨hold, hno⟩)⟩, hnone⟩)
    · intro hkey
      exact Or.inl ⟨p, hkey, projectionPath_of_stable (hpaths.stable p hp)⟩

/-- **The reconciled tree scans back as the canonical map.** -/
theorem scan_reconciled {range : MapRange Str Data} (hpaths : Representable names paths)
    (h : TreeShape names paths tree) (hkeys : ∀ key, canonical[key]? ≠ none → key ∈ paths)
    (hok : (reconcileProjection range canonical tree).2 = none) :
    scanReplicatedProjection (reconcileProjection range canonical tree).1 = .ok canonical := by
  have hshape := h.reconciled hpaths hkeys range
  have hfiles : ∀ r d, (reconcileProjection range canonical tree).1.get r = some (.file d) →
      ∃ p, StablePath p ∧ keyParts p = r := by
    intro r d hr
    obtain ⟨p, hp, hpath⟩ := hshape.files r d hr
    exact ⟨p, hpaths.stable p hp, hpath⟩
  have hreturns : ∃ found,
      scanReplicatedProjection (reconcileProjection range canonical tree).1 = .ok found := by
    rw [scan_ok_iff]
    intro c hc
    refine ⟨fun a ha => ?_, by rw [hshape.names, hpaths.scanned c hc]⟩
    rw [FileTree.isFile_eq_false]
    intro d hd
    obtain ⟨p, hp, rfl⟩ := hfiles a d hd
    rw [← projectionPath_of_stable hp] at ha
    exact not_above_candidate hp hc ha
  obtain ⟨found, hfound⟩ := hreturns
  rw [hfound]
  congr 1
  -- both maps have the value of the file at the key's own path
  have hsound : ∀ (key : Str) (d : Data), found[key]? = some d → canonical[key]? = some d := by
    intro key d hkey
    obtain ⟨c, hc, hscanned⟩ := scanned_of_get hfound hkey
    obtain ⟨hstable, hget⟩ := key_of_scannedAt hc hfiles hscanned
    obtain ⟨p, hp, hpath⟩ := hshape.files _ d hget
    obtain rfl : p = key := keyParts_injective hpath
    exact (reconciled_file_iff hpaths h hkeys hok hp).mp hget
  apply SortedMap.ext_get
  intro key
  cases hcan : canonical[key]? with
  | none =>
    by_contra hne
    obtain ⟨d, hd⟩ := Option.ne_none_iff_exists'.mp hne
    rw [hsound key d hd] at hcan
    cases hcan
  | some d =>
    have hp : key ∈ paths := hkeys key (by rw [hcan]; simp)
    have hget := (reconciled_file_iff hpaths h hkeys hok hp).mpr hcan
    have hne := get_of_scanned hfound (scannedAt_of_stable (hpaths.stable key hp) hget)
    obtain ⟨d', hd'⟩ := Option.ne_none_iff_exists'.mp hne
    rw [hd', ← hsound key d' hd', hcan]

/-! ## Whole runs -/

/-- **A run that puts representable paths has a faithful projection.**  After any `Apply` calls,
    crashes and reconciliations, `ReconcileProjection` succeeds in every order, and its tree scans
    back as the map. -/
theorem reconcile_exact_of_run (C : Codec Payload Data) (root : Str) (names : Names Str)
    (events : List (ProjectionEvent Payload Data)) (range : MapRange Str Data)
    (hpaths : Representable names (putPaths C (Machine.fresh root names) events)) :
    let m := runEvents C (Machine.fresh root names) events
    (reconcileProjection range m.store.canonical m.tree).2 = none ∧
      scanReplicatedProjection (reconcileProjection range m.store.canonical m.tree).1 =
        .ok m.store.canonical := by
  intro m
  have hstart : Shaped names (putPaths C (Machine.fresh root names) events)
      (Machine.fresh root names : Machine Data) :=
    ⟨treeShape_empty .., fun key hkey => absurd (SortedMap.get_empty key) hkey⟩
  have hrun : Shaped names _ m := hstart.run hpaths fun p hp => hp
  have hnorm := normalizedKeys_of_stable hpaths hrun.keys
  have hok := (reconcile_ok_iff hnorm).mpr (reconcilable_of_shape hpaths hrun.tree hrun.keys) range
  exact ⟨hok, scan_reconciled hpaths hrun.tree hrun.keys hok⟩

/-- Two puts, a crash before the projection, a reconciliation. -/
theorem reconcile_exact_of_run_devices :
    let m := runEvents plainCodec (Machine.fresh "/state")
      [.apply 1 (putCommand "control/devices/a.json" "1"),
       .crash 2 (putCommand "control/nodes/n.json" "2") 0, .reconcile MapRange.sorted]
    (reconcileProjection MapRange.sorted m.store.canonical m.tree).2 = none ∧
      scanReplicatedProjection (reconcileProjection MapRange.sorted m.store.canonical m.tree).1 =
        .ok m.store.canonical :=
  reconcile_exact_of_run plainCodec "/state" (linuxNames "/state") _ MapRange.sorted
    ⟨by decide +kernel, by decide +kernel, by decide +kernel, by decide +kernel⟩

/-- A record at `control/devices/a`, and then one below it. -/
def stuckMachine : Machine Str :=
  runEvents plainCodec (Machine.fresh "/state")
    [.apply 1 (putCommand "control/devices/a" "1"), .apply 2 (putCommand "control/devices/a/b" "2")]

/-- **No tree has both**: every reconciliation fails. -/
theorem projection_stuck :
    stuckMachine.store.revision = 2 ∧
    (reconcileProjection MapRange.sorted stuckMachine.store.canonical stuckMachine.tree).2 =
      some .notDirectory := by
  decide +kernel

end Bpc.Controlplane
