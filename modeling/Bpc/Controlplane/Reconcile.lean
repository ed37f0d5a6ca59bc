/-
  RECONCILIATION — when `ReconcileProjection` succeeds, and what tree it leaves.

  `reconcile_ok_iff` is exact, for an ARBITRARY tree (`Reconcilable`).  Of all orders only that of
  the removals matters: a stale directory must come after what is below it.
-/
import Bpc.Controlplane.Projection

namespace Bpc.Controlplane

open SlashPath

variable {Data : Type}

/-! ## The phases of a reconciliation -/

variable {range : MapRange Str Data} {canonical : Bucket Data} {data : Data}

theorem mem_projectEntries {p : List Str} : (p, data) ∈ projectEntries range canonical ↔
      ∃ key, canonical[key]? = some data ∧ projectionPath key = p := by
  unfold projectEntries
  rw [List.mem_map]
  constructor
  · rintro ⟨⟨key, d⟩, hmem, h⟩
    cases h
    exact ⟨key, MapRange.mem_list.mp hmem, rfl⟩
  · rintro ⟨key, hget, rfl⟩
    exact ⟨(key, data), MapRange.mem_list.mpr hget, rfl⟩

theorem mem_stalePaths {existing : Bucket Data} {p : List Str} :
    p ∈ stalePaths range canonical existing ↔
      ∃ key, existing[key]? ≠ none ∧ canonical[key]? = none ∧ projectionPath key = p := by
  unfold stalePaths
  simp only [List.mem_map, List.mem_filter, Option.isNone_iff_eq_none]
  constructor
  · rintro ⟨⟨key, d⟩, ⟨hmem, hnone⟩, rfl⟩
    exact ⟨key, by rw [MapRange.mem_list.mp hmem]; simp, hnone, rfl⟩
  · rintro ⟨key, hne, hnone, rfl⟩
    obtain ⟨d, hd⟩ := Option.ne_none_iff_exists'.mp hne
    exact ⟨(key, d), ⟨MapRange.mem_list.mpr hd, hnone⟩, rfl⟩

/-- Keys that came out of the normaliser. -/
def NormalizedKeys (canonical : Bucket Data) : Prop :=
  ∀ key, canonical[key]? ≠ none → ∃ path, normalizeReplicatedPath path = .ok key

theorem nodup_projectEntries (hkeys : NormalizedKeys canonical) (range : MapRange Str Data) :
    ((projectEntries range canonical).map Prod.fst).Nodup := by
  unfold projectEntries
  rw [List.map_map]
  have hnd : (((range.list canonical).map Prod.fst).map projectionPath).Nodup := by
    refine (List.nodup_map_iff_inj_on (range.nodup_keys canonical)).mpr ?_
    have hparts : ∀ key ∈ (range.list canonical).map Prod.fst,
        projectionPath key = keyParts key := by
      intro key hkey
      obtain ⟨⟨k, d⟩, hmem, rfl⟩ := List.mem_map.mp hkey
      obtain ⟨path, hpath⟩ := hkeys k (by rw [MapRange.mem_list.mp hmem]; simp)
      exact projectionPath_of_normalized hpath
    intro a ha b hb hab
    rw [hparts a ha, hparts b hb] at hab
    exact keyParts_injective hab
  rwa [List.map_map] at hnd

variable {tree : Tree Data}

theorem reconcile_eq_none :
    (reconcileProjection range canonical tree).2 = none ↔
      (tree.writeAll (projectEntries range canonical)).2 = none ∧
      ∃ existing,
        scanReplicatedProjection (tree.writeAll (projectEntries range canonical)).1 = .ok existing ∧
        ((tree.writeAll (projectEntries range canonical)).1.discardAll
          (stalePaths range canonical existing)).2 = none := by
  unfold reconcileProjection
  cases hw : (tree.writeAll (projectEntries range canonical)).2 with
  | some e => simp [hw]
  | none =>
    simp only [hw, true_and]
    cases scanReplicatedProjection (tree.writeAll (projectEntries range canonical)).1 with
    | error e => simp
    | ok existing => simp

/-! ## The tree after the write loop -/

section Written

variable {canonical : Bucket Data} {tree : Tree Data} {range : MapRange Str Data}

variable {r : List Str}

theorem not_above_of_written (hkeys : NormalizedKeys canonical)
    (hw : (tree.writeAll (projectEntries range canonical)).2 = none)
    (hr : tree.get r = some (.file data)) {key : Str} (hkey : canonical[key]? ≠ none) :
    ¬ Above r (projectionPath key) := by
  intro habove
  obtain ⟨v, hv⟩ := Option.ne_none_iff_exists'.mp hkey
  have hentry : (projectionPath key, v) ∈ projectEntries range canonical :=
    mem_projectEntries.mpr ⟨key, hv, rfl⟩
  have hwritable := ((FileTree.writeAll_ok_iff (nodup_projectEntries hkeys range)).mp hw _ hentry).1
  have hfile : tree.isFile r = true := FileTree.isFile_iff.mpr ⟨data, hr⟩
  rw [hwritable.clear r habove] at hfile
  cases hfile

theorem written_file_iff (hkeys : NormalizedKeys canonical)
    (hw : (tree.writeAll (projectEntries range canonical)).2 = none) :
    (tree.writeAll (projectEntries range canonical)).1.get r = some (.file data) ↔
      (∃ key, canonical[key]? = some data ∧ projectionPath key = r) ∨
      (tree.get r = some (.file data) ∧ ∀ key, canonical[key]? ≠ none →
        projectionPath key ≠ r) := by
  have hnd := nodup_projectEntries hkeys range
  by_cases hentry : ∃ key v, canonical[key]? = some v ∧ projectionPath key = r
  · -- an entry is written at `r`
    obtain ⟨key, v, hkey, rfl⟩ := hentry
    have hmem : (projectionPath key, v) ∈ projectEntries range canonical :=
      mem_projectEntries.mpr ⟨key, hkey, rfl⟩
    rw [FileTree.get_writeAll_of_mem hnd hw hmem]
    constructor
    · intro h
      cases h
      exact Or.inl ⟨key, hkey, rfl⟩
    · rintro (⟨key', hkey', hpath⟩ | ⟨-, hnone⟩)
      · have hmem' : (projectionPath key, data) ∈ projectEntries range canonical :=
          mem_projectEntries.mpr ⟨key', hkey', hpath⟩
        rw [← FileTree.get_writeAll_of_mem hnd hw hmem, FileTree.get_writeAll_of_mem hnd hw hmem']
      · exact absurd rfl (hnone key (by rw [hkey]; simp))
  · have hno : ∀ key, canonical[key]? ≠ none → projectionPath key ≠ r := by
      intro key hkey hpath
      obtain ⟨v, hv⟩ := Option.ne_none_iff_exists'.mp hkey
      exact hentry ⟨key, v, hv, hpath⟩
    by_cases habove : ∃ key v, canonical[key]? = some v ∧ Above r (projectionPath key)
    · -- a directory of some entry
      obtain ⟨key, v, hkey, hab⟩ := habove
      have hmem : (projectionPath key, v) ∈ projectEntries range canonical :=
        mem_projectEntries.mpr ⟨key, hkey, rfl⟩
      rw [FileTree.get_writeAll_of_above hnd hw hmem hab]
      constructor
      · intro h
        cases h
      · rintro (⟨key', hkey', hpath⟩ | ⟨hold, -⟩)
        · exact absurd hpath (hno key' (by rw [hkey']; simp))
        · exact absurd hab (not_above_of_written hkeys hw hold (by rw [hkey]; simp))
    · -- the loop does not touch `r`
      have houtside : ∀ e ∈ projectEntries range canonical, ¬ r <+: e.1 := by
        rintro ⟨p, v⟩ he hpre
        obtain ⟨key, hkey, rfl⟩ := mem_projectEntries.mp he
        by_cases hr : r = projectionPath key
        · exact hentry ⟨key, v, hkey, hr.symm⟩
        · exact habove ⟨key, v, hkey, hpre, hr⟩
      rw [FileTree.get_writeAll_outside hw houtside]
      constructor
      · intro h
        exact Or.inr ⟨h, hno⟩
      · rintro (⟨key, hkey, hpath⟩ | ⟨h, -⟩)
        · exact absurd hpath (hno key (by rw [hkey]; simp))
        · exact h

theorem written_node_iff (hkeys : NormalizedKeys canonical)
    (hw : (tree.writeAll (projectEntries range canonical)).2 = none) :
    (tree.writeAll (projectEntries range canonical)).1.get r ≠ none ↔
      tree.get r ≠ none ∨ ∃ key, canonical[key]? ≠ none ∧ r <+: projectionPath key := by
  have hnd := nodup_projectEntries hkeys range
  by_cases hpre : ∃ e ∈ projectEntries range canonical, r <+: e.1
  · obtain ⟨⟨p, v⟩, he, hr⟩ := hpre
    obtain ⟨key, hkey, rfl⟩ := mem_projectEntries.mp he
    refine iff_of_true ?_ (Or.inr ⟨key, by rw [hkey]; simp, hr⟩)
    by_cases heq : r = projectionPath key
    · rw [heq, FileTree.get_writeAll_of_mem hnd hw he]
      simp
    · rw [FileTree.get_writeAll_of_above hnd hw he ⟨hr, heq⟩]
      simp
  · have houtside : ∀ e ∈ projectEntries range canonical, ¬ r <+: e.1 :=
      fun e he hr => hpre ⟨e, he, hr⟩
    rw [FileTree.get_writeAll_outside hw houtside]
    constructor
    · exact Or.inl
    · rintro (h | ⟨key, hkey, hr⟩)
      · exact h
      · obtain ⟨v, hv⟩ := Option.ne_none_iff_exists'.mp hkey
        exact absurd hr (houtside (projectionPath key, v) (mem_projectEntries.mpr ⟨key, hv, rfl⟩))

end Written

/-! ## When a reconciliation succeeds -/

/-- A path on which the projected map has a file: an old one or an entry. -/
def Occupied (canonical : Bucket Data) (tree : Tree Data) (r : List Str) : Prop :=
  tree.isFile r = true ∨ ∃ key, canonical[key]? ≠ none ∧ projectionPath key = r

/-- What `ReconcileProjection` needs of the map and the tree. -/
structure Reconcilable (canonical : Bucket Data) (tree : Tree Data) : Prop where
  /-- No file above an entry, no directory in its place, no refused name. -/
  writable : ∀ key, canonical[key]? ≠ none → tree.Writable (projectionPath key)
  /-- No entry is above another entry. -/
  antichain : ∀ key key', canonical[key]? ≠ none → canonical[key']? ≠ none →
    ¬ Above (projectionPath key) (projectionPath key')
  /-- Every starting point of the scan can be looked up. -/
  candidates : ∀ c ∈ scanCandidates, Reachable tree (projectionPath c)
  /-- A stale path can be removed: no file above it, nothing below it. -/
  stale : ∀ c ∈ scanCandidates, ∀ f key, Above (projectionPath c) f → Occupied canonical tree f →
    normalizeReplicatedPath (join f) = .ok key → canonical[key]? = none →
    tree.names.refuses (projectionPath key) = none ∧
    (∀ a, Above a (projectionPath key) → ¬ Occupied canonical tree a) ∧
    ∀ q, Occupied canonical tree q ∨ tree.get q ≠ none → ¬ Above (projectionPath key) q

theorem not_replicated_above_candidate : ∀ c ∈ scanCandidates, ∀ a ∈ (projectionPath c).inits,
    a ≠ projectionPath c → isReplicated (join a) = false := by
  decide +kernel

theorem not_above_candidate {path key c : Str} (h : normalizeReplicatedPath path = .ok key)
    (hc : c ∈ scanCandidates) : ¬ Above (projectionPath key) (projectionPath c) := by
  intro habove
  have hnot := not_replicated_above_candidate c hc (projectionPath key)
    ((List.mem_inits _ _).mpr habove.1) habove.2
  rw [projectionPath_of_normalized h, join_keyParts, (normalize_cases h).2] at hnot
  cases hnot

theorem projectionPath_ne_nil {path key : Str} (h : normalizeReplicatedPath path = .ok key) :
    projectionPath key ≠ [] := by
  rw [projectionPath_of_normalized h]
  exact keyParts_ne_nil key

theorem written_isFile_iff (hkeys : NormalizedKeys canonical)
    (hw : (tree.writeAll (projectEntries range canonical)).2 = none) {r : List Str} :
    (tree.writeAll (projectEntries range canonical)).1.isFile r = true ↔
      Occupied canonical tree r := by
  rw [FileTree.isFile_iff]
  constructor
  · rintro ⟨d, hd⟩
    rcases (written_file_iff hkeys hw).mp hd with ⟨key, hkey, hpath⟩ | ⟨hold, -⟩
    · exact Or.inr ⟨key, by rw [hkey]; simp, hpath⟩
    · exact Or.inl (FileTree.isFile_iff.mpr ⟨d, hold⟩)
  · intro hocc
    by_cases hentry : ∃ key, canonical[key]? ≠ none ∧ projectionPath key = r
    · obtain ⟨key, hkey, hpath⟩ := hentry
      obtain ⟨v, hv⟩ := Option.ne_none_iff_exists'.mp hkey
      exact ⟨v, (written_file_iff hkeys hw).mpr (Or.inl ⟨key, hv, hpath⟩)⟩
    · rcases hocc with hfile | hkey
      · obtain ⟨d, hd⟩ := FileTree.isFile_iff.mp hfile
        refine ⟨d, (written_file_iff hkeys hw).mpr (Or.inr ⟨hd, fun key hkey hpath => ?_⟩)⟩
        exact hentry ⟨key, hkey, hpath⟩
      · exact absurd hkey hentry

theorem written_ok_iff (tree : Tree Data) (range : MapRange Str Data)
    (hkeys : NormalizedKeys canonical) :
    (tree.writeAll (projectEntries range canonical)).2 = none ↔
      (∀ key, canonical[key]? ≠ none → tree.Writable (projectionPath key)) ∧
      ∀ key key', canonical[key]? ≠ none → canonical[key']? ≠ none →
        ¬ Above (projectionPath key) (projectionPath key') := by
  rw [FileTree.writeAll_ok_iff (nodup_projectEntries hkeys range)]
  constructor
  · intro h
    have hmem : ∀ key, canonical[key]? ≠ none →
        ∃ v, (projectionPath key, v) ∈ projectEntries range canonical := by
      intro key hkey
      obtain ⟨v, hv⟩ := Option.ne_none_iff_exists'.mp hkey
      exact ⟨v, mem_projectEntries.mpr ⟨key, hv, rfl⟩⟩
    refine ⟨fun key hkey => ?_, fun key key' hkey hkey' => ?_⟩
    · obtain ⟨v, hv⟩ := hmem key hkey
      exact (h _ hv).1
    · obtain ⟨v, hv⟩ := hmem key hkey
      obtain ⟨v', hv'⟩ := hmem key' hkey'
      exact (h _ hv').2 _ hv
  · rintro ⟨hwritable, hanti⟩ ⟨p, v⟩ he
    obtain ⟨key, hkey, rfl⟩ := mem_projectEntries.mp he
    refine ⟨hwritable key (by rw [hkey]; simp), ?_⟩
    rintro ⟨p', v'⟩ he'
    obtain ⟨key', hkey', rfl⟩ := mem_projectEntries.mp he'
    exact hanti key' key (by rw [hkey']; simp) (by rw [hkey]; simp)

theorem removable_of_reconcilable (hkeys : NormalizedKeys canonical)
    (h : Reconcilable canonical tree)
    (hw : (tree.writeAll (projectEntries range canonical)).2 = none) {c key : Str}
    (hc : c ∈ scanCandidates)
    (hscan : ScannedAt (tree.writeAll (projectEntries range canonical)).1 c key data)
    (hnone : canonical[key]? = none) :
    (tree.writeAll (projectEntries range canonical)).1.Removable (projectionPath key) := by
  rcases hscan with ⟨hfile, rfl⟩ | ⟨hdir, f, hf, hpre, hnorm⟩
  · refine FileTree.removable_of_file hfile ?_
    rw [FileTree.names_writeAll]
    exact (h.candidates key hc).2
  · have hne : projectionPath c ≠ f := by
      rintro rfl
      rw [hdir] at hf
      cases hf
    have hocc := (written_isFile_iff hkeys hw).mp (FileTree.isFile_iff.mpr ⟨data, hf⟩)
    obtain ⟨hname, hfree, hbelow⟩ := h.stale c hc f key ⟨hpre, hne⟩ hocc hnorm hnone
    refine ⟨projectionPath_ne_nil hnorm, fun a ha => ?_, fun q hq hab => ?_, ?_⟩
    · rw [← Bool.not_eq_true, written_isFile_iff hkeys hw]
      exact hfree a ha
    · rcases (written_node_iff hkeys hw).mp hq with hold | ⟨key', hkey', hqpre⟩
      · exact hbelow q (Or.inr hold) hab
      · -- a directory on the way to an entry: then the entry itself is below the stale path
        exact hbelow (projectionPath key') (Or.inl (Or.inr ⟨key', hkey', rfl⟩)) (hab.extend hqpre)
    · rw [FileTree.names_writeAll, hname]

theorem scan_written_ok (hkeys : NormalizedKeys canonical)
    (hw : (tree.writeAll (projectEntries range canonical)).2 = none) :
    (∃ existing,
      scanReplicatedProjection (tree.writeAll (projectEntries range canonical)).1 = .ok existing) ↔
      ∀ c ∈ scanCandidates, Reachable tree (projectionPath c) := by
  rw [scan_ok_iff]
  refine forall₂_congr fun c hc => ?_
  unfold Reachable
  rw [FileTree.names_writeAll]
  refine and_congr_left fun _ => forall₂_congr fun a ha => ?_
  rw [← Bool.not_eq_true, ← Bool.not_eq_true, written_isFile_iff hkeys hw]
  refine not_congr ⟨?_, Or.inl⟩
  rintro (hfile | ⟨key, hkey, rfl⟩)
  · exact hfile
  · obtain ⟨path, hpath⟩ := hkeys key hkey
    exact absurd ha (not_above_candidate hpath hc)

/-- **`ReconcileProjection` succeeds in every order iff map and tree are `Reconcilable`.** -/
theorem reconcile_ok_iff (hkeys : NormalizedKeys canonical) :
    (∀ range, (reconcileProjection range canonical tree).2 = none) ↔
      Reconcilable canonical tree := by
  constructor
  · intro hall
    obtain ⟨hw, existing, hscan, -⟩ := reconcile_eq_none.mp (hall MapRange.sorted)
    obtain ⟨hwritable, hanti⟩ := (written_ok_iff tree MapRange.sorted hkeys).mp hw
    refine
      { writable := hwritable
        antichain := hanti
        candidates := (scan_written_ok hkeys hw).mp ⟨existing, hscan⟩
        stale := fun c hc f key hcf hocc hnorm hnone => ?_ }
    -- the order that removes `key` first must succeed too
    obtain ⟨hw, existing, hscan, hdiscard⟩ := reconcile_eq_none.mp (hall (MapRange.startingAt key))
    have hfile := (written_isFile_iff hkeys hw).mpr hocc
    obtain ⟨d, hd⟩ := FileTree.isFile_iff.mp hfile
    have hscanned : ScannedAt _ c key d :=
      Or.inr ⟨FileTree.get_above (by rw [hd]; simp) hcf, f, hd, hcf.1, hnorm⟩
    obtain ⟨v, hv⟩ := Option.ne_none_iff_exists'.mp (get_of_scanned hscan ⟨c, hc, hscanned⟩)
    obtain ⟨rest, hrest⟩ := MapRange.startingAt_cons hv
    have hstale : stalePaths (MapRange.startingAt key) canonical existing =
        projectionPath key :: (rest.filter fun e => canonical[e.1]?.isNone).map
          fun e => projectionPath e.1 := by
      rw [stalePaths, hrest, List.filter_cons_of_pos (by rw [hnone]; rfl), List.map_cons]
    rw [hstale] at hdiscard
    have hremovable := FileTree.discard_ok_iff.mp (runSteps_head hdiscard).1
    refine ⟨FileTree.names_writeAll (t := tree) _ ▸ hremovable.named, fun a ha hocc' => ?_,
      fun q hq hab => ?_⟩
    · have := (written_isFile_iff hkeys hw).mpr hocc'
      rw [hremovable.clear a ha] at this
      cases this
    · refine hremovable.childless q ?_ hab
      rcases hq with hocc' | hold
      · obtain ⟨d', hd'⟩ := FileTree.isFile_iff.mp ((written_isFile_iff hkeys hw).mpr hocc')
        rw [hd']
        simp
      · exact (written_node_iff hkeys hw).mpr (Or.inl hold)
  · intro h range
    have hw := (written_ok_iff tree range hkeys).mpr ⟨h.writable, h.antichain⟩
    obtain ⟨existing, hscan⟩ := (scan_written_ok hkeys hw).mpr h.candidates
    refine reconcile_eq_none.mpr ⟨hw, existing, hscan, FileTree.discardAll_ok fun p hp => ?_⟩
    obtain ⟨key, hfound, hnone, rfl⟩ := mem_stalePaths.mp hp
    obtain ⟨data, hdata⟩ := Option.ne_none_iff_exists'.mp hfound
    obtain ⟨c, hc, hscanned⟩ := scanned_of_get hscan hdata
    exact removable_of_reconcilable hkeys h hw hc hscanned hnone

end Bpc.Controlplane
