/-
  THE PROJECTION — the canonical map written out as files below the state root (fsm.go).

  1. **Program** — `projectOperations` after every commit, `reconcileProjection` before a strong
     read: write every entry, scan, remove the rest.  Directories are NEVER removed on purpose, and
     Go ranges over a map in any order (`MapRange`).
  2. **Scan** — `scan_ok_iff`, `scanned_of_get`, `get_of_scanned`.
-/
import Bpc.Controlplane.StateMachine
import Bpc.Lib.FileTree

namespace Bpc.Controlplane

open SlashPath

variable {Payload Data : Type}

/-! ## Paths in the tree -/

/-- `filepath.Join(root, path)`, relative to the root. -/
def projectionPath (path : Str) : List Str := cleanParts path

variable {key : Str}

theorem projectionPath_of_normalized {path : Str} (h : normalizeReplicatedPath path = .ok key) :
    projectionPath key = keyParts key := by
  obtain ⟨parts, hne, hp, rfl⟩ := normalize_names h
  rw [projectionPath, cleanParts_join hne hp, keyParts, splitOn_join hne fun n hn => (hp n hn).2.1]

/-! ## Projecting operations -/

/-- The tree of one Controller's state directory. -/
abbrev Tree (Data : Type) := FileTree Str Data

/-- Errors of `projectOperations`. -/
inductive ProjectionError where
  | escaped
  | fs (error : FsError)

/-- The error text, without what `os.PathError` puts before it. -/
def ProjectionError.text : ProjectionError → Str
  | .escaped => "projection escaped state root"
  | .fs .notExist => "no such file or directory"
  | .fs .notDirectory => "not a directory"
  | .fs .isDirectory => "file exists"
  | .fs .notEmpty => "directory not empty"
  | .fs (.refused .invalid) => "invalid argument"
  | .fs (.refused .tooLong) => "file name too long"

/-! ### Names of a Linux file system -/

/-- `NAME_MAX`: the bytes a component may have. -/
def nameMax : Nat := 255

/-- `PATH_MAX`: the bytes of a whole path with its terminating zero. -/
def pathMax : Nat := 4096

/-- The longest name of `os.CreateTemp` for `.bpc-state-*.tmp`. -/
def temporaryLen : Nat := 25

/-- A zero byte is refused before the file system is asked. -/
def hasZero (path : List Str) : Bool := path.any fun name => name.contains (Char.ofNat 0)

/-- The bytes of a path below `root`, each component with its slash. -/
def pathLen (root : Str) (path : List Str) : Nat :=
  utf8Len root + (path.map fun name => utf8Len name + 1).sum

/-- A component over `NAME_MAX`, or a path over `PATH_MAX`. -/
def tooLong (root : Str) (path : List Str) : Bool :=
  path.any (fun name => decide (nameMax < utf8Len name)) || decide (pathMax ≤ pathLen root path)

/-- The error of a name, a zero byte before a length. -/
def refusal (zero long : Bool) : Option NameError :=
  if zero then some .invalid else if long then some .tooLong else none

theorem refusal_eq_none {zero long : Bool} :
    refusal zero long = none ↔ zero = false ∧ long = false := by
  cases zero <;> cases long <;> simp [refusal]

/-- What Linux refuses; `NormalizeReplicatedPath` checks none of it. -/
def linuxNames (root : Str) : Names Str where
  refuses path := refusal (hasZero path) (tooLong root path)
  refusesWrite path :=
    refusal (hasZero path)
      (tooLong root path || decide (pathMax ≤ pathLen root path.dropLast + 1 + temporaryLen))
  above := by
    rintro a _ ⟨rest, rfl⟩ h
    rw [refusal_eq_none] at h ⊢
    simp only [hasZero, tooLong, pathLen, List.any_append, List.map_append, List.sum_append,
      Bool.or_eq_false_iff] at h ⊢
    exact ⟨h.1.1, h.2.1.1, decide_eq_false fun hle => of_decide_eq_false h.2.2 (by omega)⟩
  written := by
    intro p h
    rw [refusal_eq_none, Bool.or_eq_false_iff] at h
    exact refusal_eq_none.mpr ⟨h.1, h.2.1⟩

example : (linuxNames "/state").refuses ["control".toList, "devices".toList] = none := by decide
example : (linuxNames "/state").refusesWrite ["control".toList, ['a', Char.ofNat 0]] =
    some .invalid := by decide

/-- The joined path must stay below the state root. -/
def escapesRoot (root path : Str) : Bool :=
  !(root ++ ['/']).isPrefixOf (clean (root ++ '/' :: path) ++ ['/'])

/-- The result of a file operation as one of the projection. -/
def projected (result : Tree Data × Option FsError) : Tree Data × Option ProjectionError :=
  (result.1, result.2.map .fs)

/-- One operation on the tree; removing what is not there is no error. -/
def projectOperation (root : Str) (tree : Tree Data) (op : Operation Data) :
    Tree Data × Option ProjectionError :=
  if escapesRoot root op.path then (tree, some .escaped)
  else
    match op.op with
    | .put => projected (tree.writeFile (projectionPath op.path) op.data)
    | .delete => projected (tree.discard (projectionPath op.path))
    | .unsupported _ => (tree, none)

/-- `projectOperations`. -/
def projectOperations (root : Str) (tree : Tree Data) (ops : List (Operation Data)) :
    Tree Data × Option ProjectionError :=
  runSteps (projectOperation root) tree ops

/-- What keeps a put and a delete keeps an operation, also a failed one. -/
theorem projectOperation_keeps {P : Tree Data → Prop} {root : Str} {tree : Tree Data}
    {op : Operation Data} (h : P tree)
    (hput : op.op = .put → P (tree.writeFile (projectionPath op.path) op.data).1)
    (hdelete : op.op = .delete → P (tree.discard (projectionPath op.path)).1) :
    P (projectOperation root tree op).1 := by
  unfold projectOperation
  split
  · exact h
  · split
    · next hkind => exact hput hkind
    · next hkind => exact hdelete hkind
    · exact h

/-! ## Scanning -/

/-- The scan's starting points, sorted. -/
def scanCandidates : List Str := (replicatedPrefixes ++ replicatedExact).insertionSort (· ≤ ·)

/-- A file of the walk: reported under its normalised path, or skipped. -/
def scanFile (file : List Str × Data) : Option (Str × Data) :=
  match normalizeReplicatedPath (join file.1) with
  | .ok key => some (key, file.2)
  | .error _ => none

/-- One candidate: absent, a file, or a directory to walk.  A file above it is an error. -/
def scanCandidate (tree : Tree Data) (relative : Str) : Except FsError (List (Str × Data)) :=
  match tree.stat (projectionPath relative) with
  | .error .notExist => .ok []
  | .error e => .error e
  | .ok (.file data) => .ok [(relative, data)]
  | .ok .dir =>
    .ok ((tree.files.filter fun f => (projectionPath relative).isPrefixOf f.1).filterMap scanFile)

/-- The loop over the candidates. -/
def scanAll (tree : Tree Data) : List Str → Except FsError (List (Str × Data))
  | [] => .ok []
  | relative :: rest =>
    match scanCandidate tree relative with
    | .error e => .error e
    | .ok found =>
      match scanAll tree rest with
      | .error e => .error e
      | .ok more => .ok (found ++ more)

/-- `ScanReplicatedProjection`: of two files with one path the later one counts. -/
def scanReplicatedProjection (tree : Tree Data) : Except FsError (Bucket Data) :=
  match scanAll tree scanCandidates with
  | .error e => .error e
  | .ok pairs => .ok (SortedMap.insertPairs ∅ pairs)

/-! ## Reconciliation -/

/-- The files of the map, in some order. -/
def projectEntries (range : MapRange Str Data) (canonical : Bucket Data) :
    List (List Str × Data) :=
  (range.list canonical).map fun e => (projectionPath e.1, e.2)

/-- The paths to remove: found by the scan, and not an entry. -/
def stalePaths (range : MapRange Str Data) (canonical existing : Bucket Data) : List (List Str) :=
  ((range.list existing).filter fun e => canonical[e.1]?.isNone).map fun e => projectionPath e.1

/-- `ReconcileProjection` on a canonical map. -/
def reconcileProjection (range : MapRange Str Data) (canonical : Bucket Data) (tree : Tree Data) :
    Tree Data × Option FsError :=
  let written := tree.writeAll (projectEntries range canonical)
  match written.2 with
  | some e => (written.1, some e)
  | none =>
    match scanReplicatedProjection written.1 with
    | .error e => (written.1, some e)
    | .ok existing => written.1.discardAll (stalePaths range canonical existing)

/-! ## `Apply` as a whole -/

/-- The state machine: its database, and the tree below its state root. -/
structure Machine (Data : Type) where
  root : Str
  store : Store Data
  tree : Tree Data

/-- `MutationResult`, before `Submit` adds the commit index. -/
structure MutationResult where
  ok : Bool
  revision : UInt64
  error : Str
  conflict : Bool

/-- The answer to a committed command, by how its projection ended. -/
def committedResult (revision : UInt64) : Option ProjectionError → MutationResult
  | none => { ok := true, revision, error := [], conflict := false }
  | some e =>
    { ok := false, revision, conflict := false
      error := "state committed but projection failed: " ++ e.text }

/-- `Apply` after the transaction: only what committed is projected. -/
def finishApply (m : Machine Data) (store : Store Data) :
    Outcome Data → Machine Data × MutationResult
  | .rejected e =>
    ({ m with store }, { ok := false, revision := 0, error := e, conflict := false })
  | .conflicted e =>
    ({ m with store }, { ok := false, revision := store.revision, error := e, conflict := true })
  | .replayed =>
    ({ m with store }, { ok := true, revision := store.revision, error := [], conflict := false })
  | .committed ops =>
    let projected := projectOperations m.root m.tree ops
    ({ m with store, tree := projected.1 }, committedResult store.revision projected.2)

/-- `StateMachine.Apply` as a whole. -/
def apply (C : Codec Payload Data) (m : Machine Data) (index : Nat) (payload : Payload) :
    Machine Data × MutationResult :=
  let applied := applyLog C m.store index payload
  finishApply m applied.1 applied.2

theorem apply_store (C : Codec Payload Data) (m : Machine Data) (index : Nat) (payload : Payload) :
    (apply C m index payload).1.store = (applyLog C m.store index payload).1 := by
  show (finishApply m _ _).1.store = _
  cases (applyLog C m.store index payload).2 with
  | rejected e => rfl
  | conflicted e => rfl
  | replayed => rfl
  | committed ops => rfl

/-! ## What a scan returns -/

/-- `key` with `data` is reported at one candidate. -/
def ScannedAt (tree : Tree Data) (relative key : Str) (data : Data) : Prop :=
  (tree.get (projectionPath relative) = some (.file data) ∧ key = relative) ∨
  (tree.get (projectionPath relative) = some .dir ∧ ∃ f, tree.get f = some (.file data) ∧
    projectionPath relative <+: f ∧ normalizeReplicatedPath (join f) = .ok key)

variable {tree : Tree Data}

/-- A look-up of `path` meets no file above it and no refusal. -/
def Reachable (tree : Tree Data) (path : List Str) : Prop :=
  (∀ a, Above a path → tree.isFile a = false) ∧ tree.names.refuses path = none

theorem stat_of_reachable {path : List Str} (h : Reachable tree path) :
    tree.stat path = (tree.get path).elim (.error .notExist) .ok := by
  unfold FileTree.stat
  rw [if_neg (by simp [FileTree.blocked_eq_false.mpr h.1]), h.2]

theorem reachable_of_stat {path : List Str}
    (h : ∀ e, tree.stat path = .error e → e = .notExist) : Reachable tree path := by
  unfold FileTree.stat at h
  constructor
  · rw [← FileTree.blocked_eq_false]
    by_contra hb
    rw [if_pos (by simpa using hb)] at h
    cases h _ rfl
  · by_contra hname
    obtain ⟨e, he⟩ := Option.ne_none_iff_exists'.mp hname
    split at h
    · cases h _ rfl
    · rw [he] at h
      cases h _ rfl

theorem scanCandidate_ok_iff {relative : Str} :
    (∃ found, scanCandidate tree relative = .ok found) ↔
      Reachable tree (projectionPath relative) := by
  unfold scanCandidate
  constructor
  · rintro ⟨found, h⟩
    refine reachable_of_stat fun e he => ?_
    by_contra hne
    rw [he] at h
    cases e with
    | notExist => exact hne rfl
    | _ => cases h
  · intro h
    rw [stat_of_reachable h]
    cases tree.get (projectionPath relative) with
    | none => exact ⟨_, rfl⟩
    | some n => cases n <;> exact ⟨_, rfl⟩

variable {data : Data}

theorem mem_scanFile {files : List (List Str × Data)} :
    (key, data) ∈ files.filterMap scanFile ↔
      ∃ f, (f, data) ∈ files ∧ normalizeReplicatedPath (join f) = .ok key := by
  rw [List.mem_filterMap]
  constructor
  · rintro ⟨⟨f, d⟩, hmem, h⟩
    unfold scanFile at h
    cases hn : normalizeReplicatedPath (join f) with
    | error e => simp only [hn] at h; cases h
    | ok k =>
      simp only [hn, Option.some.injEq, Prod.mk.injEq] at h
      obtain ⟨rfl, rfl⟩ := h
      exact ⟨f, hmem, hn⟩
  · rintro ⟨f, hmem, hn⟩
    refine ⟨(f, data), hmem, ?_⟩
    unfold scanFile
    simp only [hn]

theorem mem_scanCandidate {relative : Str} {found : List (Str × Data)}
    (h : scanCandidate tree relative = .ok found) :
    (key, data) ∈ found ↔ ScannedAt tree relative key data := by
  have hreach := scanCandidate_ok_iff.mp ⟨found, h⟩
  unfold scanCandidate at h
  rw [stat_of_reachable hreach] at h
  unfold ScannedAt
  cases hget : tree.get (projectionPath relative) with
  | none =>
    rw [hget] at h
    cases h
    simp
  | some n =>
    rw [hget] at h
    cases n with
    | file d =>
      cases h
      simp only [List.mem_singleton, Prod.mk.injEq, Option.some.injEq, Node.file.injEq, false_and,
        or_false, reduceCtorEq]
      constructor
      · rintro ⟨rfl, rfl⟩
        exact ⟨rfl, rfl⟩
      · rintro ⟨rfl, rfl⟩
        exact ⟨rfl, rfl⟩
    | dir =>
      cases h
      simp only [mem_scanFile, List.mem_filter, FileTree.mem_files, List.isPrefixOf_iff_prefix,
        Option.some.injEq, false_and, false_or, true_and, reduceCtorEq, and_assoc]

theorem scanAll_cons_ok {c : Str} {rest : List Str} {pairs : List (Str × Data)} :
    scanAll tree (c :: rest) = .ok pairs ↔
      ∃ found more, scanCandidate tree c = .ok found ∧ scanAll tree rest = .ok more ∧
        pairs = found ++ more := by
  rw [scanAll]
  cases scanCandidate tree c with
  | error e => simp
  | ok found =>
    cases scanAll tree rest with
    | error e => simp
    | ok more => simp [eq_comm]

theorem scanAll_ok_iff (tree : Tree Data) : ∀ candidates : List Str,
    (∃ pairs, scanAll tree candidates = .ok pairs) ↔
      ∀ c ∈ candidates, Reachable tree (projectionPath c)
  | [] => by simp [scanAll]
  | c :: rest => by
    rw [List.forall_mem_cons, ← scanAll_ok_iff tree rest, ← scanCandidate_ok_iff]
    constructor
    · rintro ⟨pairs, h⟩
      obtain ⟨found, more, hc, hr, -⟩ := scanAll_cons_ok.mp h
      exact ⟨⟨found, hc⟩, ⟨more, hr⟩⟩
    · rintro ⟨⟨found, hc⟩, ⟨more, hr⟩⟩
      exact ⟨found ++ more, scanAll_cons_ok.mpr ⟨found, more, hc, hr, rfl⟩⟩

theorem mem_scanAll :
    ∀ {candidates : List Str} {pairs : List (Str × Data)}, scanAll tree candidates = .ok pairs →
      ((key, data) ∈ pairs ↔ ∃ c ∈ candidates, ScannedAt tree c key data)
  | [], pairs, h => by
    cases h
    simp
  | c :: rest, pairs, h => by
    obtain ⟨found, more, hc, hr, rfl⟩ := scanAll_cons_ok.mp h
    rw [List.mem_append, mem_scanCandidate hc, mem_scanAll hr]
    simp

variable {found : Bucket Data}

theorem scan_eq_ok :
    scanReplicatedProjection tree = .ok found ↔
      ∃ pairs, scanAll tree scanCandidates = .ok pairs ∧ found = SortedMap.insertPairs ∅ pairs := by
  unfold scanReplicatedProjection
  cases scanAll tree scanCandidates with
  | error e => simp
  | ok pairs => simp [eq_comm]

theorem scan_ok_iff :
    (∃ found, scanReplicatedProjection tree = .ok found) ↔
      ∀ c ∈ scanCandidates, Reachable tree (projectionPath c) := by
  rw [← scanAll_ok_iff]
  constructor
  · rintro ⟨found, h⟩
    obtain ⟨pairs, hs, -⟩ := scan_eq_ok.mp h
    exact ⟨pairs, hs⟩
  · rintro ⟨pairs, hs⟩
    exact ⟨_, scan_eq_ok.mpr ⟨pairs, hs, rfl⟩⟩

theorem scanned_of_get (h : scanReplicatedProjection tree = .ok found)
    (hk : found[key]? = some data) : ∃ c ∈ scanCandidates, ScannedAt tree c key data := by
  obtain ⟨pairs, hs, rfl⟩ := scan_eq_ok.mp h
  rcases SortedMap.mem_of_get_insertPairs hk with hmem | hempty
  · exact (mem_scanAll hs).mp hmem
  · rw [SortedMap.get_empty] at hempty
    cases hempty

theorem get_of_scanned (h : scanReplicatedProjection tree = .ok found)
    (hk : ∃ c ∈ scanCandidates, ScannedAt tree c key data) : found[key]? ≠ none := by
  obtain ⟨pairs, hs, rfl⟩ := scan_eq_ok.mp h
  exact SortedMap.get_insertPairs_ne_none (Or.inl ⟨data, (mem_scanAll hs).mpr hk⟩)

end Bpc.Controlplane
