/-
  FILE TREES — directories and regular files, addressed by lists of names.

  A tree carries its well-formedness (everything strictly above an entry is a directory) and the
  `Names` its file system takes; what was done before a refusal STAYS.  `writeFile` and `remove`
  behave as in POSIX, each with a look-up lemma and an exact success condition; `writeAll_ok_iff`
  lifts them to loops.
-/
import Bpc.Lib.SortedMap
import Bpc.Lib.Steps

namespace Bpc

/-- An entry of a tree. -/
inductive Node (D : Type) where
  | dir
  | file (data : D)
  deriving DecidableEq

/-- Why a name is refused: `EINVAL` and `ENAMETOOLONG`. -/
inductive NameError where
  | invalid
  | tooLong
  deriving DecidableEq

/-- Why an operation fails. -/
inductive FsError where
  | notExist
  | notDirectory
  | isDirectory
  | notEmpty
  | refused (error : NameError)
  deriving DecidableEq

/-- What a file system refuses for the name alone. -/
structure Names (N : Type) where
  /-- The error for a path that is looked up, made a directory or removed. -/
  refuses : List N → Option NameError
  /-- The error for a path that is written, its own or that of the temporary name. -/
  refusesWrite : List N → Option NameError
  above : ∀ {a p : List N}, a <+: p → refuses p = none → refuses a = none
  written : ∀ {p : List N}, refusesWrite p = none → refuses p = none

/-- Every name is taken. -/
def Names.all (N : Type) : Names N where
  refuses _ := none
  refusesWrite _ := none
  above _ _ := rfl
  written _ := rfl

/-- `a` is strictly above `p`. -/
def Above {N : Type} (a p : List N) : Prop := a <+: p ∧ a ≠ p

instance {N : Type} [DecidableEq N] (a p : List N) : Decidable (Above a p) :=
  inferInstanceAs (Decidable (_ ∧ _))

theorem Above.length_lt {N : Type} {a p : List N} (h : Above a p) : a.length < p.length := by
  have hle := h.1.length_le
  have hne : a.length ≠ p.length := fun heq => h.2 (h.1.eq_of_length heq)
  omega

theorem above_of_dropLast {N : Type} {a p : List N} (h : a <+: p.dropLast) (ha : a ≠ []) :
    Above a p := by
  refine ⟨h.trans (List.dropLast_prefix p), ?_⟩
  rintro rfl
  have hle := h.length_le
  have hpos := List.length_pos_iff.mpr ha
  rw [List.length_dropLast] at hle
  omega

theorem Above.extend {N : Type} {a p q : List N} (h : Above a p) (hpq : p <+: q) : Above a q := by
  refine ⟨h.1.trans hpq, ?_⟩
  rintro rfl
  have hlt := h.length_lt
  have hle := hpq.length_le
  omega

/-- A tree of files: a map from paths that is closed under going up. -/
structure FileTree (N D : Type) [Ord N] [Std.TransOrd N] [Std.LawfulEqOrd N] where
  names : Names N
  nodes : SortedMap (List N) (Node D)
  root : nodes[([] : List N)]? = some .dir
  closed : ∀ p a : List N, nodes[p]? ≠ none → Above a p → nodes[a]? = some .dir

namespace FileTree

variable {N D : Type} [Ord N] [Std.TransOrd N] [Std.LawfulEqOrd N]

/-- The entry at a path. -/
def get (t : FileTree N D) (p : List N) : Option (Node D) := t.nodes[p]?

/-- There is a file at the path. -/
def isFile (t : FileTree N D) (p : List N) : Bool :=
  match t.get p with
  | some (.file _) => true
  | _ => false

/-- There is a directory at the path. -/
def isDir (t : FileTree N D) (p : List N) : Bool :=
  match t.get p with
  | some .dir => true
  | _ => false

variable {t : FileTree N D} {p : List N} {d : D}

/-! ## Look-ups -/

theorem isFile_iff : t.isFile p = true ↔ ∃ d, t.get p = some (.file d) := by
  unfold isFile
  cases t.get p with
  | none => simp
  | some n => cases n <;> simp

theorem isFile_eq_false : t.isFile p = false ↔ ∀ d, t.get p ≠ some (.file d) := by
  rw [← Bool.not_eq_true, isFile_iff, not_exists]

theorem isDir_iff : t.isDir p = true ↔ t.get p = some .dir := by
  unfold isDir
  cases t.get p with
  | none => simp
  | some n => cases n <;> simp

theorem get_root (t : FileTree N D) : t.get [] = some .dir := t.root

theorem get_above {a : List N} (hp : t.get p ≠ none) (ha : Above a p) :
    t.get a = some .dir := t.closed p a hp ha

theorem get_below_file {a : List N} (ha : t.get a = some (.file d)) (h : Above a p) :
    t.get p = none := by
  by_contra hp
  rw [get_above hp h] at ha
  cases ha

/-! ## Enumeration -/

/-- The files of the tree with their paths, in the order of a walk. -/
def files (t : FileTree N D) : List (List N × D) :=
  t.nodes.toList.filterMap fun entry =>
    match entry.2 with
    | .dir => none
    | .file d => some (entry.1, d)

theorem mem_files : (p, d) ∈ t.files ↔ t.get p = some (.file d) := by
  unfold files
  rw [List.mem_filterMap]
  constructor
  · rintro ⟨⟨q, n⟩, hmem, h⟩
    cases n with
    | dir => cases h
    | file d' =>
      cases h
      exact SortedMap.mem_toList.mp hmem
  · intro h
    exact ⟨(p, .file d), SortedMap.mem_toList.mpr h, rfl⟩

/-! ## Obstacles -/

variable [DecidableEq N]

/-- The root alone. -/
def empty (names : Names N) : FileTree N D where
  names
  nodes := (∅ : SortedMap (List N) (Node D)).insert [] .dir
  root := SortedMap.get_insert_self ..
  closed := by
    intro p a hp ha
    rw [SortedMap.get_insert, SortedMap.get_empty] at hp
    by_cases h : ([] : List N) = p
    · subst h
      exact absurd (List.prefix_nil.mp ha.1) ha.2
    · rw [if_neg h] at hp
      exact absurd rfl hp

/-- Some strict ancestor of `p` is a file. -/
def blocked (t : FileTree N D) (p : List N) : Bool :=
  p.inits.any fun a => decide (a ≠ p) && t.isFile a

theorem blocked_eq_false : t.blocked p = false ↔ ∀ a, Above a p → t.isFile a = false := by
  unfold blocked
  rw [List.any_eq_false]
  constructor
  · intro h a ha
    have := h a ((List.mem_inits _ _).mpr ha.1)
    simpa [ha.2] using this
  · intro h a ha
    by_cases hap : a = p
    · simp [hap]
    · simp [h a ⟨(List.mem_inits _ _).mp ha, hap⟩]

theorem not_blocked_of_get (hp : t.get p ≠ none) : t.blocked p = false := by
  rw [blocked_eq_false]
  intro a ha
  rw [isFile_eq_false, get_above hp ha]
  intro d h
  cases h

/-- Look a path up; a refused name comes first. -/
def stat (t : FileTree N D) (p : List N) : Except FsError (Node D) :=
  if t.blocked p then .error .notDirectory
  else
    match t.names.refuses p with
    | some e => .error (.refused e)
    | none => (t.get p).elim (.error .notExist) .ok

/-! ## Writing -/

/-- Every entry of `paths` becomes a directory. -/
def insertDirs (nodes : SortedMap (List N) (Node D)) (paths : List (List N)) :
    SortedMap (List N) (Node D) :=
  paths.foldl (fun m q => m.insert q .dir) nodes

theorem get_insertDirs : ∀ (paths : List (List N)) (nodes : SortedMap (List N) (Node D))
    (r : List N), (insertDirs nodes paths)[r]? = if r ∈ paths then some .dir else nodes[r]?
  | [], _, _ => by simp [insertDirs]
  | q :: paths, nodes, r => by
    show (insertDirs (nodes.insert q .dir) paths)[r]? = _
    rw [get_insertDirs paths, SortedMap.get_insert]
    by_cases hr : r ∈ paths
    · rw [if_pos hr, if_pos (List.mem_cons_of_mem _ hr)]
    · by_cases hq : q = r
      · rw [if_neg hr, if_pos hq, if_pos (hq ▸ List.mem_cons_self ..)]
      · rw [if_neg hr, if_neg hq, if_neg]
        intro hmem
        rcases List.mem_cons.mp hmem with h | h
        · exact hq h.symm
        · exact hr h

/-- `os.MkdirAll` above `p`, down to the first refused name. -/
def makeDirs (t : FileTree N D) (p : List N) : FileTree N D where
  names := t.names
  nodes := insertDirs t.nodes (p.dropLast.inits.filter fun a => (t.names.refuses a).isNone)
  root := by
    rw [get_insertDirs, t.root]
    split <;> rfl
  closed := by
    intro q a hq ha
    rw [get_insertDirs] at hq ⊢
    split
    · rfl
    · next hnot =>
      -- what is above a directory made here is made here as well
      rw [if_neg fun hmem => hnot ?_] at hq
      · exact get_above hq ha
      · simp only [List.mem_filter, List.mem_inits, Option.isNone_iff_eq_none] at hmem ⊢
        exact ⟨ha.1.trans hmem.1, t.names.above ha.1 hmem.2⟩

/-- The nodes after writing: directories above, the file itself. -/
def writeNodes (t : FileTree N D) (p : List N) (d : D) : SortedMap (List N) (Node D) :=
  (insertDirs t.nodes p.inits).insert p (.file d)

theorem get_writeNodes (t : FileTree N D) (p : List N) (d : D) (r : List N) :
    (t.writeNodes p d)[r]? =
      if r = p then some (.file d) else if r <+: p then some .dir else t.get r := by
  rw [writeNodes, SortedMap.get_insert, get_insertDirs]
  simp only [List.mem_inits, eq_comm (a := p)]
  rfl

/-- The tree with a file written at a path that is no directory. -/
def withFile (t : FileTree N D) (p : List N) (d : D) (hd : t.get p ≠ some .dir) :
    FileTree N D where
  names := t.names
  nodes := t.writeNodes p d
  root := by
    rw [get_writeNodes]
    by_cases hp : [] = p
    · exact absurd (hp ▸ t.get_root) hd
    · rw [if_neg hp, if_pos List.nil_prefix]
  closed := by
    intro q a hq ha
    rw [get_writeNodes] at hq ⊢
    by_cases hap : a <+: p
    · by_cases hEq : a = p
      · -- nothing was below `p`, and writing `p` puts nothing there
        subst hEq
        have hqa : ¬ q <+: a := by
          intro hqa
          have hlt := ha.length_lt
          have hle := hqa.length_le
          omega
        have hne : q ≠ a := fun h => hqa (h ▸ List.prefix_refl _)
        rw [if_neg hne, if_neg hqa] at hq
        exact absurd (get_above hq ha) hd
      · rw [if_neg hEq, if_pos hap]
    · have hqp : ¬ q <+: p := fun h => hap (ha.1.trans h)
      have hne : q ≠ p := fun h => hqp (h ▸ List.prefix_refl _)
      have hap' : a ≠ p := fun h => hap (h ▸ List.prefix_refl _)
      rw [if_neg hne, if_neg hqp] at hq
      rw [if_neg hap', if_neg hap]
      exact get_above hq ha

/-- `os.MkdirAll` of the parent, then a rename onto `p`.  A refused name leaves the directories;
    every other error leaves the tree. -/
def writeFile (t : FileTree N D) (p : List N) (d : D) : FileTree N D × Option FsError :=
  if t.blocked p then (t, some .notDirectory)
  else
    match t.names.refusesWrite p with
    | some e => (t.makeDirs p, some (.refused e))
    | none =>
      if hd : t.isDir p then (t, some .isDirectory)
      else (t.withFile p d fun h => hd (isDir_iff.mpr h), none)

/-- No file above `p`, no directory at it, a name that is taken. -/
structure Writable (t : FileTree N D) (p : List N) : Prop where
  clear : ∀ a, Above a p → t.isFile a = false
  named : t.names.refusesWrite p = none
  free : t.get p ≠ some .dir

theorem writeFile_eq (h : t.Writable p) : t.writeFile p d = (t.withFile p d h.free, none) := by
  unfold writeFile
  have hd : ¬ t.isDir p = true := fun hd => h.free (isDir_iff.mp hd)
  rw [if_neg (by simp [blocked_eq_false.mpr h.clear]), h.named]
  exact dif_neg hd

theorem writeFile_ok_iff : (t.writeFile p d).2 = none ↔ t.Writable p := by
  refine ⟨fun h => ?_, fun h => by rw [writeFile_eq h]⟩
  unfold writeFile at h
  split at h
  · cases h
  · next hb =>
    split at h
    · cases h
    · next hname =>
      split at h
      · cases h
      · next hd =>
        exact ⟨blocked_eq_false.mp (Bool.eq_false_iff.mpr hb), hname, fun h => hd (isDir_iff.mpr h)⟩

theorem get_writeFile (h : (t.writeFile p d).2 = none) (r : List N) :
    (t.writeFile p d).1.get r =
      if r = p then some (.file d) else if r <+: p then some .dir else t.get r := by
  rw [writeFile_eq (writeFile_ok_iff.mp h)]
  exact get_writeNodes t p d r

@[simp]
theorem names_writeFile : (t.writeFile p d).1.names = t.names := by
  unfold writeFile
  split
  · rfl
  split
  · rfl
  split
  · rfl
  · rfl

/-- **What writing `p` can do to a path**, also when it fails: the file is put at `p`, or nothing
    happens, or a directory is made on the way. -/
theorem writeFile_cases (t : FileTree N D) (p : List N) (d : D) (r : List N) :
    (r = p ∧ (t.writeFile p d).1.get r = some (.file d)) ∨
    (t.writeFile p d).1.get r = t.get r ∨
    (Above r p ∧ (t.writeFile p d).1.get r = some .dir ∧ t.isFile r = false) := by
  by_cases hok : (t.writeFile p d).2 = none
  · have hclear := (writeFile_ok_iff.mp hok).clear
    rw [get_writeFile hok]
    split
    · next hr => exact Or.inl ⟨hr, rfl⟩
    · next hne =>
      split
      · next hpre => exact Or.inr (Or.inr ⟨⟨hpre, hne⟩, rfl, hclear r ⟨hpre, hne⟩⟩)
      · exact Or.inr (Or.inl rfl)
  · refine Or.inr ?_
    rw [writeFile_ok_iff] at hok
    unfold writeFile
    split
    · exact Or.inl rfl
    · next hb =>
      have hclear := blocked_eq_false.mp (Bool.eq_false_iff.mpr hb)
      split
      · show (insertDirs _ _)[r]? = _ ∨ _ ∧ (insertDirs _ _)[r]? = _ ∧ _
        rw [get_insertDirs]
        split
        · next hmem =>
          have hpre := (List.mem_inits _ _).mp (List.mem_of_mem_filter hmem)
          by_cases hr : r = []
          · exact Or.inl (hr ▸ t.get_root).symm
          · have habove : Above r p := above_of_dropLast hpre hr
            exact Or.inr ⟨habove, rfl, hclear r habove⟩
        · exact Or.inl rfl
      · next hname =>
        split
        · exact Or.inl rfl
        · next hd => exact absurd ⟨hclear, hname, fun h => hd (isDir_iff.mpr h)⟩ hok

/-! ## Removing -/

variable {t' : FileTree N D}

/-- No entry lies strictly below `p`. -/
def childless (t : FileTree N D) (p : List N) : Bool :=
  t.nodes.toList.all fun entry => !decide (Above p entry.1)

theorem childless_iff : t.childless p = true ↔ ∀ q, t.get q ≠ none → ¬ Above p q := by
  unfold childless
  rw [List.all_eq_true]
  constructor
  · intro h q hq hpq
    obtain ⟨n, hn⟩ := Option.ne_none_iff_exists'.mp hq
    have := h (q, n) (SortedMap.mem_toList.mpr hn)
    simp [hpq] at this
  · rintro h ⟨q, n⟩ hmem
    have hq : t.get q ≠ none := by
      rw [get, SortedMap.mem_toList.mp hmem]
      simp
    simp [h q hq]

/-- `os.Remove`. -/
def remove (t : FileTree N D) (p : List N) : Except FsError (FileTree N D) :=
  match t.get p with
  | none => if t.blocked p then .error .notDirectory else .error .notExist
  | some _ =>
    if h : p ≠ [] ∧ t.childless p = true then
      .ok
        { names := t.names
          nodes := t.nodes.erase p
          root := by rw [SortedMap.get_erase_of_ne _ h.1, t.root]
          closed := by
            intro q a hq ha
            rw [SortedMap.get_erase] at hq ⊢
            by_cases hpq : p = q
            · rw [if_pos hpq] at hq
              exact absurd rfl hq
            · rw [if_neg hpq] at hq
              have hpa : p ≠ a := by
                rintro rfl
                exact childless_iff.mp h.2 q hq ha
              rw [if_neg hpa]
              exact t.closed q a hq ha }
    else .error .notEmpty

theorem remove_ok_iff :
    (∃ t', t.remove p = .ok t') ↔ t.get p ≠ none ∧ p ≠ [] ∧ t.childless p = true := by
  unfold remove
  cases hget : t.get p with
  | none =>
    simp only [ne_eq, not_true_eq_false, false_and, iff_false]
    rintro ⟨t', h⟩
    split at h <;> cases h
  | some n =>
    constructor
    · rintro ⟨t', h⟩
      by_cases hp : p ≠ [] ∧ t.childless p = true
      · exact ⟨by simp, hp.1, hp.2⟩
      · simp only [dif_neg hp] at h
        cases h
    · rintro ⟨-, hp⟩
      simp only [dif_pos hp]
      exact ⟨_, rfl⟩

theorem get_remove (h : t.remove p = .ok t') (r : List N) :
    t'.get r = if r = p then none else t.get r := by
  unfold remove at h
  split at h
  · split at h <;> cases h
  · split at h
    · cases h
      show (t.nodes.erase p)[r]? = _
      rw [SortedMap.get_erase]
      simp only [eq_comm (a := p)]
      rfl
    · cases h

theorem names_remove (h : t.remove p = .ok t') : t'.names = t.names := by
  unfold remove at h
  split at h
  · split at h <;> cases h
  · split at h
    · cases h
      rfl
    · cases h

/-! ## Many files -/

theorem isFile_writeFile (h : (t.writeFile p d).2 = none) {r : List N} (hr : ¬ r <+: p) :
    (t.writeFile p d).1.isFile r = t.isFile r := by
  have hne : r ≠ p := fun h => hr (h ▸ List.prefix_refl _)
  unfold isFile
  rw [get_writeFile h, if_neg hne, if_neg hr]

/-- Writing `p` spoils exactly the paths above and below it. -/
theorem writable_writeFile {q : List N} (h : (t.writeFile p d).2 = none) (hne : q ≠ p) :
    (t.writeFile p d).1.Writable q ↔ t.Writable q ∧ ¬ Above q p ∧ ¬ Above p q := by
  have hp : t.Writable p := writeFile_ok_iff.mp h
  have hfile : (t.writeFile p d).1.isFile p = true :=
    isFile_iff.mpr ⟨d, by rw [get_writeFile h, if_pos rfl]⟩
  constructor
  · rintro ⟨hfiles, hname, hdir⟩
    have hqp : ¬ Above q p := by
      intro hab
      apply hdir
      rw [get_writeFile h, if_neg hab.2, if_pos hab.1]
    have hpq : ¬ Above p q := by
      intro hab
      rw [hfiles p hab] at hfile
      cases hfile
    have hpre : ¬ q <+: p := fun hpre => hqp ⟨hpre, hne⟩
    refine ⟨⟨fun a ha => ?_, by rwa [names_writeFile] at hname, ?_⟩, hqp, hpq⟩
    · by_cases hap : a <+: p
      · have hap' : a ≠ p := fun h => hpq (h ▸ ha)
        exact hp.clear a ⟨hap, hap'⟩
      · rw [← isFile_writeFile h hap]
        exact hfiles a ha
    · rwa [get_writeFile h, if_neg hne, if_neg hpre] at hdir
  · rintro ⟨⟨hfiles, hname, hdir⟩, hqp, hpq⟩
    have hpre : ¬ q <+: p := fun hpre => hqp ⟨hpre, hne⟩
    refine ⟨fun a ha => ?_, by rwa [names_writeFile], ?_⟩
    · by_cases hap : a <+: p
      · have hap' : a ≠ p := fun h => hpq (h ▸ ha)
        rw [isFile_eq_false, get_writeFile h, if_neg hap', if_pos hap]
        intro d h
        cases h
      · rw [isFile_writeFile h hap]
        exact hfiles a ha
    · rwa [get_writeFile h, if_neg hne, if_neg hpre]

/-- Write the files in order, to the first error. -/
def writeAll (t : FileTree N D) (es : List (List N × D)) : FileTree N D × Option FsError :=
  runSteps (fun t e => t.writeFile e.1 e.2) t es

/-- **The loop succeeds iff every path is writable at the start and none is above another.** -/
theorem writeAll_ok_iff : ∀ {es : List (List N × D)} {t : FileTree N D},
    (es.map Prod.fst).Nodup →
      ((t.writeAll es).2 = none ↔
        ∀ e ∈ es, t.Writable e.1 ∧ ∀ e' ∈ es, ¬ Above e'.1 e.1)
  | [], t, _ => by simp [writeAll, runSteps]
  | e :: es, t, hnd => by
    obtain ⟨hnotin, hnd'⟩ := List.nodup_cons.mp hnd
    have hne : ∀ e' ∈ es, e'.1 ≠ e.1 := fun e' he' h =>
      hnotin (h ▸ List.mem_map_of_mem he')
    constructor
    · intro hrun
      obtain ⟨hw, heq⟩ := runSteps_head hrun
      have hrest : ((t.writeFile e.1 e.2).1.writeAll es).2 = none := by
        rw [writeAll, ← heq]
        exact hrun
      have ih := (writeAll_ok_iff hnd').mp hrest
      have htail : ∀ e' ∈ es, t.Writable e'.1 ∧ ¬ Above e'.1 e.1 ∧ ¬ Above e.1 e'.1 :=
        fun e' he' => (writable_writeFile hw (hne e' he')).mp (ih e' he').1
      intro x hx
      rcases List.mem_cons.mp hx with rfl | hxes
      · refine ⟨writeFile_ok_iff.mp hw, fun y hy => ?_⟩
        rcases List.mem_cons.mp hy with rfl | hyes
        · exact fun h => h.2 rfl
        · exact (htail y hyes).2.1
      · refine ⟨(htail x hxes).1, fun y hy => ?_⟩
        rcases List.mem_cons.mp hy with rfl | hyes
        · exact (htail x hxes).2.2
        · exact (ih x hxes).2 y hyes
    · intro hall
      have hw : (t.writeFile e.1 e.2).2 = none :=
        writeFile_ok_iff.mpr (hall e (List.mem_cons_self ..)).1
      show (runSteps _ t (e :: es)).2 = none
      rw [runSteps_cons_ok hw]
      apply (writeAll_ok_iff hnd').mpr
      intro x hx
      have hx' := List.mem_cons_of_mem e hx
      refine ⟨(writable_writeFile hw (hne x hx)).mpr ⟨(hall x hx').1, ?_, ?_⟩, fun y hy => ?_⟩
      · exact (hall e (List.mem_cons_self ..)).2 x hx'
      · exact (hall x hx').2 e (List.mem_cons_self ..)
      · exact (hall x hx').2 y (List.mem_cons_of_mem _ hy)

/-- The loop over `e :: es` writes `e`, then loops over `es`. -/
theorem writeAll_cons {e : List N × D} {es : List (List N × D)}
    (hrun : (t.writeAll (e :: es)).2 = none) :
    (t.writeFile e.1 e.2).2 = none ∧
      t.writeAll (e :: es) = (t.writeFile e.1 e.2).1.writeAll es ∧
      ((t.writeFile e.1 e.2).1.writeAll es).2 = none := by
  obtain ⟨hw, heq⟩ := runSteps_head hrun
  have heq' : t.writeAll (e :: es) = (t.writeFile e.1 e.2).1.writeAll es := heq
  exact ⟨hw, heq', heq' ▸ hrun⟩

@[simp]
theorem names_writeAll (es : List (List N × D)) : (t.writeAll es).1.names = t.names :=
  runSteps_keeps (P := fun s : FileTree N D => s.names = t.names)
    (fun _ _ _ hs => by rwa [names_writeFile]) rfl

theorem get_writeAll_outside : ∀ {es : List (List N × D)} {t : FileTree N D} {r : List N},
    (t.writeAll es).2 = none → (∀ e ∈ es, ¬ r <+: e.1) → (t.writeAll es).1.get r = t.get r
  | [], _, _, _, _ => rfl
  | e :: es, t, r, hrun, hr => by
    obtain ⟨hw, heq, hrest⟩ := writeAll_cons hrun
    have hr' := hr e (List.mem_cons_self ..)
    have hne : r ≠ e.1 := fun h => hr' (h ▸ List.prefix_refl _)
    have hstep : (t.writeFile e.1 e.2).1.get r = t.get r := by
      rw [get_writeFile hw, if_neg hne, if_neg hr']
    rw [heq, ← hstep]
    exact get_writeAll_outside hrest fun e' he' => hr e' (List.mem_cons_of_mem _ he')

theorem get_writeAll_of_mem : ∀ {es : List (List N × D)} {t : FileTree N D} {p : List N} {d : D},
    (es.map Prod.fst).Nodup → (t.writeAll es).2 = none → (p, d) ∈ es →
      (t.writeAll es).1.get p = some (.file d)
  | e :: es, t, p, d, hnd, hrun, hmem => by
    obtain ⟨hw, heq, hrest⟩ := writeAll_cons hrun
    obtain ⟨hnotin, hnd'⟩ := List.nodup_cons.mp hnd
    rw [heq]
    rcases List.mem_cons.mp hmem with rfl | hmem'
    · have habove := ((writeAll_ok_iff hnd).mp hrun)
      have hkeep : ∀ e' ∈ es, ¬ p <+: e'.1 := by
        intro e' he' hpre
        have hne : p ≠ e'.1 := fun h => hnotin (List.mem_map.mpr ⟨e', he', h.symm⟩)
        exact (habove e' (List.mem_cons_of_mem _ he')).2 _ (List.mem_cons_self ..) ⟨hpre, hne⟩
      rw [get_writeAll_outside hrest hkeep, get_writeFile hw, if_pos rfl]
    · exact get_writeAll_of_mem hnd' hrest hmem'

/-- Everything above a file of the list is a directory after the loop. -/
theorem get_writeAll_of_above {es : List (List N × D)} {e : List N × D} {r : List N}
    (hnd : (es.map Prod.fst).Nodup) (hrun : (t.writeAll es).2 = none) (he : e ∈ es)
    (hr : Above r e.1) : (t.writeAll es).1.get r = some .dir := by
  have hget := get_writeAll_of_mem hnd hrun (show (e.1, e.2) ∈ es from he)
  exact get_above (by rw [hget]; simp) hr

/-! ## Removing many -/

/-- Not the root, no file above it, nothing below it, a name that is taken. -/
structure Removable (t : FileTree N D) (p : List N) : Prop where
  below_root : p ≠ []
  clear : ∀ a, Above a p → t.isFile a = false
  childless : ∀ q, t.get q ≠ none → ¬ Above p q
  named : t.names.refuses p = none

/-- Remove a path, or find it absent. -/
def discard (t : FileTree N D) (p : List N) : FileTree N D × Option FsError :=
  if t.blocked p then (t, some .notDirectory)
  else
    match t.names.refuses p with
    | some e => (t, some (.refused e))
    | none =>
      match t.remove p with
      | .ok t' => (t', none)
      | .error .notExist => (t, none)
      | .error e => (t, some e)

theorem removable_of_file (h : t.get p = some (.file d)) (hname : t.names.refuses p = none) :
    t.Removable p where
  below_root := by
    rintro rfl
    rw [get_root] at h
    cases h
  clear := blocked_eq_false.mp (not_blocked_of_get (by rw [h]; simp))
  childless q hq hpq := hq (get_below_file h hpq)
  named := hname

theorem discard_ok_iff : (t.discard p).2 = none ↔ t.Removable p := by
  unfold discard
  constructor
  · intro h
    split at h
    · cases h
    next hb =>
    have hclear := blocked_eq_false.mp (Bool.eq_false_iff.mpr hb)
    split at h
    · cases h
    next hname =>
    unfold remove at h
    cases hget : t.get p with
    | none =>
      refine ⟨?_, hclear, fun q hq hpq => ?_, hname⟩
      · rintro rfl
        rw [get_root] at hget
        cases hget
      · rw [get_above hq hpq] at hget
        cases hget
    | some n =>
      by_cases hp : p ≠ [] ∧ t.childless p = true
      · exact ⟨hp.1, hclear, childless_iff.mp hp.2, hname⟩
      · simp only [hget, dif_neg hp] at h
        cases h
  · intro h
    have hb := blocked_eq_false.mpr h.clear
    rw [if_neg (by simp [hb]), h.named]
    by_cases hget : t.get p = none
    · have hremove : t.remove p = .error .notExist := by
        unfold remove
        simp [hget, hb]
      rw [hremove]
    · obtain ⟨t', ht'⟩ := remove_ok_iff.mpr ⟨hget, h.below_root, childless_iff.mpr h.childless⟩
      rw [ht']

/-- What discarding `p` can do to a path: a failed one changes nothing. -/
theorem discard_cases (t : FileTree N D) (p r : List N) :
    (r = p ∧ (t.discard p).1.get r = none) ∨ (t.discard p).1.get r = t.get r := by
  unfold discard
  split
  · exact Or.inr rfl
  split
  · exact Or.inr rfl
  split
  · next t' ht' =>
    rw [get_remove ht']
    split
    · next hr => exact Or.inl ⟨hr, rfl⟩
    · exact Or.inr rfl
  · exact Or.inr rfl
  · exact Or.inr rfl

theorem get_discard (h : (t.discard p).2 = none) (r : List N) :
    (t.discard p).1.get r = if r = p then none else t.get r := by
  have hp := discard_ok_iff.mp h
  unfold discard
  rw [if_neg (by simp [blocked_eq_false.mpr hp.clear]), hp.named]
  by_cases hget : t.get p = none
  · have hremove : t.remove p = .error .notExist := by
      unfold remove
      simp [hget, blocked_eq_false.mpr hp.clear]
    rw [hremove]
    show t.get r = _
    split
    · next hr => rw [hr, hget]
    · rfl
  · obtain ⟨t', ht'⟩ := remove_ok_iff.mpr ⟨hget, hp.below_root, childless_iff.mpr hp.childless⟩
    rw [ht']
    exact get_remove ht' r

@[simp]
theorem names_discard : (t.discard p).1.names = t.names := by
  unfold discard
  split
  · rfl
  split
  · rfl
  split
  · next t' ht' => exact names_remove ht'
  · rfl
  · rfl

theorem removable_discard {q : List N} (h : (t.discard p).2 = none) (hq : t.Removable q) :
    (t.discard p).1.Removable q where
  below_root := hq.below_root
  clear a ha := by
    rw [isFile_eq_false, get_discard h]
    split
    · intro d h
      cases h
    · exact isFile_eq_false.mp (hq.clear a ha)
  childless r hr := by
    rw [get_discard h] at hr
    split at hr
    · exact absurd rfl hr
    · exact hq.childless r hr
  named := by rw [names_discard, hq.named]

/-- Discard the paths in order, to the first error. -/
def discardAll (t : FileTree N D) (ps : List (List N)) : FileTree N D × Option FsError :=
  runSteps discard t ps

theorem discardAll_ok {ps : List (List N)} (h : ∀ p ∈ ps, t.Removable p) :
    (t.discardAll ps).2 = none := by
  refine runSteps_ok (P := fun s : FileTree N D => ∀ p ∈ ps, s.Removable p) ?_ h
  intro a ha s hs
  have hok := discard_ok_iff.mpr (hs a ha)
  exact ⟨hok, fun p hp => removable_discard hok (hs p hp)⟩

theorem get_discardAll : ∀ {ps : List (List N)} {t : FileTree N D} (r : List N),
    (t.discardAll ps).2 = none →
      (t.discardAll ps).1.get r = if r ∈ ps then none else t.get r
  | [], _, _, _ => by simp [discardAll, runSteps]
  | p :: ps, t, r, hrun => by
    obtain ⟨hd, heq⟩ := runSteps_head hrun
    have heq' : t.discardAll (p :: ps) = (t.discard p).1.discardAll ps := heq
    rw [heq', get_discardAll r (heq' ▸ hrun), get_discard hd]
    by_cases hr : r ∈ ps
    · rw [if_pos hr, if_pos (List.mem_cons_of_mem _ hr)]
    · by_cases hrp : r = p
      · rw [if_neg hr, if_pos hrp, if_pos (hrp ▸ List.mem_cons_self ..)]
      · rw [if_neg hr, if_neg hrp, if_neg (by simp [hrp, hr])]

end FileTree

end Bpc
