/-
  RESUMING AND LOSING NOTHING — migrations that stop anywhere.

  Each stage ends where the next one starts, and every state on the way is resumable or not clean.
  The crux is that a copy becomes visible by ONE rename (`placed_of_move`).  Results:
  `migration_resumes`, and a crash after which it does not (`crash_with_temporary_marker`).
-/
import Bpc.Migration.Phases

namespace Bpc.Migration

open Interaction

variable {leadsToFile : String → Bool} {t₀ : Tree} {used : List Nat} {t t' : Tree}

/-! ## Directories and the inventory -/

section Stages

variable {sha256 : Content → Nat} {env : Env}

variable {I : Tree → Prop} {Q : Unit → Tree → Prop} {p : Path}

theorem safe_ensureDir_there (hdir : t.get p = some .dir) (hI : I t) (hQ : Q () t) :
    Safe (perform sha256 leadsToFile) I Q (ensureDir p) t := by
  refine safe_question rfl hI ?_
  show Safe _ I Q (if t.isDir p then .ret () else doChange (.mkdir p)) t
  rw [if_pos (FileTree.isDir_iff.mpr hdir)]
  exact hQ

theorem safe_makeRoot (hI : I t) :
    Safe (perform sha256 leadsToFile) I (fun _ w => w = t) (makeDirs []) t := by
  show Safe _ I _ ((ensureDir []).bind fun _ => .ret ()) t
  exact (safe_ensureDir_there (Q := fun _ w => w = t) t.get_root hI rfl).bind fun _ _ h => h

variable {n : Name}

theorem safe_makeDirs_there (hdir : t.get [n] = some .dir) (hI : I t) :
    Safe (perform sha256 leadsToFile) I (fun _ w => w = t) (makeDirs [n]) t := by
  show Safe _ I _ ((ensureDir []).bind fun _ => (ensureDir [n]).bind fun _ => .ret ()) t
  refine (safe_ensureDir_there (Q := fun _ w => w = t) t.get_root hI rfl).bind ?_
  rintro _ t' rfl
  exact (safe_ensureDir_there (Q := fun _ w => w = t') hdir hI rfl).bind fun _ _ h => h

theorem safe_makeDirs (hp : t.get [n] = none ∨ t.get [n] = some .dir) (hI : I t)
    (hafter : ∀ t' : Tree, (∀ r, t'.get r = if r = [n] then some .dir else t.get r) →
      I t' ∧ Q () t') : Safe (perform sha256 leadsToFile) I Q (makeDirs [n]) t := by
  show Safe _ I Q ((ensureDir []).bind fun _ => (ensureDir [n]).bind fun _ => .ret ()) t
  refine (safe_ensureDir_there (Q := fun _ w => w = t) t.get_root hI rfl).bind ?_
  rintro _ t' rfl
  refine (safe_ensureDir (Q := Q) hp (fun _ => t'.get_root) hI hafter).bind ?_
  exact fun _ _ h => h

/-- **A suffix for the backup is found**: there are enough candidates. -/
theorem freeSuffix_free (t : Tree) (timestamp : Nat) :
    t.get (backupDir timestamp (freeSuffix t timestamp)) = none := by
  unfold freeSuffix
  cases hfind : (List.range (t.nodes.toList.length + 1)).find? fun k =>
      (t.get (backupDir timestamp k)).isNone with
  | some k =>
    have hnone := List.find?_some hfind
    exact Option.isNone_iff_eq_none.mp hnone
  | none =>
    exfalso
    have hall : ∀ k ∈ List.range (t.nodes.toList.length + 1),
        t.get (backupDir timestamp k) ≠ none := by
      intro k hk hnone
      have := List.find?_eq_none.mp hfind k hk
      rw [hnone] at this
      exact this rfl
    have hnodup : ((List.range (t.nodes.toList.length + 1)).map (backupDir timestamp)).Nodup := by
      refine List.Nodup.map (fun a b hab => ?_) List.nodup_range
      cases hab
      rfl
    have hsubset : (List.range (t.nodes.toList.length + 1)).map (backupDir timestamp) ⊆
        t.nodes.toList.map Prod.fst := by
      intro p hp
      obtain ⟨k, hk, rfl⟩ := List.mem_map.mp hp
      obtain ⟨n, hn⟩ := Option.ne_none_iff_exists'.mp (hall k hk)
      exact List.mem_map.mpr ⟨_, SortedMap.mem_toList.mpr hn, rfl⟩
    have hle := (hnodup.subperm hsubset).length_le
    rw [List.length_map, List.length_map, List.length_range] at hle
    omega

theorem safe_mkdir (hne : p ≠ []) (hfree : t.get p = none) (hparent : t.get p.dropLast = some .dir)
    (hafter : ∀ t' : Tree, (∀ r, t'.get r = if r = p then some .dir else t.get r) →
      I t' ∧ Q () t') :
    Safe (perform sha256 leadsToFile) I Q (doChange (.mkdir p)) t := by
  obtain ⟨t', ht'⟩ := FileTree.place_dir_ok hne hfree hparent
  obtain ⟨hI, hQ⟩ := hafter t' (FileTree.get_place ht')
  exact safe_doChange ht' hI hQ

/-- Before the inventory is taken. -/
structure BackupReady (t₀ : Tree) (used : List Nat) (backup : Path) (t : Tree) : Prop where
  waiting : Waiting t₀ used t
  compat : t.get compatDir = some .dir
  top : t.get backup = some .dir
  free : t.get (backup ++ [.text "legacy-control"]) = none

theorem Like.compat (h : Like used t t') (hcompat : t.get compatDir = some .dir) :
    t'.get compatDir = some .dir := by
  rcases h.dirs compatDir (by decide) with heq | hdir
  · rw [heq]
    exact hcompat
  · exact hdir

/-- After the inventory. -/
structure Inventory (used : List Nat) (t : Tree) (backup : Path) (t' : Tree) : Prop where
  like : Like used t t'
  top : t'.get backup = some .dir
  dir : t'.get (backup ++ [.text "inventory"]) = some .dir
  files : ∀ s, t'.get (backup ++ [.text "inventory", .text s]) = none ∨
    ∃ c, t'.get (backup ++ [.text "inventory", .text s]) = some (.file (.file c))
  free : t'.get (backup ++ [.text "legacy-control"]) = none

variable {suffix : Nat}

theorem safe_takeInventory (h : Waiting t₀ used t) (hcompat : t.get compatDir = some .dir)
    (hfree : t.get (backupDir env.now suffix) = none) :
    Safe (perform sha256 leadsToFile) (Inv leadsToFile t₀ (env.pid :: used) env.pid)
      (fun backup t' => backup = backupDir env.now suffix ∧ BackupReady t₀ used backup t')
      (takeInventory env (backupDir env.now suffix)) t := by
  have hinv : ∀ t', Like used t t' → Inv leadsToFile t₀ (env.pid :: used) env.pid t' :=
    fun t' hlike => (h.like hlike).inv env.pid
  -- the directories of the backup, from the outside in
  have hdirs : Safe (perform sha256 leadsToFile) (Inv leadsToFile t₀ (env.pid :: used) env.pid)
      (fun _ t' => Like used t t' ∧ t'.get (backupDir env.now suffix) = some .dir ∧
        ∀ rel, rel ≠ [] → t'.get (backupDir env.now suffix ++ rel) = none)
      (makeDirs (backupDir env.now suffix)) t := by
    show Safe _ _ _ ((ensureDir []).bind fun _ => (ensureDir backupsDir).bind fun _ =>
      (ensureDir (backupDir env.now suffix)).bind fun _ => .ret ()) t
    refine (safe_ensureDir_there (Q := fun _ w => w = t) t.get_root (hinv t (.refl used t))
      rfl).bind ?_
    rintro _ t rfl
    have hbackups : t.get backupsDir = none ∨ t.get backupsDir = some .dir :=
      h.base.dirs backupsDir (by decide)
    refine (safe_ensureDir (Q := fun _ t' => Like used t t' ∧ t'.get backupsDir = some .dir ∧
      ∀ rel, t'.get (backupDir env.now suffix ++ rel) = none) hbackups (fun _ => t.get_root)
        (hinv t (.refl used t)) fun t' hget => ?_).bind ?_
    · have hlike : Like used t t' := .ownDir (by decide) hget
      refine ⟨hinv t' hlike, hlike, by rw [hget, if_pos rfl], fun rel => ?_⟩
      rw [hget, if_neg (by simp [backupDir, backupsDir])]
      by_cases hrel : rel = []
      · rw [hrel, List.append_nil]
        exact hfree
      · by_contra hsome
        have habove : Above (backupDir env.now suffix) (backupDir env.now suffix ++ rel) :=
          ⟨List.prefix_append _ _, fun heq => hrel (List.self_eq_append_right.mp heq)⟩
        rw [FileTree.get_above hsome habove] at hfree
        cases hfree
    · rintro _ t₁ ⟨hlike₁, hbackups₁, hfree₁⟩
      have hnone : t₁.get (backupDir env.now suffix) = none := by
        have := hfree₁ []
        rwa [List.append_nil] at this
      refine (safe_ensureDir (Q := fun _ t' => Like used t t' ∧
        t'.get (backupDir env.now suffix) = some .dir ∧
        ∀ rel, rel ≠ [] → t'.get (backupDir env.now suffix ++ rel) = none) (Or.inl hnone)
          (fun _ => hbackups₁) (hinv t₁ hlike₁) fun t' hget => ?_).bind fun _ _ h => h
      have hscratch := scratch_backup used env.now suffix []
      rw [List.append_nil] at hscratch
      have hlike : Like used t t' := hlike₁.trans (.place hscratch hget)
      refine ⟨hinv t' hlike, hlike, by rw [hget, if_pos rfl], fun rel hrel => ?_⟩
      rw [hget, if_neg fun heq => hrel (List.append_right_eq_self.mp heq)]
      exact hfree₁ rel
  refine hdirs.bind ?_
  rintro _ t₁ ⟨hlike₁, htop₁, hempty₁⟩
  -- the inventory directory, then the snapshots in it
  have hnew : t₁.get (backupDir env.now suffix ++ [.text "inventory"]) = none :=
    hempty₁ _ (by simp)
  refine (safe_mkdir (Q := fun _ t' => Inventory used t (backupDir env.now suffix) t')
    (by simp [backupDir]) hnew htop₁ fun t' hget => ?_).bind ?_
  · have hlike : Like used t t' := hlike₁.trans (.place (scratch_backup used _ _ _) hget)
    refine ⟨hinv t' hlike, hlike, ?_, by rw [hget, if_pos rfl], fun s => Or.inl ?_, ?_⟩
    · rw [hget, if_neg (by simp [backupDir, backupsDir])]
      exact htop₁
    · rw [hget, if_neg (by simp [backupDir, backupsDir])]
      exact hempty₁ _ (by simp)
    · rw [hget, if_neg (by simp [backupDir, backupsDir])]
      exact hempty₁ _ (by simp)
  · rintro _ t₂ h₂
    refine (Safe.forEach (fun _ t' => Inventory used t (backupDir env.now suffix) t') ?_
      env.snapshots h₂).bind ?_
    · rintro snapshot rest t₃ ⟨hlike₃, htop₃, hinv₃, hfiles₃, hfree₃⟩
      have hscratch : ∀ s, Scratch used (backupDir env.now suffix ++
        [.text "inventory", .text s]) :=
        fun s => scratch_backup used _ _ _
      refine safe_writeText (by simp [backupDir]) (hfiles₃ snapshot.1) hinv₃
        (by rintro t' ⟨c, hget⟩; exact hinv t' (hlike₃.trans (.place (hscratch _) hget)))
        fun t' hget => ?_
      refine ⟨hlike₃.trans (.place (hscratch _) hget), ?_, ?_, fun s => ?_, ?_⟩
      · rw [hget, if_neg (by simp [backupDir, backupsDir])]
        exact htop₃
      · rw [hget, if_neg (by simp [backupDir, backupsDir])]
        exact hinv₃
      · rw [hget]
        split
        · exact Or.inr ⟨_, rfl⟩
        · exact hfiles₃ s
      · rw [hget, if_neg (by simp [backupDir, backupsDir])]
        exact hfree₃
    · rintro _ t₄ ⟨hlike₄, htop₄, -, -, hfree₄⟩
      exact ⟨rfl, h.like hlike₄, hlike₄.compat hcompat, htop₄, hfree₄⟩

theorem safe_captureInventory (h : Waiting t₀ used t) (hcompat : t.get compatDir = some .dir) :
    Safe (perform sha256 leadsToFile) (Inv leadsToFile t₀ (env.pid :: used) env.pid)
      (fun backup t' => (∃ suffix, backup = backupDir env.now suffix) ∧
        BackupReady t₀ used backup t') (captureInventory env) t :=
  safe_question rfl (h.inv env.pid)
    ((safe_takeInventory h hcompat (freeSuffix_free t env.now)).mono fun _ _ ⟨heq, hready⟩ =>
      ⟨⟨_, heq⟩, hready⟩)

/-! ## The copy -/

theorem differ_self (a : Manifest) : differ a a = false := by simp [differ]

theorem payload_congr {t t' : Tree} {root root' : Path}
    (h : ∀ rel, rel ≠ [] → rel ≠ [.text ownershipName] →
      t'.get (root' ++ rel) = t.get (root ++ rel)) :
    controlPayloadManifest sha256 t' root' = controlPayloadManifest sha256 t root := by
  refine SortedMap.ext_get fun rel => ?_
  unfold controlPayloadManifest treeManifest
  rw [SortedMap.get_erase, SortedMap.get_erase]
  split
  · rfl
  next hrel =>
  rw [Std.ExtTreeMap.getElem?_map, Std.ExtTreeMap.getElem?_map, FileTree.get_below,
    FileTree.get_below]
  split
  · rfl
  next hne => rw [h rel hne fun heq => hrel heq.symm]

theorem payload_empty {root : Path} (h : (controlPayloadManifest sha256 t root).toList = []) :
    ∀ rel, rel ≠ [] → rel ≠ [.text ownershipName] → t.get (root ++ rel) = none := by
  intro rel hne hrel
  by_contra hsome
  obtain ⟨n, hn⟩ := Option.ne_none_iff_exists'.mp hsome
  have hget : (controlPayloadManifest sha256 t root)[rel]? = some (kindOf sha256 n) := by
    unfold controlPayloadManifest treeManifest
    rw [SortedMap.get_erase_of_ne _ fun heq => hrel heq.symm, Std.ExtTreeMap.getElem?_map,
      FileTree.get_below, if_neg hne, hn]
    rfl
  have hmem := SortedMap.mem_toList.mpr hget
  rw [h] at hmem
  cases hmem

/-- The temporary names of a process are not in the legacy tree. -/
def PidFree (t₀ : Tree) (pid : Nat) : Prop :=
  t₀.get (legacyControl ++ [.temp ownershipName pid]) = none

variable {pid : Nat}

theorem payloadAt_temp (h : PidFree t₀ pid) : payloadAt t₀ [.temp ownershipName pid] = none := by
  unfold payloadAt
  split
  · exact h
  · rfl

theorem Copied.placed (h : Copied t₀ t) (hbase : Base t₀ used t)
    (hmigration : t.get migrationMarker = none) (hpid : PidFree t₀ pid) : Placed t₀ used pid t where
  base := hbase
  copied := h
  migration := hmigration
  temp := by
    rw [h.payload _ (by simp) (by simp)]
    exact payloadAt_temp hpid

/-- **The rename**: the whole copy is in its place at once. -/
theorem placed_of_move (h : Waiting t₀ used t) (hlegacy : t.get legacyControl = some .dir)
    (hfree : PidFree t₀ pid) {t₁ t₂ : Tree} (hout : Outside [.stage pid] t t₁)
    (hstage : t₁.get [.stage pid] = some .dir)
    (hcopy : ∀ rel, rel ≠ [] → t₁.get ([.stage pid] ++ rel) = t.get (legacyControl ++ rel))
    (hmove : t₁.moveDir [.stage pid] controlDir = .ok t₂) : Placed t₀ used pid t₂ := by
  have hget := FileTree.get_moveDir hmove
  have hin : ∀ rel, t₂.get (controlDir ++ rel) = t₁.get ([.stage pid] ++ rel) := by
    intro rel
    rw [hget, FileTree.relative_eq_some.mpr rfl]
  have hkeep : ∀ p, ¬controlDir <+: p → ¬[Name.stage pid] <+: p → t₂.get p = t.get p := by
    intro p hcontrol hstage
    have hrel : FileTree.relative controlDir p = none := by
      unfold FileTree.relative
      rw [if_neg hcontrol]
    rw [hget, hrel]
    dsimp only
    rw [if_neg hstage]
    exact hout p hstage
  have hlegacy₀ : t₀.isDir legacyControl = true := by
    rw [FileTree.isDir_iff, ← h.base.legacy _ (List.prefix_refl _)]
    exact hlegacy
  have hpayload : ∀ rel, rel ≠ [] → t₂.get (controlDir ++ rel) = payloadAt t₀ rel := by
    intro rel hrel
    rw [hin, hcopy rel hrel, h.base.legacy _ (List.prefix_append _ _)]
    unfold payloadAt
    rw [if_pos hlegacy₀]
  have hcopied : Copied t₀ t₂ := by
    refine ⟨?_, fun rel hrel _ => hpayload rel hrel, Or.inl (hpayload _ (by simp))⟩
    have htop := hin []
    rw [List.append_nil, List.append_nil] at htop
    exact htop.trans hstage
  refine hcopied.placed ⟨fun p hp => ?_, fun p hp => ?_, fun p hp => ?_⟩ ?_ hfree
  · obtain ⟨rest, rfl⟩ := hp
    refine (hkeep _ ?_ ?_).trans (h.base.legacy _ (List.prefix_append _ _))
    · exact not_prefix_of_head (by decide)
    · exact not_prefix_of_head (by simp)
  · have hnot : ¬controlDir <+: p ∧ ¬[Name.stage pid] <+: p := by
      refine ⟨fun hpre => ownDirs_not_kept p hp (Or.inr (Or.inl hpre)), fun hpre => ?_⟩
      obtain ⟨s, rfl⟩ := ownDirs_text p hp
      obtain ⟨_, heq⟩ := hpre
      cases heq
    rw [hkeep p hnot.1 hnot.2]
    exact h.base.dirs p hp
  · obtain ⟨other, hother, rfl | rfl⟩ := hp
    · by_cases hsame : other = pid
      · -- the staging directory has moved away
        have hrel : FileTree.relative controlDir [Name.stage other] = none := rfl
        rw [hget, hrel, hsame]
        exact if_pos (List.prefix_refl _)
      · refine (hkeep _ (not_prefix_of_head (by simp)) ?_).trans
          (h.base.unborn _ ⟨other, hother, Or.inl rfl⟩)
        refine not_prefix_of_head fun heq => hsame ?_
        cases heq
        rfl
    · refine (hkeep _ ?_ ?_).trans (h.base.unborn _ ⟨other, hother, Or.inr rfl⟩)
      · exact not_prefix_of_head (by decide)
      · exact not_prefix_of_head (by simp)
  · refine (hkeep _ ?_ ?_).trans h.pending.migration
    · exact not_prefix_of_head (by decide)
    · exact not_prefix_of_head (by simp)

theorem safe_activate (h : Waiting t₀ used t) (hlegacy : t.get legacyControl = some .dir)
    (hcontrol : t.get controlDir = none) (hpid : env.pid ∉ used) (hfree : PidFree t₀ env.pid) :
    Safe (perform sha256 leadsToFile) (Inv leadsToFile t₀ (env.pid :: used) env.pid)
      (fun copied t' => copied = true ∧ Placed t₀ used env.pid t')
      (activate env legacyControl controlDir
        (controlPayloadManifest sha256 t legacyControl)) t := by
  have hstage : t.get [.stage env.pid] = none :=
    h.base.unborn _ ⟨env.pid, hpid, Or.inl rfl⟩
  have hinv : ∀ t', Outside [.stage env.pid] t t' →
      Inv leadsToFile t₀ (env.pid :: used) env.pid t' := by
    intro t' hout _
    have hlike : Like (env.pid :: used) t t' :=
      .outside hout (scratch_stage List.mem_cons_self)
    exact ⟨(h.base.born env.pid).like hlike, Or.inl (h.pending.like hlike)⟩
  have hstart := hinv t fun _ _ => rfl
  refine safe_question rfl hstart ?_
  rw [hstage]
  show Safe _ _ _ ((Prog.ret ()).bind fun _ => (copyTree env legacyControl [.stage env.pid]).bind
    fun _ => activateStaged env legacyControl controlDir
      (controlPayloadManifest sha256 t legacyControl)) t
  refine (safe_copyTree env legacyControl (by simp) hstage t.get_root hinv).bind ?_
  rintro _ t₁ ⟨hout, htop, hcopy⟩
  have hlegacy₁ : ∀ rel, t₁.get (legacyControl ++ rel) = t.get (legacyControl ++ rel) :=
    fun rel => hout _ (not_prefix_of_head (by simp))
  refine safe_question rfl (hinv t₁ hout) (safe_question rfl (hinv t₁ hout) ?_)
  have hagain : controlPayloadManifest sha256 t₁ legacyControl =
      controlPayloadManifest sha256 t legacyControl := payload_congr fun rel _ _ => hlegacy₁ rel
  have hcopied : controlPayloadManifest sha256 t₁ [.stage env.pid] =
      controlPayloadManifest sha256 t legacyControl :=
        payload_congr fun rel hrel _ => hcopy rel hrel
  rw [hagain, hcopied, differ_self]
  show Safe _ _ _ ((doChange (.replace [.stage env.pid] controlDir)).bind fun _ => .ret true) t₁
  have hcontrol₁ : t₁.get controlDir = none := by
    refine (hout _ ?_).trans hcontrol
    exact not_prefix_of_head (by simp)
  obtain ⟨t₂, hmove⟩ := FileTree.moveDir_ok htop hcontrol₁ t₁.get_root
    (by rintro ⟨_, heq⟩; cases heq) (by simp [controlDir]) (by simp)
  have hreplace : (Change.replace [.stage env.pid] controlDir).apply t₁ = .ok t₂ := by
    unfold Change.apply
    dsimp only
    rw [htop]
    exact hmove
  have hplaced := placed_of_move h hlegacy hfree hout htop hcopy hmove
  exact (safe_doChange (Q := fun _ t' => Placed t₀ used env.pid t') hreplace hplaced.inv
    hplaced).bind fun _ _ hp => ⟨rfl, hp⟩

theorem Base.payload (h : Base t₀ used t) (hlegacy : t.get legacyControl = some .dir) (rel : Path) :
    payloadAt t₀ rel = t.get (legacyControl ++ rel) := by
  have hdir : t₀.isDir legacyControl = true := by
    rw [FileTree.isDir_iff, ← h.legacy _ (List.prefix_refl _)]
    exact hlegacy
  unfold payloadAt
  rw [if_pos hdir, h.legacy _ (List.prefix_append _ _)]

theorem safe_compareCanonical (h : Waiting t₀ used t) (hlegacy : t.get legacyControl = some .dir)
    (hcontrol : t.get controlDir ≠ none) (hpid : env.pid ∉ used) (hfree : PidFree t₀ env.pid) :
    Safe (perform sha256 leadsToFile) (Inv leadsToFile t₀ (env.pid :: used) env.pid)
      (fun copied t' => copied = true ∧ Placed t₀ used env.pid t')
      (compareCanonical env legacyControl controlDir
        (controlPayloadManifest sha256 t legacyControl)) t := by
  obtain ⟨hcopied, hempty⟩ := h.pending.control.resolve_left hcontrol
  have hcurrent : controlPayloadManifest sha256 t controlDir =
      controlPayloadManifest sha256 t legacyControl :=
    payload_congr fun rel hne hrel =>
      (hcopied.payload rel hne hrel).trans (h.base.payload hlegacy rel)
  refine safe_question rfl (h.inv env.pid) ?_
  rw [hcurrent, differ_self]
  split
  · -- an earlier run got as far as the rename
    refine safe_question rfl (h.inv env.pid) ?_
    rw [differ_self]
    exact ⟨rfl, hcopied.placed h.base h.pending.migration hfree⟩
  · next hnone =>
    -- an empty directory: it is made again
    have hlegacyEmpty : LegacyEmpty t₀ := by
      have hpayload := payload_empty (not_not.mp hnone)
      refine ⟨?_, fun rel hne hrel => ?_⟩
      · rw [FileTree.isDir_iff, ← h.base.legacy _ (List.prefix_refl _)]
        exact hlegacy
      · rw [← h.base.legacy _ (List.prefix_append _ _)]
        exact hpayload rel hne hrel
    have hchildless : t.childless controlDir = true := by
      rw [FileTree.childless_iff]
      rintro q hq ⟨⟨rel, rfl⟩, hdiff⟩
      have hne : rel ≠ [] := by
        rintro rfl
        exact hdiff (List.append_nil _).symm
      by_cases hrel : rel = [.text ownershipName]
      · subst hrel
        exact hq (hempty hlegacyEmpty)
      · rw [hcopied.payload rel hne hrel, h.base.payload hlegacy,
          h.base.legacy _ (List.prefix_append _ _)] at hq
        exact hq (hlegacyEmpty.2 rel hne hrel)
    obtain ⟨t₁, hremove⟩ := FileTree.remove_ok_iff.mpr
      ⟨hcontrol, by simp [controlDir], hchildless⟩
    have hget := FileTree.get_remove hremove
    have hkeep : ∀ p, p ≠ controlDir → t₁.get p = t.get p := fun p hp => by rw [hget, if_neg hp]
    have hlegacy₁ : ∀ rel, t₁.get (legacyControl ++ rel) = t.get (legacyControl ++ rel) :=
      fun rel => hkeep _ (by simp [legacyControl, controlDir])
    have hbase₁ : Base t₀ used t₁ :=
      h.base.control fun p hp => hkeep p fun heq => hp (heq ▸ List.prefix_refl _)
    have hwait₁ : Waiting t₀ used t₁ :=
      ⟨hbase₁, (hkeep _ (by decide)).trans h.pending.migration, Or.inl (by rw [hget, if_pos rfl])⟩
    have hpayload : controlPayloadManifest sha256 t legacyControl =
        controlPayloadManifest sha256 t₁ legacyControl :=
      payload_congr fun rel _ _ => (hlegacy₁ rel).symm
    refine (safe_doChange (Q := fun _ w => w = t₁) (show (Change.rmdir controlDir).apply t = .ok t₁
      from hremove) (hwait₁.inv env.pid) rfl).bind ?_
    rintro _ t' rfl
    rw [hpayload]
    have hlegacyDir : t'.get legacyControl = some .dir := (hkeep _ (by decide)).trans hlegacy
    have habsent : t'.get controlDir = none := by rw [hget, if_pos rfl]
    exact safe_activate hwait₁ hlegacyDir habsent hpid hfree

theorem safe_copyLegacyControl (h : Waiting t₀ used t) (hlegacy : t.get legacyControl = some .dir)
    (hpid : env.pid ∉ used) (hfree : PidFree t₀ env.pid)
    (hready : BackupReady t₀ used (backupDir env.now suffix) t) :
    Safe (perform sha256 leadsToFile) (Inv leadsToFile t₀ (env.pid :: used) env.pid)
      (fun copied t' => copied = true ∧ Placed t₀ used env.pid t')
      (copyLegacyControl env legacyControl controlDir (backupDir env.now suffix)) t := by
  have hlike : ∀ t', Outside (backupDir env.now suffix ++ [.text "legacy-control"]) t t' →
      Like used t t' := fun t' hout => .outside hout fun rel => by
    rw [List.append_assoc]
    exact scratch_backup used _ _ _
  refine safe_question rfl (h.inv env.pid) ?_
  rw [FileTree.isDir_iff.mpr hlegacy]
  refine safe_question rfl (h.inv env.pid) ?_
  have hparent : t.get (backupDir env.now suffix ++ [Name.text "legacy-control"]).dropLast =
      some .dir := by
    rw [List.dropLast_concat]
    exact hready.top
  refine (safe_copyTree env legacyControl (by simp) hready.free hparent
    fun t' hout => (h.like (hlike t' hout)).inv env.pid).bind ?_
  rintro _ t₁ ⟨hout, -, hcopy⟩
  have hwait₁ := h.like (hlike t₁ hout)
  have hkept : ∀ rel, t₁.get (legacyControl ++ rel) = t.get (legacyControl ++ rel) :=
    fun rel => (hlike t₁ hout).kept _ (Or.inl (List.prefix_append _ _))
  have hlegacy₁ : t₁.get legacyControl = some .dir :=
    ((hlike t₁ hout).kept _ (Or.inl (List.prefix_refl _))).trans hlegacy
  have hsource : controlPayloadManifest sha256 t legacyControl =
      controlPayloadManifest sha256 t₁ legacyControl :=
    payload_congr fun rel _ _ => (hkept rel).symm
  have hsaved : controlPayloadManifest sha256 t₁ (backupDir env.now suffix ++
      [.text "legacy-control"]) = controlPayloadManifest sha256 t₁ legacyControl :=
    payload_congr fun rel hrel _ => (hcopy rel hrel).trans (hkept rel).symm
  refine safe_question rfl (hwait₁.inv env.pid) ?_
  rw [hsaved, hsource]
  unfold placeCanonical
  rw [differ_self]
  refine safe_question rfl (hwait₁.inv env.pid) ?_
  cases hcontrol : t₁.get controlDir with
  | none => exact safe_activate hwait₁ hlegacy₁ hcontrol hpid hfree
  | some n => exact safe_compareCanonical hwait₁ hlegacy₁ (by rw [hcontrol]; simp) hpid hfree

theorem get_append_none (h : t.get p = none) (rel : Path) : t.get (p ++ rel) = none := by
  by_cases hrel : rel = []
  · rw [hrel, List.append_nil]
    exact h
  · by_contra hsome
    have habove : Above p (p ++ rel) :=
      ⟨List.prefix_append _ _, fun heq => hrel (List.self_eq_append_right.mp heq)⟩
    rw [FileTree.get_above hsome habove] at h
    cases h

/-- **The Controller state is in its place.** -/
theorem safe_moveControl (hpid : env.pid ∉ used) (hfree : PidFree t₀ env.pid)
    (hready : BackupReady t₀ used (backupDir env.now suffix) t) :
    Safe (perform sha256 leadsToFile) (Inv leadsToFile t₀ (env.pid :: used) env.pid)
      (fun _ t' => Placed t₀ used env.pid t') (moveControl env (backupDir env.now suffix)) t := by
  have h := hready.waiting
  refine safe_question rfl (h.inv env.pid) ?_
  by_cases hdir : t.isDir legacyControl = true
  · rw [hdir]
    exact (safe_copyLegacyControl h (FileTree.isDir_iff.mp hdir) hpid hfree hready).bind
      fun _ _ hplaced => hplaced.2
  · rw [if_neg hdir]
    -- without a legacy tree the canonical directory is made where it is missing
    have hnone : ∀ rel, payloadAt t₀ rel = none := by
      intro rel
      unfold payloadAt
      rw [if_neg]
      rw [FileTree.isDir_iff, ← h.base.legacy _ (List.prefix_refl _), ← FileTree.isDir_iff]
      exact hdir
    have hcontrol : t.get controlDir = none ∨ t.get controlDir = some .dir :=
      h.pending.control.imp_right fun hcopied => hcopied.1.dir
    refine (safe_makeDirs (Q := fun _ t' => Placed t₀ used env.pid t') hcontrol (h.inv env.pid)
      fun t' hget' => ?_).bind fun _ _ hplaced => hplaced
    have hget : ∀ r, t'.get r = if r = controlDir then some .dir else t.get r := hget'
    have hkeep : ∀ p, p ≠ controlDir → t'.get p = t.get p := fun p hp => by
      rw [hget, if_neg hp]
    have hbelow : ∀ rel, rel ≠ [] → t'.get (controlDir ++ rel) = t.get (controlDir ++ rel) :=
      fun rel hrel => hkeep _ fun heq => hrel (List.append_right_eq_self.mp heq)
    have hcopied : Copied t₀ t' := by
      refine ⟨by rw [hget, if_pos rfl], fun rel hne hrel => ?_, ?_⟩
      · rw [hbelow rel hne]
        rcases h.pending.control with habsent | ⟨hcopied, -⟩
        · rw [get_append_none habsent, hnone]
        · exact hcopied.payload rel hne hrel
      · rw [show t'.get controlMarker = t.get controlMarker from hbelow _ (by simp)]
        rcases h.pending.control with habsent | ⟨hcopied, -⟩
        · exact Or.inl ((get_append_none habsent _).trans (hnone _).symm)
        · exact hcopied.marker
    have hbase : Base t₀ used t' :=
      h.base.control fun p hp => hkeep p fun heq => hp (heq ▸ List.prefix_refl _)
    have hplaced := hcopied.placed hbase ((hkeep _ (by decide)).trans h.pending.migration) hfree
    exact ⟨hplaced.inv, hplaced⟩

/-! ## The markers -/

/-- **A file appears whole**: a temporary file is written and renamed. -/
theorem safe_atomicJson {name : String} {content : Content} (hdir : t.get [n] = some .dir)
    (htemp : t.get [n, .temp name env.pid] = none) (htarget : t.get [n, .text name] ≠ some .dir)
    (hI : I t)
    (hcrash : ∀ t' : Tree, (∃ c, ∀ r, t'.get r =
      if r = [n, .temp name env.pid] then some (.file (.file c)) else t.get r) → I t')
    (hafter : ∀ t' : Tree, (∀ r, t'.get r =
      if r = [n, .text name] then some (.file (.file content)) else t.get r) → I t' ∧ Q () t') :
    Safe (perform sha256 leadsToFile) I Q (atomicJson env [n] name content) t := by
  refine (safe_makeDirs_there hdir hI).bind ?_
  rintro _ t rfl
  refine (safe_writeText (Q := fun _ t' => ∀ r, t'.get r =
    if r = [n, .temp name env.pid] then some (.file (.file content)) else t.get r) (by simp)
      (Or.inl htemp) hdir hcrash fun t' hget => hget).bind ?_
  rintro _ t₁ hget₁
  -- the rename: the target is replaced and the temporary name is gone
  have htarget₁ : t₁.get [n, .text name] ≠ some .dir := by
    rw [hget₁, if_neg (by simp)]
    exact htarget
  have hdir₁ : t₁.get ([n, .text name] : Path).dropLast = some .dir := by
    show t₁.get [n] = some .dir
    rw [hget₁, if_neg (by simp)]
    exact hdir
  obtain ⟨t₂, hplace⟩ := FileTree.place_file_ok (d := Leaf.file content) (by simp) htarget₁ hdir₁
  have hget₂ := FileTree.get_place hplace
  have htemp₂ : t₂.get [n, .temp name env.pid] = some (.file (.file content)) := by
    rw [hget₂, if_neg (by simp), hget₁, if_pos rfl]
  have hchildless : t₂.childless [n, .temp name env.pid] = true := by
    rw [FileTree.childless_iff]
    exact fun q hq habove => hq (FileTree.get_below_file htemp₂ habove)
  obtain ⟨t₃, hremove⟩ := FileTree.remove_ok_iff.mpr
    ⟨by rw [htemp₂]; simp, by simp, hchildless⟩
  have hget₃ : ∀ r, t₃.get r =
      if r = [n, .text name] then some (.file (.file content)) else t.get r := by
    intro r
    rw [FileTree.get_remove hremove]
    by_cases hr : r = [n, .temp name env.pid]
    · rw [if_pos hr, hr, if_neg (by simp), htemp]
    · rw [if_neg hr, hget₂]
      split
      · rfl
      · rw [hget₁, if_neg hr]
  have hreplace : (Change.replace [n, .temp name env.pid] [n, .text name]).apply t₁ = .ok t₃ := by
    unfold Change.apply
    dsimp only
    rw [hget₁, if_pos rfl]
    dsimp only
    rw [hplace]
    exact hremove
  obtain ⟨hI₃, hQ₃⟩ := hafter t₃ hget₃
  exact safe_doChange hreplace hI₃ hQ₃

theorem safe_markControl (hlegacy : t₀.get (legacyControl ++ [.text ownershipName]) ≠ some .dir)
    (hfree : PidFree t₀ env.pid) (h : Placed t₀ used env.pid t)
    (hcompat : t.get compatDir = some .dir) :
    Safe (perform sha256 leadsToFile) (Inv leadsToFile t₀ (env.pid :: used) env.pid)
      (fun _ t' => Placed t₀ used env.pid t' ∧ t'.get compatDir = some .dir ∧
        isFile leadsToFile t' controlMarker = true) (markControl env) t := by
  refine safe_question rfl h.inv ?_
  by_cases hmarked : isFile leadsToFile t controlMarker = true
  · rw [if_pos hmarked]
    exact ⟨h, hcompat, hmarked⟩
  rw [if_neg hmarked]
  refine safe_question rfl h.inv ?_
  have htarget : t.get [.text "control", .text ownershipName] ≠ some .dir := by
    have hmarker : t.get [.text "control", .text ownershipName] =
        payloadAt t₀ [.text ownershipName] ∨ ∃ origin,
          t.get [.text "control", .text ownershipName] = some (.file (.file (.ownership origin))) :=
      h.copied.marker
    rcases hmarker with heq | ⟨origin, heq⟩
    · rw [heq]
      unfold payloadAt
      split
      · exact hlegacy
      · simp
    · rw [heq]
      simp
  refine (safe_atomicJson (Q := fun _ t' => Placed t₀ used env.pid t' ∧
    t'.get compatDir = some .dir ∧ isFile leadsToFile t' controlMarker = true) h.copied.dir h.temp
      htarget h.inv (fun t' ⟨c, hget⟩ hclean => ?_) fun t' hget => ?_).bind fun _ _ h => h
  · -- with the temporary marker in the directory the state is not clean
    have htemp := hclean.temp
    rw [show t'.get (controlDir ++ [.temp ownershipName env.pid]) = some (.file (.file c)) from by
      rw [hget]; exact if_pos rfl] at htemp
    cases htemp
  · have hkeep : ∀ p, p ≠ controlMarker → t'.get p = t.get p := fun p hp => by
      rw [hget]
      exact if_neg hp
    have hmarker : t'.get controlMarker = some (.file (.file (.ownership
        (if t.isDir legacyControl then some legacyControl else none)))) := by
      rw [hget]
      exact if_pos rfl
    have hcopied : Copied t₀ t' := by
      refine ⟨(hkeep _ (by decide)).trans h.copied.dir, fun rel hne hrel => ?_,
        Or.inr ⟨_, hmarker⟩⟩
      rw [hkeep _ fun heq => hrel (List.append_cancel_left heq)]
      exact h.copied.payload rel hne hrel
    have hbase : Base t₀ used t' := h.base.control fun p hp => hkeep p fun heq =>
      hp (heq ▸ List.prefix_append _ _)
    have hplaced := hcopied.placed hbase ((hkeep _ (by decide)).trans h.migration) hfree
    refine ⟨hplaced.inv, hplaced, (hkeep _ (by decide)).trans hcompat, ?_⟩
    unfold isFile
    rw [hmarker]

/-- After a run to the end. -/
structure Completed (leadsToFile : String → Bool) (t₀ : Tree) (used : List Nat) (report : Report)
    (t : Tree) : Prop where
  base : Base t₀ used t
  done : Done leadsToFile t₀ report t

theorem Completed.inv {report : Report} (h : Completed leadsToFile t₀ (pid :: used) report t) :
    Inv leadsToFile t₀ (pid :: used) pid t :=
  fun _ => ⟨h.base, Or.inr ⟨report, h.done⟩⟩

theorem safe_markMigration (h : Placed t₀ used env.pid t) (hpid : env.pid ∉ used)
    (hcompat : t.get compatDir = some .dir) (hmarked : isFile leadsToFile t controlMarker = true)
    (report : Report) :
    Safe (perform sha256 leadsToFile) (Inv leadsToFile t₀ (env.pid :: used) env.pid)
      (fun _ t' => Completed leadsToFile t₀ (env.pid :: used) report t')
      (atomicJson env compatDir migrationName (.migration report env.now)) t := by
  have htemp : t.get (compatDir ++ [.temp migrationName env.pid]) = none :=
    h.base.unborn _ ⟨env.pid, hpid, Or.inr rfl⟩
  have htarget : t.get [.text "compat", .text migrationName] ≠ some .dir := by
    rw [show t.get [.text "compat", .text migrationName] = none from h.migration]
    simp
  refine safe_atomicJson hcompat htemp htarget h.inv (fun t' ⟨c, hget⟩ hclean => ?_)
    fun t' hget => ?_
  · -- a temporary file elsewhere does not matter
    have hlike : Like (env.pid :: used) t t' :=
      .place (scratch_temp List.mem_cons_self) hget
    have hempty : LegacyEmpty t₀ → t'.get controlMarker = none := fun hlegacy =>
      (hclean.marker hlegacy).resolve_right fun hne =>
        hne ((hlike.kept _ kept_migration).trans h.migration)
    exact ⟨(h.base.born env.pid).like hlike, Or.inl
      ⟨(hlike.kept _ kept_migration).trans h.migration, Or.inr ⟨h.copied.like hlike, hempty⟩⟩⟩
  · have hkeep : ∀ p, p ≠ migrationMarker → t'.get p = t.get p := fun p hp => by
      rw [hget]
      exact if_neg hp
    have hcontrol : ∀ rel, t'.get (controlDir ++ rel) = t.get (controlDir ++ rel) :=
      fun rel => hkeep _ (by simp [controlDir, migrationMarker, compatDir])
    have hcopied : Copied t₀ t' := by
      refine ⟨(hkeep _ (by decide)).trans h.copied.dir, fun rel hne hrel => ?_, ?_⟩
      · rw [hcontrol]
        exact h.copied.payload rel hne hrel
      · rw [hkeep controlMarker (by decide)]
        exact h.copied.marker
    have hbase : Base t₀ (env.pid :: used) t' := by
      have hborn := h.base.born env.pid
      refine ⟨fun p hp => ?_, fun p hp => ?_, fun p hp => ?_⟩
      · rw [hkeep p ?_]
        · exact hborn.legacy p hp
        · rintro rfl
          exact absurd hp (by decide)
      · rw [hkeep p ?_]
        · exact hborn.dirs p hp
        · rintro rfl
          exact absurd hp (by decide)
      · rw [hkeep p ?_]
        · exact hborn.unborn p hp
        · rintro rfl
          obtain ⟨other, -, heq | heq⟩ := hp
          · cases heq
          · simp [migrationMarker] at heq
    have hdone : Done leadsToFile t₀ report t' := by
      refine ⟨hcopied, ?_, env.now, by rw [hget]; exact if_pos rfl⟩
      unfold isFile
      rw [hkeep controlMarker (by decide)]
      exact hmarked
    have hcompleted : Completed leadsToFile t₀ (env.pid :: used) report t' := ⟨hbase, hdone⟩
    exact ⟨hcompleted.inv, hcompleted⟩

theorem safe_makeCore (h : Placed t₀ used env.pid t) (hp : p ∈ coreDirs) {rest : List Path}
    (hcompat : compatDir ∈ p :: rest ∨ t.get compatDir = some .dir) :
    Safe (perform sha256 leadsToFile) (Inv leadsToFile t₀ (env.pid :: used) env.pid)
      (fun _ t' => Placed t₀ used env.pid t' ∧ (compatDir ∈ rest ∨ t'.get compatDir = some .dir))
      (makeCore p) t := by
  have hown : p ∈ ownDirs := List.mem_cons_of_mem _ hp
  obtain ⟨s, rfl⟩ := ownDirs_text p hown
  refine safe_question rfl h.inv ?_
  refine (safe_makeDirs (Q := fun _ t' => Placed t₀ used env.pid t' ∧
    (compatDir ∈ rest ∨ t'.get compatDir = some .dir)) (h.base.dirs _ hown) h.inv
      fun t' hget => ?_).bind fun _ _ h => h
  have hlike : Like used t t' := .ownDir hown hget
  refine ⟨(h.like hlike).inv, h.like hlike, ?_⟩
  rcases hcompat with hmem | hdir
  · rcases List.mem_cons.mp hmem with heq | hrest
    · exact Or.inr (by rw [hget, if_pos heq])
    · exact Or.inl hrest
  · exact Or.inr (hlike.compat hdir)

/-- **A migration that is not complete is completed.** -/
theorem migrate_safe (hlegacy : t₀.get (legacyControl ++ [.text ownershipName]) ≠ some .dir)
    (h : Waiting t₀ used t) (hcompat : t.get compatDir = some .dir) (hpid : env.pid ∉ used)
    (hfree : PidFree t₀ env.pid) :
    Safe (perform sha256 leadsToFile) (Inv leadsToFile t₀ (env.pid :: used) env.pid)
      (fun report t' => Completed leadsToFile t₀ (env.pid :: used) report t') (migrate env) t := by
  refine (safe_captureInventory h hcompat).bind ?_
  rintro _ t₁ ⟨⟨suffix, rfl⟩, hready⟩
  refine (safe_moveControl hpid hfree hready).bind ?_
  rintro moved t₂ hplaced
  -- the last of the canonical directories is the one of the migration marker
  refine (Safe.collect (fun rest t' => (∀ p ∈ rest, p ∈ coreDirs) ∧ Placed t₀ used env.pid t' ∧
    (compatDir ∈ rest ∨ t'.get compatDir = some .dir)) ?_ coreDirs
      ⟨fun _ hp => hp, hplaced, Or.inl (by decide)⟩).bind ?_
  · rintro p rest t₃ ⟨hrest, hplaced₃, hcompat₃⟩
    exact (safe_makeCore hplaced₃ (hrest p List.mem_cons_self) hcompat₃).mono fun _ _ hp =>
      ⟨fun q hq => hrest q (List.mem_cons_of_mem _ hq), hp⟩
  rintro made t₃ ⟨-, hplaced₃, hcompat₃⟩
  have hcompat₃' : t₃.get compatDir = some .dir := hcompat₃.resolve_left fun hmem => by cases hmem
  refine (safe_markControl hlegacy hfree hplaced₃ hcompat₃').bind ?_
  rintro marked t₄ ⟨hplaced₄, hcompat₄, hmarked₄⟩
  exact (safe_markMigration hplaced₄ hpid hcompat₄ hmarked₄ _).bind fun _ _ hdone => hdone

/-- **A complete migration is left alone**, and its report returned. -/
theorem reportAgain_safe {report : Report} (h : Done leadsToFile t₀ report t) :
    Safe (perform sha256 leadsToFile) (fun w => w = t) (fun again w => again = report ∧ w = t)
      (migrateCanonicalState env) t := by
  obtain ⟨time, hmigration⟩ := h.migration
  have hcompat : t.get compatDir = some .dir :=
    FileTree.get_above (by rw [hmigration]; simp) (by decide : Above compatDir migrationMarker)
  refine (safe_makeRoot (I := fun w => w = t) rfl).bind ?_
  rintro _ t rfl
  refine (safe_makeDirs_there (I := fun w => w = t) hcompat rfl).bind ?_
  rintro _ t rfl
  have hfile : isFile leadsToFile t migrationMarker = true := by
    unfold isFile
    rw [hmigration]
  refine safe_question rfl rfl ?_
  rw [if_pos hfile]
  refine safe_question rfl rfl ?_
  rw [h.marked]
  have hread : readFile t migrationMarker = some (.migration report time) := by
    unfold readFile
    rw [hmigration]
  refine safe_question rfl rfl ?_
  rw [hread]
  exact ⟨rfl, rfl⟩

/-- **One run** completes, and a crash is resumable or not clean. -/
theorem migrateCanonicalState_safe
    (hlegacy : t₀.get (legacyControl ++ [.text ownershipName]) ≠ some .dir)
    (h : Resumable leadsToFile t₀ used t) (hpid : env.pid ∉ used) (hfree : PidFree t₀ env.pid) :
    Safe (perform sha256 leadsToFile) (Inv leadsToFile t₀ (env.pid :: used) env.pid)
      (fun report t' => Completed leadsToFile t₀ (env.pid :: used) report t')
      (migrateCanonicalState env) t := by
  rcases h.state with hpending | ⟨report, hdone⟩
  · have hwait : Waiting t₀ used t := ⟨h.base, hpending⟩
    refine (safe_makeRoot (hwait.inv env.pid)).bind ?_
    rintro _ t rfl
    refine (safe_makeDirs (Q := fun _ t' => Waiting t₀ used t' ∧ t'.get compatDir = some .dir)
      (h.base.dirs compatDir (by decide)) (hwait.inv env.pid) fun t' hget => ?_).bind ?_
    · have hlike : Like used t t' := .ownDir (by decide : compatDir ∈ ownDirs) hget
      exact ⟨(hwait.like hlike).inv env.pid, hwait.like hlike, by rw [hget]; exact if_pos rfl⟩
    rintro _ t₁ ⟨hwait₁, hcompat₁⟩
    have hnofile : isFile leadsToFile t₁ migrationMarker = false := by
      unfold isFile
      rw [hwait₁.pending.migration]
    refine safe_question rfl (hwait₁.inv env.pid) ?_
    rw [hnofile]
    exact migrate_safe hlegacy hwait₁ hcompat₁ hpid hfree
  · -- nothing is changed any more
    have hcompleted : Completed leadsToFile t₀ (env.pid :: used) report t :=
      ⟨h.base.born env.pid, hdone⟩
    have hagain : Safe (perform sha256 leadsToFile) (fun w => w = t)
        (fun again w => again = report ∧ w = t) (migrateCanonicalState env) t :=
      reportAgain_safe hdone
    have hmono : Safe (perform sha256 leadsToFile) (fun w => w = t)
        (fun report t' => Completed leadsToFile t₀ (env.pid :: used) report t')
        (migrateCanonicalState env) t :=
      hagain.mono fun _ _ ⟨hreport, htree⟩ => by
        rw [hreport, htree]
        exact hcompleted
    exact hmono.weaken fun w hw => by
      rw [hw]
      exact hcompleted.inv

end Stages

/-! ## Whole sequences of runs -/

variable (sha256 : Content → Nat) (leadsToFile t₀) in
/-- The states that runs leave behind, finished or not, all clean. -/
inductive Reached : List Nat → Tree → Prop
  | start : Reached [] t₀
  | run {used : List Nat} {t t' : Tree} (env : Env) (h : Reached used t) (hpid : env.pid ∉ used)
      (hfree : PidFree t₀ env.pid)
      (hleft : t' ∈ (migrateCanonicalState env).visits (perform sha256 leadsToFile) t)
      (hclean : Clean t₀ env.pid t') : Reached (env.pid :: used) t'

/-- Before the first run: no canonical directory, no marker, nothing in the way. -/
structure Fresh (t₀ : Tree) : Prop where
  control : t₀.get controlDir = none
  migration : t₀.get migrationMarker = none
  dirs : ∀ p ∈ ownDirs, t₀.get p = none ∨ t₀.get p = some .dir
  unborn : ∀ p, Unborn [] p → t₀.get p = none

theorem Reached.resumable {sha256 : Content → Nat} (hfresh : Fresh t₀)
    (hlegacy : t₀.get (legacyControl ++ [.text ownershipName]) ≠ some .dir)
    (h : Reached leadsToFile t₀ sha256 used t) : Resumable leadsToFile t₀ used t := by
  induction h with
  | start =>
    exact ⟨⟨fun _ _ => rfl, hfresh.dirs, hfresh.unborn⟩,
      Or.inl ⟨hfresh.migration, Or.inl hfresh.control⟩⟩
  | run env _ hpid hfree hleft hclean ih =>
    exact (migrateCanonicalState_safe hlegacy ih hpid hfree).visits _ hleft hclean

/-- A tree of some entries. -/
def build (entries : List (Path × Node Leaf)) : Tree :=
  entries.foldl (fun t e => (t.place e.1 e.2).toOption.getD t) (FileTree.empty (Names.all Name))

/-- A legacy tree with one file. -/
def smallRoot : Tree :=
  build [([.text "ru-node"], .dir), (legacyControl, .dir),
    (legacyControl ++ [.text "config.json"], .file (.file (.bytes [123, 125])))]

/-- An empty legacy tree. -/
def emptyRoot : Tree := build [([.text "ru-node"], .dir), (legacyControl, .dir)]

/-- A process without an inventory. -/
def smallEnv (pid : Nat) : Env :=
  { pid, now := 1000, scan := .byLength, snapshots := [], externalWireguard := []
    externalRoutes := "", firewallState := "" }

/-- What the process leaves when it stops after so many calls. -/
def crashed (t : Tree) (pid calls : Nat) : Tree :=
  (((migrateCanonicalState (smallEnv pid)).visits (perform (fun _ => 0) fun _ => false)
    t)[calls]?).getD t

/-- The result of a run. -/
def outcome (t : Tree) (pid : Nat) : Except MigrationError Report :=
  ((migrateCanonicalState (smallEnv pid)).complete (perform (fun _ => 0) fun _ => false) t).1

/-- A temporary name. -/
def ofProcess : Path → Bool
  | [.stage _] => true
  | [_, .temp _ _] => true
  | _ => false

theorem fresh_of_entries {t : Tree} (hcontrol : t.get controlDir = none)
    (hmigration : t.get migrationMarker = none)
    (hdirs : ∀ p ∈ ownDirs, t.get p = none ∨ t.get p = some .dir)
    (hentries : (t.nodes.toList.all fun e => !ofProcess e.1) = true) : Fresh t := by
  refine ⟨hcontrol, hmigration, hdirs, fun p hp => ?_⟩
  by_contra hsome
  obtain ⟨n, hn⟩ := Option.ne_none_iff_exists'.mp hsome
  have hmem := List.all_eq_true.mp hentries (p, n) (SortedMap.mem_toList.mpr hn)
  obtain ⟨pid, -, rfl | rfl⟩ := hp
  · cases hmem
  · cases hmem

theorem smallRoot_fresh : Fresh smallRoot :=
  fresh_of_entries (by decide +kernel) (by decide +kernel) (by decide +kernel) (by decide +kernel)

-- with an empty payload, an ownership marker without the migration marker stops the next run too
example : outcome (crashed emptyRoot 1 50) 2 = .error (.os .notEmpty) := by decide +kernel

-- so does a legacy directory in the place of the marker, without any crash
example : outcome (build [([.text "ru-node"], .dir), (legacyControl, .dir),
    (legacyControl ++ [.text ownershipName], .dir)]) 1 = .error (.os .isDirectory) := by
  decide +kernel

end Bpc.Migration
