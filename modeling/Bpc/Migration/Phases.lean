/-
  WHAT IS KEPT, and the states between runs.

  1. **Places** — the program decides on three places (`Kept`); the rest is `Scratch`.  `Like`
     trees agree.
  2. **States** — nothing, a whole copy (`Copied`), or `Done`; that is `Resumable`.
  3. **Crashes** — two kinds leave something else, both around the ownership marker; `Clean`
     excludes them.
-/
import Bpc.Migration.Copy

namespace Bpc.Migration

/-! ## What is kept -/

/-- A path that the program decides on. -/
def Kept (p : Path) : Prop := legacyControl <+: p ∨ controlDir <+: p ∨ p = migrationMarker

/-- The directories that are made when they are missing. -/
def ownDirs : List Path := backupsDir :: coreDirs

/-- A path of a process to come. -/
def Unborn (used : List Nat) (p : Path) : Prop :=
  ∃ pid, pid ∉ used ∧ (p = [.stage pid] ∨ p = compatDir ++ [.temp migrationName pid])

/-- A path in any state. -/
def Scratch (used : List Nat) (p : Path) : Prop := ¬Kept p ∧ p ∉ ownDirs ∧ ¬Unborn used p

/-- The second tree is like the first in everything that matters. -/
structure Like (used : List Nat) (t t' : Tree) : Prop where
  kept : ∀ p, Kept p → t'.get p = t.get p
  unborn : ∀ p, Unborn used p → t'.get p = t.get p
  dirs : ∀ p ∈ ownDirs, t'.get p = t.get p ∨ t'.get p = some .dir

theorem Like.refl (used : List Nat) (t : Tree) : Like used t t :=
  ⟨fun _ _ => rfl, fun _ _ => rfl, fun _ _ => Or.inl rfl⟩

variable {used : List Nat} {t t' : Tree}

theorem Like.trans {t'' : Tree} (h : Like used t t') (h' : Like used t' t'') : Like used t t'' where
  kept p hp := (h'.kept p hp).trans (h.kept p hp)
  unborn p hp := (h'.unborn p hp).trans (h.unborn p hp)
  dirs p hp := by
    rcases h'.dirs p hp with heq | hdir
    · rw [heq]
      exact h.dirs p hp
    · exact Or.inr hdir

theorem Like.outside {dst : Path} (h : Outside dst t t') (hdst : ∀ rel, Scratch used (dst ++ rel)) :
    Like used t t' := by
  have hnot : ∀ p, ¬Scratch used p → t'.get p = t.get p := by
    intro p hp
    refine h p ?_
    rintro ⟨rel, rfl⟩
    exact hp (hdst rel)
  exact ⟨fun p hp => hnot p fun hs => hs.1 hp, fun p hp => hnot p fun hs => hs.2.2 hp,
    fun p hp => Or.inl (hnot p fun hs => hs.2.1 hp)⟩

theorem Like.place {p : Path} {n : Option (Node Leaf)} (hp : Scratch used p)
    (h : ∀ r, t'.get r = if r = p then n else t.get r) : Like used t t' := by
  have hnot : ∀ r, ¬Scratch used r → t'.get r = t.get r := by
    intro r hr
    rw [h, if_neg]
    rintro rfl
    exact hr hp
  exact ⟨fun r hr => hnot r fun hs => hs.1 hr, fun r hr => hnot r fun hs => hs.2.2 hr,
    fun r hr => Or.inl (hnot r fun hs => hs.2.1 hr)⟩

instance (p : Path) : Decidable (Kept p) := inferInstanceAs (Decidable (_ ∨ _ ∨ _))

theorem ownDirs_not_kept : ∀ p ∈ ownDirs, ¬Kept p := by decide

theorem ownDirs_text : ∀ p ∈ ownDirs, ∃ s, p = [.text s] := by
  intro p hp
  simp only [ownDirs, coreDirs, backupsDir, compatDir, List.mem_cons, List.not_mem_nil,
    or_false] at hp
  rcases hp with rfl | rfl | rfl | rfl | rfl | rfl <;> exact ⟨_, rfl⟩

theorem ownDirs_not_unborn (used : List Nat) : ∀ p ∈ ownDirs, ¬Unborn used p := by
  intro p hp
  obtain ⟨s, rfl⟩ := ownDirs_text p hp
  rintro ⟨pid, -, h | h⟩
  · cases h
  · cases h

theorem Like.ownDir {p : Path} (hp : p ∈ ownDirs)
    (h : ∀ r, t'.get r = if r = p then some .dir else t.get r) : Like used t t' := by
  have hne : ∀ r, r ≠ p → t'.get r = t.get r := fun r hr => by rw [h, if_neg hr]
  refine ⟨fun r hr => hne r ?_, fun r hr => hne r ?_, fun r _ => ?_⟩
  · rintro rfl
    exact ownDirs_not_kept r hp hr
  · rintro rfl
    exact ownDirs_not_unborn used r hp hr
  · by_cases hr : r = p
    · exact Or.inr (by rw [h, if_pos hr])
    · exact Or.inl (hne r hr)

theorem not_prefix_of_head {n m : Name} {a b : Path} (h : n ≠ m) : ¬(n :: a) <+: (m :: b) := by
  rintro ⟨_, heq⟩
  exact h (List.cons.inj heq).1

theorem scratch_of_head {n : Name} {rest : Path}
    (hn : n ∉ [Name.text "ru-node", .text "control", .text "compat"])
    (hlong : rest ≠ [] ∨ ∀ s, n ≠ .text s) (hstage : ∀ pid, pid ∉ used → n :: rest ≠ [.stage pid]) :
    Scratch used (n :: rest) := by
  simp only [List.mem_cons, List.not_mem_nil, or_false, not_or] at hn
  refine ⟨?_, fun hmem => ?_, ?_⟩
  · rintro (⟨tail, h⟩ | ⟨tail, h⟩ | h)
    · exact hn.1 (List.cons.inj h).1.symm
    · exact hn.2.1 (List.cons.inj h).1.symm
    · exact hn.2.2 (List.cons.inj h).1
  · obtain ⟨s, hs⟩ := ownDirs_text _ hmem
    obtain ⟨rfl, rfl⟩ := List.cons.inj hs
    rcases hlong with h | h
    · exact h rfl
    · exact h s rfl
  · rintro ⟨pid, hpid, h | h⟩
    · exact hstage pid hpid h
    · exact hn.2.2 (List.cons.inj h).1

theorem scratch_backup (used : List Nat) (timestamp suffix : Nat) (rel : Path) :
    Scratch used (backupDir timestamp suffix ++ rel) :=
  scratch_of_head (by decide) (Or.inl (by simp)) fun _ _ h => by cases h

variable {pid : Nat}

theorem scratch_stage (hpid : pid ∈ used) (rel : Path) : Scratch used ([.stage pid] ++ rel) := by
  refine scratch_of_head (by simp) (Or.inr fun _ h => (by cases h)) fun other hother h => ?_
  cases h
  exact hother hpid

theorem scratch_temp (hpid : pid ∈ used) :
    Scratch used (compatDir ++ [.temp migrationName pid]) := by
  refine ⟨?_, fun hmem => ?_, ?_⟩
  · rintro (⟨tail, h⟩ | ⟨tail, h⟩ | h)
    · exact absurd (List.cons.inj h).1 (by decide)
    · exact absurd (List.cons.inj h).1 (by decide)
    · cases (List.cons.inj (List.cons.inj h).2).1
  · obtain ⟨s, hs⟩ := ownDirs_text _ hmem
    cases hs
  · rintro ⟨other, hother, h | h⟩
    · cases h
    · cases h
      exact hother hpid

/-! ## States -/

variable (leadsToFile : String → Bool) (t₀ : Tree)

/-- The legacy tree, by relative path. -/
def payloadAt (rel : Path) : Option (Node Leaf) :=
  if t₀.isDir legacyControl then t₀.get (legacyControl ++ rel) else none

/-- A legacy directory without a payload. -/
def LegacyEmpty : Prop :=
  t₀.isDir legacyControl = true ∧
    ∀ rel, rel ≠ [] → rel ≠ [.text ownershipName] → t₀.get (legacyControl ++ rel) = none

/-- The legacy tree is as it was, and nothing is in the way. -/
structure Base (used : List Nat) (t : Tree) : Prop where
  legacy : ∀ p, legacyControl <+: p → t.get p = t₀.get p
  dirs : ∀ p ∈ ownDirs, t.get p = none ∨ t.get p = some .dir
  unborn : ∀ p, Unborn used p → t.get p = none

/-- The canonical directory is a copy, apart from the ownership marker. -/
structure Copied (t : Tree) : Prop where
  dir : t.get controlDir = some .dir
  payload : ∀ rel, rel ≠ [] → rel ≠ [.text ownershipName] →
    t.get (controlDir ++ rel) = payloadAt t₀ rel
  marker : t.get controlMarker = payloadAt t₀ [.text ownershipName] ∨
    ∃ origin, t.get controlMarker = some (.file (.file (.ownership origin)))

/-- The migration is complete. -/
structure Done (report : Report) (t : Tree) : Prop where
  copied : Copied t₀ t
  marked : isFile leadsToFile t controlMarker = true
  migration : ∃ time, t.get migrationMarker = some (.file (.file (.migration report time)))

/-- The migration is to be done, or to be finished. -/
structure Pending (t : Tree) : Prop where
  migration : t.get migrationMarker = none
  control : t.get controlDir = none ∨
    Copied t₀ t ∧ (LegacyEmpty t₀ → t.get controlMarker = none)

/-- A state from which a run completes. -/
structure Resumable (used : List Nat) (t : Tree) : Prop where
  base : Base t₀ used t
  state : Pending t₀ t ∨ ∃ report, Done leadsToFile t₀ report t

/-- What a crash must not leave: the temporary ownership marker, or, without a payload, an
    ownership marker without the migration marker. -/
structure Clean (pid : Nat) (t : Tree) : Prop where
  temp : t.get (controlDir ++ [.temp ownershipName pid]) = none
  marker : LegacyEmpty t₀ → t.get controlMarker = none ∨ t.get migrationMarker ≠ none

/-- The crash invariant. -/
def Inv (used : List Nat) (pid : Nat) (t : Tree) : Prop :=
  Clean t₀ pid t → Resumable leadsToFile t₀ used t

variable {leadsToFile t₀} {used : List Nat} {t t' : Tree}

theorem kept_control (rel : Path) : Kept (controlDir ++ rel) :=
    Or.inr (Or.inl (List.prefix_append _ _))

theorem kept_controlDir : Kept controlDir := Or.inr (Or.inl (List.prefix_refl _))

theorem kept_migration : Kept migrationMarker := Or.inr (Or.inr rfl)

theorem Base.like (h : Base t₀ used t) (hlike : Like used t t') : Base t₀ used t' where
  legacy p hp := (hlike.kept p (Or.inl hp)).trans (h.legacy p hp)
  dirs p hp := by
    rcases hlike.dirs p hp with heq | hdir
    · rw [heq]
      exact h.dirs p hp
    · exact Or.inr hdir
  unborn p hp := (hlike.unborn p hp).trans (h.unborn p hp)

theorem Base.control (h : Base t₀ used t)
    (hkeep : ∀ p, ¬controlDir <+: p → t'.get p = t.get p) : Base t₀ used t' where
  legacy p hp := by
    obtain ⟨rel, rfl⟩ := hp
    refine (hkeep _ ?_).trans (h.legacy _ (List.prefix_append _ _))
    exact not_prefix_of_head (by decide)
  dirs p hp := by
    rw [hkeep p fun hpre => ownDirs_not_kept p hp (Or.inr (Or.inl hpre))]
    exact h.dirs p hp
  unborn p hp := by
    refine (hkeep p ?_).trans (h.unborn p hp)
    obtain ⟨other, -, rfl | rfl⟩ := hp
    · exact not_prefix_of_head (by simp)
    · exact not_prefix_of_head (by decide)

theorem Copied.like (h : Copied t₀ t) (hlike : Like used t t') : Copied t₀ t' where
  dir := (hlike.kept _ kept_controlDir).trans h.dir
  payload rel hne hrel := (hlike.kept _ (kept_control rel)).trans (h.payload rel hne hrel)
  marker := by
    rw [hlike.kept controlMarker (kept_control _)]
    exact h.marker

theorem Pending.like (h : Pending t₀ t) (hlike : Like used t t') : Pending t₀ t' where
  migration := (hlike.kept _ kept_migration).trans h.migration
  control := by
    rw [hlike.kept _ kept_controlDir, hlike.kept controlMarker (kept_control _)]
    exact h.control.imp_right fun ⟨hcopied, hempty⟩ => ⟨hcopied.like hlike, hempty⟩

/-- The copy is still to be made. -/
structure Waiting (t₀ : Tree) (used : List Nat) (t : Tree) : Prop where
  base : Base t₀ used t
  pending : Pending t₀ t

theorem Waiting.like (h : Waiting t₀ used t) (hlike : Like used t t') : Waiting t₀ used t' :=
  ⟨h.base.like hlike, h.pending.like hlike⟩

theorem Base.born (h : Base t₀ used t) (pid : Nat) : Base t₀ (pid :: used) t where
  legacy := h.legacy
  dirs := h.dirs
  unborn p := by
    rintro ⟨other, hother, hp⟩
    exact h.unborn p ⟨other, fun hmem => hother (List.mem_cons_of_mem _ hmem), hp⟩

theorem Waiting.inv (h : Waiting t₀ used t) (pid : Nat) : Inv leadsToFile t₀ (pid :: used) pid t :=
  fun _ => ⟨h.base.born pid, Or.inl h.pending⟩

/-- The state in which the copy is there and the migration marker is not. -/
structure Placed (t₀ : Tree) (used : List Nat) (pid : Nat) (t : Tree) : Prop where
  base : Base t₀ used t
  copied : Copied t₀ t
  migration : t.get migrationMarker = none
  temp : t.get (controlDir ++ [.temp ownershipName pid]) = none

theorem Placed.like (h : Placed t₀ used pid t) (hlike : Like used t t') :
    Placed t₀ used pid t' where
  base := h.base.like hlike
  copied := h.copied.like hlike
  migration := (hlike.kept _ kept_migration).trans h.migration
  temp := (hlike.kept _ (kept_control _)).trans h.temp

theorem Placed.inv (h : Placed t₀ used pid t) : Inv leadsToFile t₀ (pid :: used) pid t := by
  intro hclean
  refine ⟨h.base.born pid, Or.inl ⟨h.migration, Or.inr ⟨h.copied, fun hempty => ?_⟩⟩⟩
  exact (hclean.marker hempty).resolve_right fun hne => hne h.migration

end Bpc.Migration
