/-
  The FALLBACK of a migration — does the last path that worked stay within reach?

  1. **The gap** — `Select` records the ACTIVE path as the one it came from, also when that one is
     itself unconfirmed (`second_switch_loses_fallback`).
  2. **What holds** — if `Select` never migrates while a migration is pending, the last working
     path IS the fallback (`last_working_path_kept`); `Watched` follows the calls, `Tracks` is the
     invariant.
  3. **Always** — `Select` never picks a path that is not reachable (`select_sound`).
-/
import Bpc.Wgshim.PathManager

namespace Bpc.Wgshim

open Routed (GoString)

variable {F : Type} (lib : FloatLib F)

/-! ## Calls, and what an observer makes of them -/

/-- A call of the manager. -/
inductive Call where
  | observe (index sent : Int) (replies : List Int) (now : Int)
  | select (now : Int)
  | markSent (index now : Int)
  | confirmTraffic (endpoint : GoString) (now : Int)
  deriving DecidableEq

/-- The time of a call. -/
def Call.now : Call → Int
  | .observe _ _ _ now => now
  | .select now => now
  | .markSent _ now => now
  | .confirmTraffic _ now => now

/-- A manager and what can be said of its past. -/
structure Watched (F : Type) where
  manager : PathManager F
  /-- The last working path. -/
  working : Nat
  /-- The active path was switched to, and has not been confirmed since. -/
  unconfirmed : Bool
  /-- The first `MarkSent` on the unconfirmed active path. -/
  firstSent : Option Int

/-- A new manager: the initial path counts as working. -/
def watch (endpoints : List GoString) (policy : PathPolicy) : Watched F :=
  { manager := newPathManager lib endpoints policy, working := 0, unconfirmed := false,
    firstSent := none }

/-- One call. -/
def Watched.step (w : Watched F) : Call → Watched F
  | .observe index sent replies now =>
    { w with manager := w.manager.observe lib index sent replies now }
  | .select now =>
    let result := w.manager.select lib now
    if result.2.2 = false then { w with manager := result.1 }
    else if w.manager.rollbackDue lib now then
      { manager := result.1, working := result.1.active, unconfirmed := false,
        firstSent := none }
    else { manager := result.1, working := w.working, unconfirmed := true, firstSent := none }
  | .markSent index now =>
    { w with
      manager := w.manager.markSent index now
      firstSent :=
        if index = w.manager.active ∧ w.unconfirmed = true ∧ w.firstSent = none then some now
        else w.firstSent }
  | .confirmTraffic endpoint now =>
    if w.manager.named endpoint = some w.manager.active then
      { manager := w.manager.confirmTraffic endpoint now, working := w.manager.active,
        unconfirmed := false, firstSent := none }
    else { w with manager := w.manager.confirmTraffic endpoint now }

/-- **The last working path is within reach**: while the active path is unconfirmed and the last
    working one is reachable, it is the fallback, and a `Select` more than two seconds after the
    first `MarkSent` returns to it. -/
def Watched.FallbackKept (w : Watched F) : Prop :=
  w.unconfirmed = true → (w.manager.path lib w.working).reachable = true →
    w.manager.migrationFallback lib = some w.working ∧
    ∀ now sent, w.firstSent = some sent → 2 * Time.second < now - sent →
      (w.manager.select lib now).2 = (some w.working, true) ∧
        (w.manager.select lib now).1.active = w.working

/-- No migration starts while one is pending; no traffic at the zero time. -/
def Watched.Orderly (w : Watched F) : Call → Prop
  | .select now => w.manager.migratingFrom.isSome → ¬w.manager.Migrating lib now
  | .markSent _ now => now ≠ Time.zero
  | _ => True

/-! ## The invariant -/

/-- The manager's record says what the observer says. -/
structure Watched.Tracks (w : Watched F) : Prop where
  settled : w.unconfirmed = false → w.manager.migratingFrom = none ∧ w.working = w.manager.active
  pending : w.unconfirmed = true → w.manager.migratingFrom = some w.working
  unsent : w.unconfirmed = true → w.firstSent = none → w.manager.migrationStarted = Time.zero
  sent : ∀ t, w.unconfirmed = true → w.firstSent = some t →
    w.manager.migrationStarted = t ∧ t ≠ Time.zero

variable {lib}

/-- A call that leaves the migration alone keeps the invariant. -/
theorem Watched.Tracks.of_same {w : Watched F} (h : w.Tracks) {m : PathManager F}
    (hfrom : m.migratingFrom = w.manager.migratingFrom) (hactive : m.active = w.manager.active)
    (hstarted : m.migrationStarted = w.manager.migrationStarted) :
    ({ w with manager := m } : Watched F).Tracks where
  settled hu := ⟨hfrom.trans (h.settled hu).1, (h.settled hu).2.trans hactive.symm⟩
  pending hu := hfrom.trans (h.pending hu)
  unsent hu hn := hstarted.trans (h.unsent hu hn)
  sent t hu ht := ⟨hstarted.trans (h.sent t hu ht).1, (h.sent t hu ht).2⟩

theorem Watched.Tracks.of_settled {m : PathManager F} (hfrom : m.migratingFrom = none) :
    ({ manager := m, working := m.active, unconfirmed := false, firstSent := none } :
      Watched F).Tracks where
  settled _ := ⟨hfrom, rfl⟩
  pending h := by cases h
  unsent h := by cases h
  sent _ h := by cases h

theorem watch_tracks (endpoints : List GoString) (policy : PathPolicy) :
    (watch lib endpoints policy).Tracks :=
  Watched.Tracks.of_settled rfl

theorem Watched.Tracks.select {w : Watched F} (h : w.Tracks) {now : Int}
    (hok : w.manager.migratingFrom.isSome → ¬w.manager.Migrating lib now) :
    (w.step lib (.select now)).Tracks := by
  unfold step
  dsimp only
  rcases w.manager.select_cases lib now with
    ⟨c, since, hstate, hchanged, -⟩ | ⟨old, -, hdue, hselect⟩ | ⟨best, hmig, -, hselect⟩
  · rw [if_pos hchanged, hstate]
    exact h.of_same rfl rfl rfl
  · rw [hselect, if_neg (by simp), if_pos hdue]
    exact Tracks.of_settled rfl
  · rw [hselect, if_neg (by simp), if_neg (by simp [hmig.1])]
    -- a migration starts from a settled path only, and that path is the last working one
    have hsettled : w.unconfirmed = false := by
      rw [← Bool.not_eq_true]
      intro hu
      exact hok (by rw [h.pending hu]; rfl) hmig
    refine ⟨fun hu => Bool.noConfusion hu, fun _ => ?_, fun _ _ => rfl, fun t _ ht => ?_⟩
    · show some w.manager.active = some w.working
      rw [(h.settled hsettled).2]
    · cases ht

theorem Watched.Tracks.markSent {w : Watched F} (h : w.Tracks) {index now : Int}
    (hnow : now ≠ Time.zero) : (w.step lib (.markSent index now)).Tracks := by
  -- the deadline starts in both records or in neither
  by_cases hfirst : index = w.manager.active ∧ w.unconfirmed = true ∧ w.firstSent = none
  · obtain ⟨hindex, hu, hnone⟩ := hfirst
    have hstart : w.manager.markSent index now = { w.manager with migrationStarted := now } := by
      rw [PathManager.markSent, if_pos ⟨hindex, by rw [h.pending hu]; rfl, h.unsent hu hnone⟩]
    have hwatch : (w.step lib (.markSent index now)).firstSent = some now :=
      if_pos ⟨hindex, hu, hnone⟩
    refine ⟨fun hs => Bool.noConfusion (hs.symm.trans hu), fun _ => ?_, fun _ hn => ?_,
      fun t _ ht => ?_⟩
    · show (w.manager.markSent index now).migratingFrom = _
      rw [hstart]
      exact h.pending hu
    · rw [hwatch] at hn
      cases hn
    · rw [hwatch] at ht
      obtain rfl := Option.some.inj ht
      refine ⟨?_, hnow⟩
      show (w.manager.markSent index now).migrationStarted = now
      rw [hstart]
  · have hsame : w.manager.markSent index now = w.manager := by
      rw [PathManager.markSent, if_neg]
      rintro ⟨hindex, hsome, hzero⟩
      have hu : w.unconfirmed = true := by
        rw [← Bool.not_eq_false]
        intro hs
        rw [(h.settled hs).1] at hsome
        cases hsome
      cases hfs : w.firstSent with
      | none => exact hfirst ⟨hindex, hu, hfs⟩
      | some t =>
        obtain ⟨hst, hne⟩ := h.sent t hu hfs
        exact hne (hst ▸ hzero)
    have hstep : w.step lib (.markSent index now) = { w with manager := w.manager } := by
      show ({ w with manager := _, firstSent := _ } : Watched F) = _
      rw [hsame, if_neg hfirst]
    rw [hstep]
    exact h.of_same rfl rfl rfl

theorem Watched.Tracks.confirmTraffic {w : Watched F} (h : w.Tracks) (endpoint : GoString)
    (now : Int) : (w.step lib (.confirmTraffic endpoint now)).Tracks := by
  unfold step PathManager.confirmTraffic
  dsimp only
  split
  · next hnamed =>
    rw [hnamed]
    dsimp only
    rw [if_pos rfl]
    exact Tracks.of_settled rfl
  · next hnamed =>
    split
    · exact h.of_same rfl rfl rfl
    · next i hi =>
      have hne : i ≠ w.manager.active := fun he => hnamed (he ▸ hi)
      rw [if_neg hne]
      exact h.of_same rfl rfl rfl

/-- **One call keeps the two records in step.** -/
theorem Watched.Tracks.step {w : Watched F} (h : w.Tracks) {call : Call}
    (hok : w.Orderly lib call) : (w.step lib call).Tracks := by
  cases call with
  | observe index sent replies now =>
    show ({ w with manager := w.manager.observe lib index sent replies now } : Watched F).Tracks
    unfold PathManager.observe
    split <;> exact h.of_same rfl rfl rfl
  | select now => exact h.select hok
  | markSent index now => exact h.markSent hok
  | confirmTraffic endpoint now => exact h.confirmTraffic endpoint now

theorem Watched.Tracks.fallbackKept {w : Watched F} (h : w.Tracks) : w.FallbackKept lib := by
  intro hu hreach
  have hfrom := h.pending hu
  refine ⟨?_, fun now sent hsent hlate => ?_⟩
  · rw [PathManager.migrationFallback, hfrom]
    dsimp only
    rw [if_pos hreach]
  · obtain ⟨hstarted, hne⟩ := h.sent sent hu hsent
    have hdue : w.manager.rollbackDue lib now = true := by
      have hsub : 2 * Time.second < Time.sub now sent := Time.lt_sub (by decide) hlate
      simp [PathManager.rollbackDue, hfrom, hstarted, hne, hsub, hreach]
    rcases w.manager.select_cases lib now with
      ⟨c, since, -, -, hempty | ⟨hnot, -⟩⟩ | ⟨old, hold, -, hselect⟩ | ⟨best, hmig, -, -⟩
    · rw [PathManager.path, hempty] at hreach
      cases hreach
    · rw [hnot] at hdue
      cases hdue
    · obtain rfl : w.working = old := Option.some.inj (hfrom.symm.trans hold)
      rw [hselect]
      exact ⟨rfl, rfl⟩
    · rw [hmig.1] at hdue
      cases hdue

/-- **The last working path is the fallback in every state reached.** -/
theorem last_working_path_kept (lib : FloatLib F) (endpoints : List GoString)
    (policy : PathPolicy) (calls : List Call)
    (h : Guarded (Watched.step lib) (Watched.Orderly lib) (watch lib endpoints policy) calls) :
    (calls.foldl (Watched.step lib) (watch lib endpoints policy)).FallbackKept lib :=
  (Guarded.invariant (fun _ _ hw hok => Watched.Tracks.step hw hok) calls h
    (watch_tracks endpoints policy)).fallbackKept

/-! ## Three paths, one switch and a second one -/

/-- Three endpoints. -/
def threePaths : Watched ℚ := watch ratLib [[97], [98], [99]] PathPolicy.unset

/-- The instant `s` seconds into the run. -/
def instant (s : Int) : Int := Time.ofUnix (1700000000 + s)

/-- The second path turns out faster than the first, and is taken up. -/
def switchOnce : List Call :=
  [.observe 0 1 [100 * Time.millisecond] (instant 0),
    .observe 1 1 [50 * Time.millisecond] (instant 0), .select (instant 0), .select (instant 6),
    .markSent 1 (instant 6)]

/-- Before anything is confirmed the third path is faster still. -/
def switchTwice : List Call :=
  [.observe 0 1 [100 * Time.millisecond] (instant 0),
    .observe 1 1 [50 * Time.millisecond] (instant 0), .select (instant 0), .select (instant 6),
    .observe 2 1 [10 * Time.millisecond] (instant 7), .select (instant 7), .select (instant 12),
    .markSent 2 (instant 12)]

/-- After one switch the first path is the fallback of the second. -/
theorem last_working_path_kept_switchOnce :
    (switchOnce.foldl (Watched.step ratLib) threePaths).unconfirmed = true ∧
    (switchOnce.foldl (Watched.step ratLib) threePaths).working = 0 ∧
    ((switchOnce.foldl (Watched.step ratLib) threePaths).manager.path ratLib 0).reachable = true ∧
    (switchOnce.foldl (Watched.step ratLib) threePaths).FallbackKept ratLib := by
  refine ⟨by decide +kernel, by decide +kernel, by decide +kernel, ?_⟩
  refine last_working_path_kept ratLib [[97], [98], [99]] PathPolicy.unset switchOnce
    ⟨trivial, trivial, fun h => ?_, fun h => ?_, ?_, trivial⟩
  · exact absurd h (by decide +kernel)
  · exact absurd h (by decide +kernel)
  · show instant 6 ≠ Time.zero
    decide

/-- **A second switch loses the fallback** to a path that was never confirmed. -/
theorem second_switch_loses_fallback :
    (switchTwice.map Call.now).Pairwise (· ≤ ·) ∧
    (switchTwice.foldl (Watched.step ratLib) threePaths).unconfirmed = true ∧
    (switchTwice.foldl (Watched.step ratLib) threePaths).working = 0 ∧
    ((switchTwice.foldl (Watched.step ratLib) threePaths).manager.path ratLib 0).reachable = true ∧
    (switchTwice.foldl (Watched.step ratLib) threePaths).manager.migrationFallback ratLib =
      some 1 ∧
    ((switchTwice.foldl (Watched.step ratLib) threePaths).manager.select ratLib
      (instant 15)).2 = (some 1, true) ∧
    ¬(switchTwice.foldl (Watched.step ratLib) threePaths).FallbackKept ratLib := by
  refine ⟨by decide +kernel, by decide +kernel, by decide +kernel, by decide +kernel,
    by decide +kernel, by decide +kernel, fun h => ?_⟩
  exact absurd (h (by decide +kernel) (by decide +kernel)).1 (by decide +kernel)

/-! ## Every switch leads to a reachable path -/

/-- Indexes are those of paths; a migration leads away from its source. -/
structure PathManager.InRange (m : PathManager F) : Prop where
  active : m.active < m.paths.length
  source : ∀ old, m.migratingFrom = some old → old < m.paths.length ∧ old ≠ m.active

theorem PathManager.better_some {m : PathManager F} {now : Int} {best : Option Nat} {i b : Nat}
    (h : m.better lib now best i = some b) :
    (b = i ∧ (m.path lib i).reachable = true) ∨ best = some b := by
  unfold better at h
  split at h
  · next heligible =>
    have hreach : (m.path lib i).reachable = true := by
      unfold eligible at heligible
      simp only [Bool.and_eq_true] at heligible
      exact heligible.1.1
    split at h
    · exact Or.inl ⟨(Option.some.inj h).symm, hreach⟩
    · split at h
      · exact Or.inl ⟨(Option.some.inj h).symm, hreach⟩
      · exact Or.inr h
  · exact Or.inr h

theorem PathManager.best_reachable {m : PathManager F} {now : Int} {b : Nat}
    (h : m.best lib now = some b) : b < m.paths.length ∧ (m.path lib b).reachable = true := by
  have hrun : ∀ (l : List Nat) (best : Option Nat), l.foldl (m.better lib now) best = some b →
      (b ∈ l ∧ (m.path lib b).reachable = true) ∨ best = some b := by
    intro l
    induction l with
    | nil => exact fun _ h => Or.inr h
    | cons i l ih =>
      intro best h
      rcases ih _ h with ⟨hmem, hreach⟩ | hstep
      · exact Or.inl ⟨List.mem_cons_of_mem _ hmem, hreach⟩
      · rcases better_some hstep with ⟨rfl, hreach⟩ | hbest
        · exact Or.inl ⟨List.mem_cons_self, hreach⟩
        · exact Or.inr hbest
  rcases hrun _ _ h with ⟨hmem, hreach⟩ | hnone
  · exact ⟨List.mem_range.mp hmem, hreach⟩
  · cases hnone

/-- What a call of `Select` on a manager makes of the active path. -/
structure PathManager.Selects (lib : FloatLib F) (m : PathManager F) (now : Int) : Prop where
  index : (m.select lib now).2.1 = some (m.select lib now).1.active
  changed : (m.select lib now).2.2 = true ↔ (m.select lib now).1.active ≠ m.active
  reachable : (m.select lib now).1.active ≠ m.active →
    (m.path lib (m.select lib now).1.active).reachable = true
  inRange : (m.select lib now).1.InRange

theorem PathManager.InRange.selects {m : PathManager F} (h : m.InRange) (now : Int) :
    m.Selects lib now := by
  have hne : m.paths ≠ [] := List.ne_nil_of_length_pos (Nat.zero_lt_of_lt h.active)
  have hindex : (m.select lib now).2.1 = some (m.select lib now).1.active := by
    unfold select
    rw [if_neg hne]
    repeat' split
    all_goals rfl
  rcases m.select_cases lib now with
    ⟨c, since, hstate, hchanged, -⟩ | ⟨old, hold, hdue, hselect⟩ | ⟨best, hmig, hother, hselect⟩
  · refine ⟨hindex, ?_, fun hmoved => ?_, ?_⟩
    · rw [hchanged, hstate]
      simp
    · rw [hstate] at hmoved
      exact absurd rfl hmoved
    · rw [hstate]
      exact ⟨h.active, h.source⟩
  · obtain ⟨old', hold', -, hreach⟩ := exists_of_rollbackDue lib hdue
    obtain rfl := Option.some.inj (hold.symm.trans hold')
    obtain ⟨hlt, hmoved⟩ := h.source old hold
    refine ⟨hindex, ?_, fun _ => ?_, ?_⟩ <;> rw [hselect]
    · exact ⟨fun _ => hmoved, fun _ => rfl⟩
    · exact hreach
    · refine ⟨?_, fun _ hnone => (by cases hnone)⟩
      show old < (m.paths.modify _ _).length
      rwa [List.length_modify]
  · -- the path that is taken up is the best one
    obtain ⟨hdue, best', hbest, hother', -⟩ := hmig
    have hsame : best' = best := by
      rw [select, if_neg hne, hdue, hbest] at hselect
      simp only [if_neg hother'] at hselect
      repeat' split at hselect
      all_goals simp_all
    obtain ⟨hlt, hreach⟩ := best_reachable (hsame ▸ hbest)
    refine ⟨hindex, ?_, fun _ => ?_, ?_⟩ <;> rw [hselect]
    · exact ⟨fun _ => hother, fun _ => rfl⟩
    · exact hreach
    · refine ⟨hlt, fun old hold => ?_⟩
      obtain rfl := Option.some.inj hold
      exact ⟨h.active, hother.symm⟩

theorem Watched.inRange_step {w : Watched F} (h : w.manager.InRange) (call : Call) :
    (w.step lib call).manager.InRange := by
  cases call with
  | observe index sent replies now =>
    show (w.manager.observe lib index sent replies now).InRange
    unfold PathManager.observe
    split
    · exact h
    · refine ⟨?_, fun old hold => ?_⟩ <;> dsimp only <;> rw [List.length_modify]
      · exact h.active
      · exact h.source old hold
  | select now =>
    have hmanager : (w.step lib (.select now)).manager = (w.manager.select lib now).1 := by
      simp only [step]
      repeat' split
      all_goals rfl
    rw [hmanager]
    exact (h.selects now).inRange
  | markSent index now =>
    show (w.manager.markSent index now).InRange
    unfold PathManager.markSent
    split
    · exact ⟨h.active, h.source⟩
    · exact h
  | confirmTraffic endpoint now =>
    have hmanager : (w.step lib (.confirmTraffic endpoint now)).manager =
        w.manager.confirmTraffic endpoint now := by
      simp only [step]
      split <;> rfl
    rw [hmanager]
    unfold PathManager.confirmTraffic
    split
    · exact h
    · refine ⟨?_, fun old hold => ?_⟩ <;> dsimp only <;> rw [List.length_modify]
      · exact h.active
      · split at hold
        · cases hold
        · exact h.source old hold

/-- **`Select` only ever switches to a reachable path**: it returns the index of a path, reports a
    change exactly when it leaves the active path, and leaves it only for a path that is reachable.
    -/
theorem select_sound (lib : FloatLib F) {endpoints : List GoString} (hne : endpoints ≠ [])
    (policy : PathPolicy) (calls : List Call) (now : Int) :
    (calls.foldl (Watched.step lib) (watch lib endpoints policy)).manager.Selects lib now := by
  have hstart : (watch lib endpoints policy).manager.InRange := by
    refine ⟨?_, fun _ hnone => (by cases hnone)⟩
    show 0 < (endpoints.map _).length
    rw [List.length_map]
    exact List.length_pos_of_ne_nil hne
  have hrun : (calls.foldl (Watched.step lib) (watch lib endpoints policy)).manager.InRange :=
    List.foldlRecOn (motive := fun w : Watched F => w.manager.InRange) calls _ hstart
      fun _ hw call _ => Watched.inRange_step hw call
  exact hrun.selects now

/-- After the second switch the rollback leads to the second path. -/
theorem select_sound_switchTwice :
    ((switchTwice.foldl (Watched.step ratLib) threePaths).manager.select ratLib
      (instant 15)).2.1 = some 1 ∧
    (switchTwice.foldl (Watched.step ratLib) threePaths).manager.Selects ratLib (instant 15) :=
  ⟨by decide +kernel, select_sound ratLib (by decide) PathPolicy.unset switchTwice (instant 15)⟩

end Bpc.Wgshim
