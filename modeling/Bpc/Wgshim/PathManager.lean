/-
  The PATH MANAGER of the transport shim (`internal/wgshim/path.go`): which relay endpoint carries
  the tunnel.

  An index `-1` of the source is an `Option`, and the zero time means "not set".  `FloatLib` is the
  arithmetic; no statement depends on what it computes.  `select_cases`: the selector stays, ROLLS
  BACK or MIGRATES.
-/
import Bpc.Lib.GoTime
import Bpc.Lib.Steps
import Bpc.Routed.Config

namespace Bpc.Wgshim

open Routed (GoString)

/-! ## Data -/

/-- The floating-point operations of the source. -/
structure FloatLib (F : Type) where
  /-- A constant, or an integer converted by `float64`. -/
  const : ℚ → F
  add : F → F → F
  sub : F → F → F
  mul : F → F → F
  div : F → F → F
  /-- `math.Abs`. -/
  abs : F → F
  lt : F → F → Bool
  eq : F → F → Bool

/-- Exact fractions. -/
def ratLib : FloatLib ℚ where
  const q := q
  add := (· + ·)
  sub := (· - ·)
  mul := (· * ·)
  div := (· / ·)
  abs q := |q|
  lt a b := decide (a < b)
  eq a b := decide (a = b)

/-- `PathPolicy`. -/
structure PathPolicy where
  minimumImprovement : Int
  minimumStableDuration : Int
  failurePenalty : Int
  recoveryCooldown : Int
  failureThreshold : Int
  deriving DecidableEq

/-- All fields zero. -/
def PathPolicy.unset : PathPolicy := ⟨0, 0, 0, 0, 0⟩

/-- `defaults`: a value that is not positive is replaced. -/
def PathPolicy.defaults (p : PathPolicy) : PathPolicy :=
  { minimumImprovement :=
      if p.minimumImprovement ≤ 0 then 15 * Time.millisecond else p.minimumImprovement
    minimumStableDuration :=
      if p.minimumStableDuration ≤ 0 then 5 * Time.second else p.minimumStableDuration
    failurePenalty := if p.failurePenalty ≤ 0 then 250 * Time.millisecond else p.failurePenalty
    recoveryCooldown := if p.recoveryCooldown ≤ 0 then 10 * Time.second else p.recoveryCooldown
    failureThreshold := if p.failureThreshold ≤ 0 then 2 else p.failureThreshold }

/-- `pathState`, with the fields that decisions use. -/
structure PathState (F : Type) where
  endpoint : GoString
  reachable : Bool
  rttMS : F
  lossPercent : F
  jitterMS : F
  lastSuccess : Int
  failureCount : Nat
  consecutiveFailures : Int
  lastTraffic : Int
  samples : List Bool
  lastRTT : Int
  failedAt : Int
  recoveredAt : Int

/-- A path that was never probed. -/
def PathState.new {F : Type} (lib : FloatLib F) (endpoint : GoString) : PathState F :=
  { endpoint, reachable := false, rttMS := lib.const 0, lossPercent := lib.const 0,
    jitterMS := lib.const 0, lastSuccess := Time.zero, failureCount := 0,
    consecutiveFailures := 0, lastTraffic := Time.zero, samples := [], lastRTT := 0,
    failedAt := Time.zero, recoveredAt := Time.zero }

/-- `PathManager`. -/
structure PathManager (F : Type) where
  policy : PathPolicy
  paths : List (PathState F)
  active : Nat
  candidate : Option Nat
  candidateSince : Int
  migratingFrom : Option Nat
  migrationStarted : Int

variable {F : Type} (lib : FloatLib F)

/-- `NewPathManager`. -/
def newPathManager (endpoints : List GoString) (policy : PathPolicy) : PathManager F :=
  { policy := policy.defaults, paths := endpoints.map (PathState.new lib), active := 0,
    candidate := none, candidateSince := Time.zero, migratingFrom := none,
    migrationStarted := Time.zero }

/-- `m.paths[i]` for an index in range. -/
def PathManager.path (m : PathManager F) (i : Nat) : PathState F :=
  m.paths.getD i (PathState.new lib [])

/-! ## `Observe` -/

/-- `float64(d)/float64(time.Millisecond)`. -/
def milliseconds (d : Int) : F := lib.div (lib.const d) (lib.const Time.millisecond)

/-- `.75*old + .25*new`. -/
def smooth (old new : F) : F :=
  lib.add (lib.mul (lib.const (3 / 4)) old) (lib.mul (lib.const (1 / 4)) new)

/-- The jitter so far and the previous round-trip time. -/
def jitterStep (s : F × Int) (rtt : Int) : F × Int :=
  (if s.2 ≠ 0 then smooth lib s.1 (lib.abs (milliseconds lib (rtt - s.2))) else s.1, rtt)

/-- The last 32 samples. -/
def lastSamples (samples : List Bool) : List Bool := samples.drop (samples.length - 32)

/-- The body of `Observe`. -/
def observePath (policy : PathPolicy) (sent : Nat) (allReplies : List Int) (now : Int)
    (p : PathState F) : PathState F :=
  let replies := allReplies.take sent
  let samples :=
    lastSamples (p.samples ++ (List.range sent).map fun i => decide (i < replies.length))
  let p := { p with
    samples
    lossPercent := lib.div (lib.mul (lib.const 100) (lib.const (samples.count false)))
      (lib.const samples.length)
    failureCount := (p.failureCount + (sent - replies.length)) % 2 ^ 64 }
  if replies = [] then
    let failures := p.consecutiveFailures + 1
    -- one missed round is not a failure yet: the threshold decides
    if policy.failureThreshold ≤ failures then
      { p with consecutiveFailures := failures, failedAt := now, reachable := false }
    else { p with consecutiveFailures := failures }
  else
    let recovered := !p.reachable && decide (p.failedAt ≠ Time.zero)
    let jitter := replies.foldl (jitterStep lib) (p.jitterMS, p.lastRTT)
    let values := replies.insertionSort (· ≤ ·)
    let rtt := milliseconds lib (values.getD (values.length / 2) 0)
    { p with
      recoveredAt := if recovered then now else p.recoveredAt
      reachable := true
      consecutiveFailures := 0
      lastSuccess := now
      jitterMS := jitter.1
      lastRTT := jitter.2
      rttMS := if lib.eq p.rttMS (lib.const 0) then rtt else smooth lib p.rttMS rtt }

/-- `Observe`. -/
def PathManager.observe (m : PathManager F) (index sent : Int) (replies : List Int) (now : Int) :
    PathManager F :=
  if index < 0 ∨ (m.paths.length : Int) ≤ index ∨ sent ≤ 0 then m
  else { m with
    paths := m.paths.modify index.toNat (observePath lib m.policy sent.toNat replies now) }

/-! ## `Select` -/

/-- `score`. -/
def PathManager.score (m : PathManager F) (p : PathState F) (now : Int) : F :=
  let penalty :=
    if p.failedAt ≠ Time.zero then
      let remaining := lib.sub (lib.const 1)
        (lib.div (lib.const (Time.sub now p.failedAt)) (lib.const m.policy.recoveryCooldown))
      if lib.lt (lib.const 0) remaining then
        lib.div (lib.mul remaining (lib.const m.policy.failurePenalty))
          (lib.const Time.millisecond)
      else lib.const 0
    else lib.const 0
  lib.add (lib.add (lib.add p.rttMS (lib.mul (lib.const 2) p.jitterMS))
    (lib.mul (lib.const 3) p.lossPercent)) penalty

/-- Traffic went out over two seconds ago, nothing was confirmed, and the path it came from
    answers. -/
def PathManager.rollbackDue (m : PathManager F) (now : Int) : Bool :=
  match m.migratingFrom with
  | none => false
  | some old =>
    decide (m.migrationStarted ≠ Time.zero) &&
      decide (2 * Time.second < Time.sub now m.migrationStarted) && (m.path lib old).reachable

/-- The tests that let a path into the comparison. -/
def PathManager.eligible (m : PathManager F) (now : Int) (p : PathState F) : Bool :=
  p.reachable && !decide (0 < p.consecutiveFailures) &&
    !((m.path lib m.active).reachable && decide (p.recoveredAt ≠ Time.zero) &&
      decide (Time.sub now p.recoveredAt < m.policy.recoveryCooldown))

/-- One round of the loop that looks for the best path. -/
def PathManager.better (m : PathManager F) (now : Int) (best : Option Nat) (i : Nat) :
    Option Nat :=
  if m.eligible lib now (m.path lib i) then
    match best with
    | none => some i
    | some b =>
      if lib.lt (m.score lib (m.path lib i) now) (m.score lib (m.path lib b) now) then some i
      else some b
  else best

/-- The path with the lowest score. -/
def PathManager.best (m : PathManager F) (now : Int) : Option Nat :=
  (List.range m.paths.length).foldl (m.better lib now) none

/-- The improvement over the active path is below the minimum. -/
def PathManager.negligible (m : PathManager F) (now : Int) (best : Nat) : Bool :=
  lib.lt (lib.sub (m.score lib (m.path lib m.active) now) (m.score lib (m.path lib best) now))
    (milliseconds lib m.policy.minimumImprovement)

/-- The active path failed; back to the one it replaced. -/
def PathManager.rollback (m : PathManager F) (old : Nat) (now : Int) : PathManager F :=
  { m with
    paths := m.paths.modify m.active fun failed =>
      { failed with
        failedAt := now, reachable := false, failureCount := (failed.failureCount + 1) % 2 ^ 64 }
    active := old
    migratingFrom := none
    candidate := none }

/-- The switch; the path it came from is the ACTIVE one. -/
def PathManager.migrate (m : PathManager F) (best : Nat) : PathManager F :=
  { m with
    migratingFrom := some m.active
    migrationStarted := Time.zero
    active := best
    candidate := none }

/-- `Select`: the index (`none` for `-1`) and whether it changed. -/
def PathManager.select (m : PathManager F) (now : Int) : PathManager F × Option Nat × Bool :=
  if m.paths = [] then (m, none, false)
  else
    match m.rollbackDue lib now, m.migratingFrom with
    | true, some old => (m.rollback old now, some old, true)
    | _, _ =>
      match m.best lib now with
      | none => ({ m with candidate := none }, some m.active, false)
      | some best =>
        if best = m.active then ({ m with candidate := none }, some m.active, false)
        else if (m.path lib m.active).reachable then
          if m.negligible lib now best then ({ m with candidate := none }, some m.active, false)
          else if m.candidate ≠ some best then
            ({ m with candidate := some best, candidateSince := now }, some m.active, false)
          else if Time.sub now m.candidateSince < m.policy.minimumStableDuration then
            (m, some m.active, false)
          else (m.migrate best, some best, true)
        else (m.migrate best, some best, true)

/-! ## The other calls -/

/-- The first path with the endpoint. -/
def PathManager.named (m : PathManager F) (endpoint : GoString) : Option Nat :=
  m.paths.findIdx? fun p => p.endpoint = endpoint

/-- `ConfirmTraffic`. -/
def PathManager.confirmTraffic (m : PathManager F) (endpoint : GoString) (now : Int) :
    PathManager F :=
  match m.named endpoint with
  | none => m
  | some i => { m with
      paths := m.paths.modify i fun p => { p with lastTraffic := now }
      migratingFrom := if i = m.active then none else m.migratingFrom }

/-- `MarkSent`. -/
def PathManager.markSent (m : PathManager F) (index : Int) (now : Int) : PathManager F :=
  if index = m.active ∧ m.migratingFrom.isSome ∧ m.migrationStarted = Time.zero then
    { m with migrationStarted := now }
  else m

/-- `MigrationFallback`. -/
def PathManager.migrationFallback (m : PathManager F) : Option Nat :=
  match m.migratingFrom with
  | none => none
  | some old => if (m.path lib old).reachable then some old else none

/-! ## What `Select` can do -/

/-- There is a best path, it is not the active one, and either the active one is unreachable or the
    best one was the candidate for long enough and improves enough. -/
def PathManager.Migrating (m : PathManager F) (now : Int) : Prop :=
  m.rollbackDue lib now = false ∧ ∃ best, m.best lib now = some best ∧ best ≠ m.active ∧
    ((m.path lib m.active).reachable = true →
      m.negligible lib now best = false ∧ m.candidate = some best ∧
        m.policy.minimumStableDuration ≤ Time.sub now m.candidateSince)

theorem PathManager.exists_of_rollbackDue {m : PathManager F} {now : Int}
    (h : m.rollbackDue lib now = true) :
    ∃ old, m.migratingFrom = some old ∧ m.migrationStarted ≠ Time.zero ∧
      (m.path lib old).reachable = true := by
  unfold rollbackDue at h
  split at h
  · cases h
  · next old hold =>
    simp only [Bool.and_eq_true, decide_eq_true_eq] at h
    exact ⟨old, hold, h.1.1, h.2⟩

/-- **Stay, roll back or migrate.** -/
theorem PathManager.select_cases (m : PathManager F) (now : Int) :
    (∃ c since, (m.select lib now).1 = { m with candidate := c, candidateSince := since } ∧
      (m.select lib now).2.2 = false ∧
      (m.paths = [] ∨ m.rollbackDue lib now = false ∧ ¬m.Migrating lib now)) ∨
    (∃ old, m.migratingFrom = some old ∧ m.rollbackDue lib now = true ∧
      m.select lib now = (m.rollback old now, some old, true)) ∨
    (∃ best, m.Migrating lib now ∧ best ≠ m.active ∧
      m.select lib now = (m.migrate best, some best, true)) := by
  by_cases hempty : m.paths = []
  · refine Or.inl ⟨m.candidate, m.candidateSince, ?_, ?_, Or.inl hempty⟩ <;>
      rw [select, if_pos hempty]
  cases hdue : m.rollbackDue lib now with
  | true =>
    obtain ⟨old, hold, -, -⟩ := exists_of_rollbackDue lib hdue
    refine Or.inr (Or.inl ⟨old, hold, rfl, ?_⟩)
    rw [select, if_neg hempty, hdue, hold]
  | false =>
    -- no rollback: the rest of the call only looks at the best path
    have hselect : m.select lib now =
        match m.best lib now with
        | none => ({ m with candidate := none }, some m.active, false)
        | some best =>
          if best = m.active then ({ m with candidate := none }, some m.active, false)
          else if (m.path lib m.active).reachable then
            if m.negligible lib now best then ({ m with candidate := none }, some m.active, false)
            else if m.candidate ≠ some best then
              ({ m with candidate := some best, candidateSince := now }, some m.active, false)
            else if Time.sub now m.candidateSince < m.policy.minimumStableDuration then
              (m, some m.active, false)
            else (m.migrate best, some best, true)
          else (m.migrate best, some best, true) := by
      rw [select, if_neg hempty, hdue]
    rw [hselect]
    cases hbest : m.best lib now with
    | none =>
      refine Or.inl ⟨none, m.candidateSince, rfl, rfl, Or.inr ⟨rfl, ?_⟩⟩
      rintro ⟨-, best, h, -⟩
      rw [hbest] at h
      cases h
    | some best =>
      have hsame : ∀ b, m.best lib now = some b → b = best := by
        intro b hb
        rw [hbest] at hb
        exact (Option.some.inj hb).symm
      dsimp only
      by_cases hactive : best = m.active
      · rw [if_pos hactive]
        refine Or.inl ⟨none, m.candidateSince, rfl, rfl, Or.inr ⟨rfl, ?_⟩⟩
        rintro ⟨-, b, hb, hne, -⟩
        exact hne (hsame b hb ▸ hactive)
      rw [if_neg hactive]
      by_cases hreach : (m.path lib m.active).reachable = true
      · rw [if_pos hreach]
        by_cases hneg : m.negligible lib now best = true
        · rw [if_pos hneg]
          refine Or.inl ⟨none, m.candidateSince, rfl, rfl, Or.inr ⟨rfl, ?_⟩⟩
          rintro ⟨-, b, hb, -, hgo⟩
          rw [hsame b hb, hneg] at hgo
          cases (hgo hreach).1
        rw [if_neg hneg]
        by_cases hcand : m.candidate = some best
        · rw [if_neg (not_not.mpr hcand)]
          by_cases hstable : Time.sub now m.candidateSince < m.policy.minimumStableDuration
          · rw [if_pos hstable]
            refine Or.inl ⟨m.candidate, m.candidateSince, rfl, rfl, Or.inr ⟨rfl, ?_⟩⟩
            rintro ⟨-, b, -, -, hgo⟩
            have := (hgo hreach).2.2
            omega
          · rw [if_neg hstable]
            refine Or.inr (Or.inr ⟨best, ⟨hdue, best, hbest, hactive, fun _ => ?_⟩,
              hactive, rfl⟩)
            exact ⟨Bool.eq_false_iff.mpr hneg, hcand, by omega⟩
        · rw [if_pos hcand]
          refine Or.inl ⟨some best, now, rfl, rfl, Or.inr ⟨rfl, ?_⟩⟩
          rintro ⟨-, b, hb, -, hgo⟩
          exact hcand (hsame b hb ▸ (hgo hreach).2.1)
      · rw [if_neg hreach]
        exact Or.inr (Or.inr ⟨best, ⟨hdue, best, hbest, hactive,
          fun h => absurd h hreach⟩, hactive, rfl⟩)

end Bpc.Wgshim
