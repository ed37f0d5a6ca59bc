/-
  REPLAY — process starts, crashes and re-delivery of the Raft log.

  The watermark keeps an entry from being applied twice, but a REJECTED entry leaves none, so above
  it entries are executed again.  That does no harm: above the watermark the reference run stands
  still (`applyUpTo_eq_of_watermark`), and an entry does not look at the watermark
  (`applyLog_agree`). `ReplayInv` follows both through a run.
-/
import Bpc.Controlplane.Snapshot

namespace Bpc.Controlplane

open SlashPath Relation

variable {Payload Data B : Type}

/-! ## The reference run -/

/-- Entries `1..n`, applied once to an empty database. -/
def applyUpTo (C : Codec Payload Data) (log : List Payload) : Nat → Store Data
  | 0 => Store.empty
  | n + 1 =>
    match log[n]? with
    | some payload => (applyLog C (applyUpTo C log n) (n + 1) payload).1
    | none => applyUpTo C log n

/-! ## Runs with crashes -/

/-- One data directory together with the current process. -/
structure ReplayState (Data : Type) where
  machine : Machine Data
  /-- The last entry that the process was given, by delivery or by a snapshot. -/
  position : Option Nat
  /-- The highest entry delivered so far in the whole run. -/
  high : Nat
  /-- A `Restore` has happened in the run. -/
  restored : Bool

/-- An empty data directory before its first start. -/
def ReplayState.initial (root : Str) : ReplayState Data where
  machine := Machine.fresh root
  position := none
  high := 0
  restored := false

/-- `raw` is a snapshot with the content of entries `1..n`. -/
def SnapshotAt (C : Codec Payload Data) (J : SnapshotJson Data B) (log : List Payload) (n : Nat)
    (raw : List B) : Prop :=
  n ≤ log.length ∧ ∃ envelope, decodeSnapshot C J raw = .ok envelope ∧
    envelope.entries = (applyUpTo C log n).canonical ∧
    envelope.revision = (applyUpTo C log n).revision

/-- The current process is handed entry `n`, its next one. -/
structure Delivers (C : Codec Payload Data) (log : List Payload) (s : ReplayState Data) (n : Nat)
    (s' : ReplayState Data) : Prop where
  next : ∃ k, s.position = some k ∧ n = k + 1
  entry : ∃ payload, log[n - 1]? = some payload ∧ s'.machine = (apply C s.machine n payload).1
  position : s'.position = some n
  high : s'.high = max s.high n
  restored : s'.restored = s.restored

/-- One step of a run. -/
inductive ReplayStep (C : Codec Payload Data) (J : SnapshotJson Data B) (log : List Payload) :
    ReplayState Data → ReplayState Data → Prop
  /-- A process starts; after a `Restore` it has to begin with one. -/
  | start {s : ReplayState Data} (hasSnapshots : Bool) (store : Store Data) (tree : Tree Data)
      (hprepare : prepareReplay s.machine.store hasSnapshots = .ok store) :
      ReplayStep C J log s
        { s with
            machine := { s.machine with store := store, tree := tree }
            position := if s.restored then none else some 0 }
  /-- A `Restore` of the state at entry `n`; entry `n + 1` comes next. -/
  | restore {s : ReplayState Data} (range : MapRange Str Data) (raw : List B) (n : Nat)
      (machine : Machine Data) (hsnapshot : SnapshotAt C J log n raw)
      (hrestore : Controlplane.restore C J range s.machine raw = (machine, none)) :
      ReplayStep C J log s { s with machine := machine, position := some n, restored := true }
  | deliver {s s' : ReplayState Data} (n : Nat) (h : Delivers C log s n s') :
      ReplayStep C J log s s'

/-! ## What one entry does -/

variable {C : Codec Payload Data} {index : Nat} {payload : Payload}

theorem applyLog_of_le {store : Store Data} (hpos : index ≠ 0) (hle : index ≤ store.appliedIndex) :
    (applyLog C store index payload).1 = store := by
  rcases applyLog_cases C store index payload with h | ⟨e, -, hfresh⟩ | ⟨ops, store', -, hc⟩
  · exact h
  · omega
  · have hfresh := hc.fresh
    omega

theorem applyLog_mark (C : Codec Payload Data) (store : Store Data) (payload : Payload)
    (hpos : index ≠ 0) :
    (applyLog C store index payload).1 = store ∨
      (applyLog C store index payload).1.appliedIndex = index := by
  have hmark : watermark store index = index := if_neg hpos
  rcases applyLog_cases C store index payload with h | ⟨e, h, -⟩ | ⟨ops, store', h, hc⟩
  · exact Or.inl h
  · rw [h]
    exact Or.inr hmark
  · rw [h]
    exact Or.inr (hc.applied.trans hmark)

/-- **Above the watermark only the content counts.** -/
theorem applyLog_agree (C : Codec Payload Data) {s t : Store Data} (payload : Payload)
    (hcontent : s.toContent = t.toContent) (hs : s.appliedIndex < index)
    (ht : t.appliedIndex < index) :
    (applyLog C s index payload).2 = (applyLog C t index payload).2 ∧
    (applyLog C s index payload).1.toContent = (applyLog C t index payload).1.toContent ∧
    (((applyLog C s index payload).1.appliedIndex = index ∧
        (applyLog C t index payload).1.appliedIndex = index) ∨
      ((applyLog C s index payload).1 = s ∧ (applyLog C t index payload).1 = t)) := by
  have hpos : index ≠ 0 := by omega
  unfold applyLog
  cases decodeCommand C payload with
  | error e => exact ⟨rfl, hcontent, Or.inr ⟨rfl, rfl⟩⟩
  | ok decoded =>
    obtain ⟨command, ops⟩ := decoded
    have hs' : ¬ (index ≠ 0 ∧ index ≤ s.appliedIndex) := by omega
    have ht' : ¬ (index ≠ 0 ∧ index ≤ t.appliedIndex) := by omega
    have hms : watermark s index = index := if_neg hpos
    have hmt : watermark t index = index := if_neg hpos
    show (applyCommand C s index command ops).2 = (applyCommand C t index command ops).2 ∧ _
    unfold applyCommand
    simp only [if_neg hs', if_neg ht', hcontent]
    cases execute C t.toContent command ops with
    | failed e => exact ⟨rfl, hcontent, Or.inr ⟨rfl, rfl⟩⟩
    | conflict e => exact ⟨rfl, rfl, Or.inl ⟨hms, hmt⟩⟩
    | committed content => exact ⟨rfl, rfl, Or.inl ⟨hms, hmt⟩⟩

/-! ## What the reference run looks like above its watermark -/

variable {log : List Payload} {n : Nat}

theorem applyUpTo_succ (h : log[n]? = some payload) :
    applyUpTo C log (n + 1) = (applyLog C (applyUpTo C log n) (n + 1) payload).1 := by
  rw [applyUpTo, h]

theorem appliedIndex_applyUpTo_le (C : Codec Payload Data) (log : List Payload) (n : Nat) :
    (applyUpTo C log n).appliedIndex ≤ n := by
  induction n with
  | zero => exact Nat.le_refl 0
  | succ n ih =>
    rw [applyUpTo]
    cases log[n]? with
    | none =>
      show (applyUpTo C log n).appliedIndex ≤ n + 1
      omega
    | some payload =>
      rcases applyLog_mark C (applyUpTo C log n) payload (by omega : n + 1 ≠ 0) with h | h
      · show (applyLog C (applyUpTo C log n) (n + 1) payload).1.appliedIndex ≤ n + 1
        rw [h]
        omega
      · exact Nat.le_of_eq h

/-- **Nothing has happened above the watermark.** -/
theorem applyUpTo_eq_of_watermark (C : Codec Payload Data) (log : List Payload) {j : Nat}
    (hmark : (applyUpTo C log n).appliedIndex ≤ j) (hj : j ≤ n) :
    applyUpTo C log n = applyUpTo C log j := by
  induction n with
  | zero =>
    obtain rfl : j = 0 := by omega
    rfl
  | succ n ih =>
    by_cases hjn : j = n + 1
    · rw [hjn]
    · have hjn' : j ≤ n := by omega
      have hsame : applyUpTo C log (n + 1) = applyUpTo C log n := by
        rw [applyUpTo] at hmark ⊢
        cases hentry : log[n]? with
        | none => rfl
        | some payload =>
          rw [hentry] at hmark
          rcases applyLog_mark C (applyUpTo C log n) payload (by omega : n + 1 ≠ 0) with h | h
          · exact h
          · have hmark' : (applyLog C (applyUpTo C log n) (n + 1) payload).1.appliedIndex ≤ j :=
              hmark
            omega
      rw [hsame] at hmark ⊢
      exact ih hmark hjn'

/-! ## The invariant of a run -/

/-- Before any `Restore` the database is the reference state at the highest entry, afterwards at
    the process's own position. -/
structure ReplayInv (C : Codec Payload Data) (log : List Payload) (s : ReplayState Data) :
    Prop where
  position_le : s.restored = false → ∀ k, s.position = some k → k ≤ s.high
  content : s.restored = false →
    s.machine.store.toContent = (applyUpTo C log s.high).toContent
  applied : s.restored = false →
    s.machine.store.appliedIndex = (applyUpTo C log s.high).appliedIndex
  restored_content : s.restored = true → ∀ k, s.position = some k →
    s.machine.store.toContent = (applyUpTo C log k).toContent
  restored_applied : s.restored = true → ∀ k, s.position = some k →
    s.machine.store.appliedIndex ≤ k

theorem replayInv_initial (C : Codec Payload Data) (log : List Payload) (root : Str) :
    ReplayInv C log (ReplayState.initial root : ReplayState Data) where
  position_le := by
    intro _ k hk
    cases hk
  content := fun _ => rfl
  applied := fun _ => rfl
  restored_content := by
    intro h
    cases h
  restored_applied := by
    intro h
    cases h

theorem prepareReplay_eq {store store' : Store Data} {hasSnapshots : Bool}
    (h : prepareReplay store hasSnapshots = .ok store') :
    store'.toContent = store.toContent ∧ store'.appliedIndex = store.appliedIndex ∧
      store'.revisionFloor = max store.revisionFloor store.revision := by
  unfold prepareReplay at h
  split at h
  · cases h
  · cases h
    exact ⟨rfl, rfl, rfl⟩

theorem prepareReplay_of_snapshots (store : Store Data) :
    prepareReplay store true =
      .ok { store with revisionFloor := max store.revisionFloor store.revision } := by
  unfold prepareReplay
  rw [if_neg]
  rintro ⟨-, -, h⟩
  cases h

/-- **A re-delivered entry changes nothing.** -/
theorem redelivery_noop {store : Store Data} {high k : Nat}
    (hcontent : store.toContent = (applyUpTo C log high).toContent)
    (happlied : store.appliedIndex = (applyUpTo C log high).appliedIndex) (hk : k + 1 ≤ high)
    (hentry : log[k]? = some payload) :
    (applyLog C store (k + 1) payload).1.toContent = store.toContent ∧
      (applyLog C store (k + 1) payload).1.appliedIndex = store.appliedIndex := by
  by_cases hle : k + 1 ≤ store.appliedIndex
  · rw [applyLog_of_le (Nat.succ_ne_zero k) hle]
    exact ⟨rfl, rfl⟩
  · -- the reference state has been the same since before the entry
    have hbefore : applyUpTo C log high = applyUpTo C log k :=
      applyUpTo_eq_of_watermark C log (by omega) (by omega)
    have hafter : applyUpTo C log high = applyUpTo C log (k + 1) :=
      applyUpTo_eq_of_watermark C log (by omega) hk
    have hmark := appliedIndex_applyUpTo_le C log k
    obtain ⟨-, hsame, hmarks⟩ := applyLog_agree C (t := applyUpTo C log k) payload
      (hcontent.trans (congrArg Store.toContent hbefore)) (by omega : store.appliedIndex < k + 1)
      (by omega)
    rw [← applyUpTo_succ hentry, ← hafter, ← hcontent] at hsame
    refine ⟨hsame, ?_⟩
    rcases hmarks with ⟨-, hmark'⟩ | ⟨hstore, -⟩
    · rw [← applyUpTo_succ hentry, ← hafter] at hmark'
      omega
    · rw [hstore]

/-! ## Steps and runs -/

section Steps

variable {C : Codec Payload Data} {J : SnapshotJson Data B} {log : List Payload}
  {s s' : ReplayState Data}

theorem Delivers.store (h : Delivers C log s n s') :
    ∃ k payload, s.position = some k ∧ n = k + 1 ∧ log[k]? = some payload ∧
      s'.machine.store = (applyLog C s.machine.store (k + 1) payload).1 := by
  obtain ⟨k, hk, rfl⟩ := h.next
  obtain ⟨payload, hentry, hmachine⟩ := h.entry
  refine ⟨k, payload, hk, rfl, hentry, ?_⟩
  rw [hmachine, apply_store]

theorem ReplayInv.deliver_fresh (hinv : ReplayInv C log s) (h : Delivers C log s n s')
    (hfresh : s.restored = false) :
    s'.machine.store.toContent = (applyUpTo C log (max s.high n)).toContent ∧
      s'.machine.store.appliedIndex = (applyUpTo C log (max s.high n)).appliedIndex := by
  obtain ⟨k, payload, hk, rfl, hentry, hstore⟩ := h.store
  have hcontent := hinv.content hfresh
  have happlied := hinv.applied hfresh
  have hle := hinv.position_le hfresh k hk
  rw [hstore]
  by_cases hnew : k = s.high
  · -- the entry is new: both databases take the same step
    subst hnew
    have hmax : max s.high (s.high + 1) = s.high + 1 := by omega
    have hmark := appliedIndex_applyUpTo_le C log s.high
    obtain ⟨-, hsame, hmarks⟩ := applyLog_agree C (t := applyUpTo C log s.high) payload hcontent
      (by omega : s.machine.store.appliedIndex < s.high + 1) (by omega)
    rw [hmax, applyUpTo_succ hentry]
    refine ⟨hsame, ?_⟩
    rcases hmarks with ⟨h1, h2⟩ | ⟨h1, h2⟩
    · rw [h1, h2]
    · rw [h1, h2, happlied]
  · have hmax : max s.high (k + 1) = s.high := by omega
    obtain ⟨hsame, hmark⟩ := redelivery_noop hcontent happlied (by omega) hentry
    rw [hmax, hsame, hmark]
    exact ⟨hcontent, happlied⟩

theorem ReplayInv.deliver_restored (hinv : ReplayInv C log s) (h : Delivers C log s n s')
    (hrestored : s.restored = true) :
    s'.machine.store.toContent = (applyUpTo C log n).toContent ∧
      s'.machine.store.appliedIndex ≤ n := by
  obtain ⟨k, payload, hk, rfl, hentry, hstore⟩ := h.store
  have hcontent := hinv.restored_content hrestored k hk
  have happlied := hinv.restored_applied hrestored k hk
  have hmark := appliedIndex_applyUpTo_le C log k
  obtain ⟨-, hsame, -⟩ := applyLog_agree C (t := applyUpTo C log k) payload hcontent
    (by omega : s.machine.store.appliedIndex < k + 1) (by omega)
  rw [hstore, applyUpTo_succ hentry]
  refine ⟨hsame, ?_⟩
  rcases applyLog_mark C s.machine.store payload (by omega : k + 1 ≠ 0) with h1 | h1
  · rw [h1]
    omega
  · omega

theorem ReplayInv.deliver (hinv : ReplayInv C log s) (h : Delivers C log s n s') :
    ReplayInv C log s' := by
  have hhigh := h.high
  constructor
  · intro hfresh k hk
    rw [h.position] at hk
    cases hk
    omega
  · intro hfresh
    rw [h.restored] at hfresh
    rw [hhigh]
    exact (hinv.deliver_fresh h hfresh).1
  · intro hfresh
    rw [h.restored] at hfresh
    rw [hhigh]
    exact (hinv.deliver_fresh h hfresh).2
  · intro hrestored k hk
    rw [h.restored] at hrestored
    rw [h.position] at hk
    cases hk
    exact (hinv.deliver_restored h hrestored).1
  · intro hrestored k hk
    rw [h.restored] at hrestored
    rw [h.position] at hk
    cases hk
    exact (hinv.deliver_restored h hrestored).2

theorem ReplayInv.step (hinv : ReplayInv C log s) (h : ReplayStep C J log s s') :
    ReplayInv C log s' := by
  cases h with
  | deliver n h => exact hinv.deliver h
  | start hasSnapshots store tree hprepare =>
    obtain ⟨hcontent, happlied, -⟩ := prepareReplay_eq hprepare
    constructor
    · intro hfresh k hk
      have hzero : k = 0 := by
        have hpos : (if s.restored then none else some 0) = some k := hk
        rw [show s.restored = false from hfresh] at hpos
        exact (Option.some.inj hpos).symm
      omega
    · intro hfresh
      exact hcontent.trans (hinv.content hfresh)
    · intro hfresh
      exact happlied.trans (hinv.applied hfresh)
    · intro hrestored k hk
      have hpos : (if s.restored then none else some 0) = some k := hk
      rw [show s.restored = true from hrestored] at hpos
      cases hpos
    · intro hrestored k hk
      have hpos : (if s.restored then none else some 0) = some k := hk
      rw [show s.restored = true from hrestored] at hpos
      cases hpos
  | restore range raw n machine hsnapshot hrestore =>
    obtain ⟨-, envelope, hdec, hentries, hrevision⟩ := hsnapshot
    obtain ⟨envelope', hdec', hstore, -, -⟩ := restore_ok hrestore
    rw [hdec] at hdec'
    cases hdec'
    constructor
    · intro hfresh
      cases hfresh
    · intro hfresh
      cases hfresh
    · intro hfresh
      cases hfresh
    · intro _ k hk
      cases hk
      show machine.store.toContent = _
      rw [hstore]
      show Content.mk envelope.entries envelope.revision = _
      rw [hentries, hrevision]
    · intro _ k hk
      cases hk
      show machine.store.appliedIndex ≤ n
      rw [hstore]
      exact Nat.zero_le n

end Steps

theorem replayInv_of_run {J : SnapshotJson Data B} {root : Str} {s : ReplayState Data}
    (h : ReflTransGen (ReplayStep C J log) (ReplayState.initial root) s) : ReplayInv C log s := by
  induction h with
  | refl => exact replayInv_initial C log root
  | tail _ hstep ih => exact ih.step hstep

/-- **Replay is exactly-once.**  In any run of starts, crashes, restores and deliveries, delivering
    the highest entry `n` leaves the content of entries `1..n` applied once; without a `Restore`, a
    re-delivered entry changes nothing. -/
theorem replay_exactly_once (C : Codec Payload Data) (J : SnapshotJson Data B)
    (log : List Payload) (root : Str) {s s' : ReplayState Data} {n : Nat}
    (hrun : ReflTransGen (ReplayStep C J log) (ReplayState.initial root) s)
    (hdeliver : Delivers C log s n s') :
    (s'.high = n →
      s'.machine.store.canonical = (applyUpTo C log n).canonical ∧
      s'.machine.store.revision = (applyUpTo C log n).revision) ∧
    (s.restored = false → n ≤ s.high →
      s'.machine.store.canonical = s.machine.store.canonical ∧
      s'.machine.store.revision = s.machine.store.revision) := by
  have hinv := replayInv_of_run hrun
  have hhigh := hdeliver.high
  constructor
  · intro hn
    have hcontent : s'.machine.store.toContent = (applyUpTo C log n).toContent := by
      cases hr : s.restored with
      | false =>
        rw [(hinv.deliver_fresh hdeliver hr).1, ← hhigh, hn]
      | true => exact (hinv.deliver_restored hdeliver hr).1
    rw [hcontent]
    exact ⟨rfl, rfl⟩
  · intro hr hn
    have hmax : max s.high n = s.high := by omega
    have hcontent : s'.machine.store.toContent = s.machine.store.toContent := by
      rw [(hinv.deliver_fresh hdeliver hr).1, hmax, hinv.content hr]
    rw [hcontent]
    exact ⟨rfl, rfl⟩

/-! ## A run -/

/-- The state after a delivery. -/
def ReplayState.delivered (C : Codec Payload Data) (s : ReplayState Data) (n : Nat)
    (payload : Payload) : ReplayState Data where
  machine := (apply C s.machine n payload).1
  position := some n
  high := max s.high n
  restored := s.restored

theorem delivers_delivered {s : ReplayState Data} {k : Nat} (hk : s.position = some k)
    (hentry : log[k]? = some payload) :
    Delivers C log s (k + 1) (s.delivered C (k + 1) payload) where
  next := ⟨k, hk, rfl⟩
  entry := ⟨payload, hentry, rfl⟩
  position := rfl
  high := rfl
  restored := rfl

/-- The machine after a start of a directory that has a snapshot file. -/
def Machine.started (m : Machine Data) : Machine Data :=
  { m with
      store := { m.store with revisionFloor := max m.store.revisionFloor m.store.revision } }

/-- The state after such a start. -/
def ReplayState.started (s : ReplayState Data) : ReplayState Data :=
  { s with machine := s.machine.started, position := if s.restored then none else some 0 }

theorem replayStep_started (C : Codec Payload Data) (J : SnapshotJson Data B) (log : List Payload)
    (s : ReplayState Data) : ReplayStep C J log s s.started :=
  ReplayStep.start true _ s.machine.tree (prepareReplay_of_snapshots s.machine.store)

/-- Two puts of one record. -/
def deviceLog : List (Mutation Str) :=
  [putCommand "control/devices/a.json" "1", putCommand "control/devices/a.json" "2"]

/-- Both entries, a crash, and the first entry again. -/
def restartedRun : ReplayState Str :=
  let first := ((ReplayState.initial "/state").started.delivered plainCodec 1
    (putCommand "control/devices/a.json" "1")).delivered plainCodec 2
    (putCommand "control/devices/a.json" "2")
  first.started.delivered plainCodec 1 (putCommand "control/devices/a.json" "1")

theorem restartedRun_reachable :
    ReflTransGen (ReplayStep plainCodec plainJson deviceLog) (ReplayState.initial "/state")
      restartedRun := by
  have h0 : ReflTransGen (ReplayStep plainCodec plainJson deviceLog)
      (ReplayState.initial "/state") _ := .refl
  have h1 := h0.tail (replayStep_started plainCodec plainJson deviceLog _)
  have h2 := h1.tail (.deliver 1 (delivers_delivered (k := 0) rfl rfl))
  have h3 := h2.tail (.deliver 2 (delivers_delivered (k := 1) rfl rfl))
  have h4 := h3.tail (replayStep_started plainCodec plainJson deviceLog _)
  exact h4.tail (.deliver 1 (delivers_delivered (k := 0) rfl rfl))

/-- The second entry again leaves the state of both. -/
theorem replay_exactly_once_restarted :
    let s := restartedRun
    let s' := s.delivered plainCodec 2 (putCommand "control/devices/a.json" "2")
    (s'.high = 2 →
      s'.machine.store.canonical = (applyUpTo plainCodec deviceLog 2).canonical ∧
      s'.machine.store.revision = (applyUpTo plainCodec deviceLog 2).revision) ∧
    (s.restored = false → 2 ≤ s.high →
      s'.machine.store.canonical = s.machine.store.canonical ∧
      s'.machine.store.revision = s.machine.store.revision) :=
  replay_exactly_once plainCodec plainJson deviceLog "/state" restartedRun_reachable
    (delivers_delivered (k := 1) rfl rfl)

end Bpc.Controlplane
