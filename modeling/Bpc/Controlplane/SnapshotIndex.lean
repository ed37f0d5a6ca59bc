/-
  SNAPSHOTS TAKEN DURING A REPLAY — does a snapshot labelled `k` hold the state of entry `k`?

  Raft labels it with the last entry handed to the FSM; `Snapshot` captures what the database
  holds, which is AHEAD while the log comes again (`snapshot_ahead_of_label`).  It does if the
  watermark is at most the last delivered entry (`Aligned`, `snapshot_at_own_index`).
-/
import Bpc.Controlplane.Replay

namespace Bpc.Controlplane

open SlashPath

variable {Payload Data B : Type}

/-! ## Runs with stored snapshots -/

/-- A data directory with its stored Raft snapshots, each with its label. -/
structure ArchiveState (Data B : Type) extends ReplayState Data where
  stored : List (Nat × List B)

/-- A new data directory. -/
def ArchiveState.initial (root : Str) : ArchiveState Data B where
  toReplayState := ReplayState.initial root
  stored := []

/-- What happens to a data directory. -/
inductive ArchiveEvent (Data : Type) where
  /-- A process starts, and Raft opens the stored snapshot number `choice`. -/
  | start (tree : Tree Data) (choice : Nat) (range : MapRange Str Data)
  | deliver
  | snapshot

/-- Without snapshots the log comes from its first entry; otherwise one is restored first. -/
def ArchiveState.start (C : Codec Payload Data) (J : SnapshotJson Data B) (s : ArchiveState Data B)
    (tree : Tree Data) (choice : Nat) (range : MapRange Str Data) : ArchiveState Data B :=
  match prepareReplay s.machine.store (!s.stored.isEmpty) with
  | .error _ => { s with position := none }
  | .ok store =>
    if s.stored.isEmpty then
      { s with machine := { s.machine with store, tree }, position := some 0 }
    else
      match s.stored[choice]? with
      | none => { s with machine := { s.machine with store, tree }, position := none }
      | some (n, raw) =>
        let restored := restore C J range { s.machine with store, tree } raw
        { s with
            machine := restored.1
            position := if restored.2.isNone then some n else none
            restored := true }

/-- The next entry, if the process is there and the log has one. -/
def ArchiveState.deliver (C : Codec Payload Data) (log : List Payload) (s : ArchiveState Data B) :
    ArchiveState Data B :=
  match s.position with
  | none => s
  | some k =>
    match log[k]? with
    | none => s
    | some payload => { s with toReplayState := s.toReplayState.delivered C (k + 1) payload }

/-- `Snapshot`: the bytes are stored with the label of the last entry. -/
def ArchiveState.snapshot (C : Codec Payload Data) (J : SnapshotJson Data B)
    (s : ArchiveState Data B) : ArchiveState Data B :=
  match s.position with
  | none => s
  | some 0 => s
  | some (k + 1) =>
    match exportSnapshot C J s.machine.store with
    | .error _ => s
    | .ok raw => { s with stored := (k + 1, raw) :: s.stored }

/-- One event. -/
def archiveStep (C : Codec Payload Data) (J : SnapshotJson Data B) (log : List Payload)
    (s : ArchiveState Data B) : ArchiveEvent Data → ArchiveState Data B
  | .start tree choice range => s.start C J tree choice range
  | .deliver => s.deliver C log
  | .snapshot => s.snapshot C J

/-- A run. -/
def runArchive (C : Codec Payload Data) (J : SnapshotJson Data B) (log : List Payload)
    (s : ArchiveState Data B) (events : List (ArchiveEvent Data)) : ArchiveState Data B :=
  events.foldl (archiveStep C J log) s

/-! ## The condition -/

/-- The database is not ahead of what the process was given. -/
def NotAhead (s : ArchiveState Data B) : Prop :=
  ∀ k ∈ s.position, s.machine.store.appliedIndex ≤ k

instance (s : ArchiveState Data B) : Decidable (NotAhead s) :=
  inferInstanceAs (Decidable (∀ k ∈ s.position, s.machine.store.appliedIndex ≤ k))

/-- No `Snapshot` call of the run finds the database ahead. -/
def Aligned (C : Codec Payload Data) (J : SnapshotJson Data B) (log : List Payload) :
    ArchiveState Data B → List (ArchiveEvent Data) → Prop
  | _, [] => True
  | s, .snapshot :: rest => NotAhead s ∧ Aligned C J log (s.snapshot C J) rest
  | s, event :: rest => Aligned C J log (archiveStep C J log s event) rest

/-! ## The invariant -/

/-- An envelope with the content of entries `1..n`. -/
def CapturedAt (C : Codec Payload Data) (J : SnapshotJson Data B) (log : List Payload) (n : Nat)
    (raw : List B) : Prop :=
  ∃ store : Store Data, raw = J.marshal (snapshotEnvelope C J store) ∧
    store.toContent = (applyUpTo C log n).toContent

/-- Every stored snapshot has the content of its label. -/
structure ArchiveInv (C : Codec Payload Data) (J : SnapshotJson Data B) (log : List Payload)
    (s : ArchiveState Data B) : Prop where
  replay : ReplayInv C log s.toReplayState
  stored : ∀ p ∈ s.stored, CapturedAt C J log p.1 p.2
  restored : s.stored = [] → s.restored = false

section Steps

variable {C : Codec Payload Data} {J : SnapshotJson Data B} {log : List Payload}

theorem ReplayInv.stop {s : ReplayState Data} (h : ReplayInv C log s) :
    ReplayInv C log { s with position := none } :=
  { h with
      position_le := fun _ _ hk => by cases hk
      restored_content := fun _ _ hk => by cases hk
      restored_applied := fun _ _ hk => by cases hk }

theorem ReplayInv.reopen {s : ReplayState Data} (h : ReplayInv C log s) (machine : Machine Data)
    (hcontent : machine.store.toContent = s.machine.store.toContent)
    (happlied : machine.store.appliedIndex = s.machine.store.appliedIndex) :
    ReplayInv C log { s with machine := machine } where
  position_le := h.position_le
  content := fun hr => hcontent.trans (h.content hr)
  applied := fun hr => happlied.trans (h.applied hr)
  restored_content := fun hr k hk => hcontent.trans (h.restored_content hr k hk)
  restored_applied := fun hr k hk => by
    have hmark := h.restored_applied hr k hk
    show machine.store.appliedIndex ≤ k
    omega

theorem ReplayInv.restart {s : ReplayState Data} (h : ReplayInv C log s)
    (hfresh : s.restored = false) : ReplayInv C log { s with position := some 0 } where
  position_le := by
    intro _ k hk
    cases hk
    exact Nat.zero_le _
  content := h.content
  applied := h.applied
  restored_content := by
    intro hr
    rw [show s.restored = true from hr] at hfresh
    cases hfresh
  restored_applied := by
    intro hr
    rw [show s.restored = true from hr] at hfresh
    cases hfresh

theorem replayInv_restore {s : ReplayState Data} {machine : Machine Data}
    {range : MapRange Str Data} {n : Nat} {raw : List B} (hcaptured : CapturedAt C J log n raw) :
    ReplayInv C log
      { s with
          machine := (restore C J range machine raw).1
          position := if (restore C J range machine raw).2.isNone then some n else none
          restored := true } := by
  have hfresh : ∀ {φ : Prop}, true = false → φ := fun h => by cases h
  -- a position is only there after a successful `Restore`
  have hdone : ∀ k, (if (restore C J range machine raw).2.isNone then some n else none) = some k →
      k = n ∧ ∃ envelope, decodeSnapshot C J raw = .ok envelope ∧
        (restore C J range machine raw).1.store = restoredStore envelope machine.store := by
    intro k hk
    cases hresult : (restore C J range machine raw).2 with
    | some e =>
      rw [hresult] at hk
      cases hk
    | none =>
      rw [hresult] at hk
      obtain ⟨envelope, hdec, hstore, -, -⟩ := restore_ok (Prod.ext rfl hresult)
      exact ⟨(Option.some.inj hk).symm, envelope, hdec, hstore⟩
  obtain ⟨store, rfl, hcontent⟩ := hcaptured
  refine ⟨hfresh, hfresh, hfresh, fun _ k hk => ?_, fun _ k hk => ?_⟩
  · obtain ⟨rfl, envelope, hdec, hstore⟩ := hdone k hk
    rw [hstore, decodeSnapshot_marshal_eq hdec]
    exact hcontent
  · obtain ⟨rfl, envelope, -, hstore⟩ := hdone k hk
    rw [hstore]
    exact Nat.zero_le k

theorem ArchiveInv.start {s : ArchiveState Data B} (h : ArchiveInv C J log s) (tree : Tree Data)
    (choice : Nat) (range : MapRange Str Data) :
    ArchiveInv C J log (s.start C J tree choice range) := by
  unfold ArchiveState.start
  cases hprepare : prepareReplay s.machine.store (!s.stored.isEmpty) with
  | error e => exact ⟨h.replay.stop, h.stored, h.restored⟩
  | ok store =>
    obtain ⟨hcontent, happlied, -⟩ := prepareReplay_eq hprepare
    have hreopened := h.replay.reopen { s.machine with store, tree } hcontent happlied
    simp only
    by_cases hnone : s.stored.isEmpty = true
    · rw [if_pos hnone]
      have hfresh := h.restored (List.isEmpty_iff.mp hnone)
      exact ⟨hreopened.restart hfresh, h.stored, h.restored⟩
    · rw [if_neg hnone]
      cases hchoice : s.stored[choice]? with
      | none => exact ⟨hreopened.stop, h.stored, h.restored⟩
      | some p =>
        have hcaptured := h.stored p (List.mem_of_getElem? hchoice)
        refine ⟨replayInv_restore hcaptured, h.stored, fun hempty => ?_⟩
        have hempty' : s.stored = [] := hempty
        rw [hempty'] at hnone
        exact absurd rfl hnone

theorem ArchiveInv.deliver {s : ArchiveState Data B} (h : ArchiveInv C J log s) :
    ArchiveInv C J log (s.deliver C log) := by
  unfold ArchiveState.deliver
  cases hposition : s.position with
  | none => exact h
  | some k =>
    cases hentry : log[k]? with
    | none =>
      simp only [hentry]
      exact h
    | some payload =>
      simp only [hentry]
      exact ⟨h.replay.deliver (delivers_delivered hposition hentry), h.stored, h.restored⟩

/-- **A database that is not ahead has the content of its position.** -/
theorem ReplayInv.content_at {s : ReplayState Data} (h : ReplayInv C log s) {k : Nat}
    (hk : s.position = some k) (hmark : s.machine.store.appliedIndex ≤ k) :
    s.machine.store.toContent = (applyUpTo C log k).toContent := by
  cases hr : s.restored with
  | true => exact h.restored_content hr k hk
  | false =>
    rw [h.applied hr] at hmark
    rw [h.content hr, applyUpTo_eq_of_watermark C log hmark (h.position_le hr k hk)]

theorem exportSnapshot_ok {store : Store Data} {raw : List B}
    (h : exportSnapshot C J store = .ok raw) : raw = J.marshal (snapshotEnvelope C J store) := by
  unfold exportSnapshot at h
  split at h
  · cases h
  · exact (Except.ok.inj h).symm

theorem ArchiveInv.snapshot {s : ArchiveState Data B} (h : ArchiveInv C J log s)
    (hahead : NotAhead s) : ArchiveInv C J log (s.snapshot C J) := by
  unfold ArchiveState.snapshot
  cases hposition : s.position with
  | none => exact h
  | some k =>
    have hmark := hahead k hposition
    cases k with
    | zero => exact h
    | succ k =>
      cases hexport : exportSnapshot C J s.machine.store with
      | error e => exact h
      | ok raw =>
        refine ⟨h.replay, fun p hp => ?_, fun hnil => by cases hnil⟩
        obtain rfl | hp := List.mem_cons.mp hp
        · exact ⟨s.machine.store, exportSnapshot_ok hexport, h.replay.content_at hposition hmark⟩
        · exact h.stored p hp

theorem ArchiveInv.step {s : ArchiveState Data B} {event : ArchiveEvent Data}
    {rest : List (ArchiveEvent Data)} (h : ArchiveInv C J log s)
    (haligned : Aligned C J log s (event :: rest)) :
    ArchiveInv C J log (archiveStep C J log s event) ∧
      Aligned C J log (archiveStep C J log s event) rest := by
  cases event with
  | start tree choice range => exact ⟨h.start tree choice range, haligned⟩
  | deliver => exact ⟨h.deliver, haligned⟩
  | snapshot => exact ⟨h.snapshot haligned.1, haligned.2⟩

theorem ArchiveInv.run : ∀ {events : List (ArchiveEvent Data)} {s : ArchiveState Data B},
    ArchiveInv C J log s → Aligned C J log s events →
      ArchiveInv C J log (runArchive C J log s events)
  | [], _, h, _ => h
  | event :: rest, s, h, haligned => by
    obtain ⟨hnext, hrest⟩ := h.step haligned
    show ArchiveInv C J log (runArchive C J log (archiveStep C J log s event) rest)
    exact hnext.run hrest

end Steps

theorem archiveInv_initial (C : Codec Payload Data) (J : SnapshotJson Data B) (log : List Payload)
    (root : Str) : ArchiveInv C J log (ArchiveState.initial root : ArchiveState Data B) where
  replay := replayInv_initial C log root
  stored := fun _ hp => by cases hp
  restored := fun _ => rfl

/-! ## The result -/

/-- **Aligned snapshots hold the state of their label**: every captured snapshot has the content of
    entries `1..k`, `k` being its label; and a process that began with a `Restore` has, after entry
    `k`, that content. -/
theorem snapshot_at_own_index (C : Codec Payload Data) (J : SnapshotJson Data B)
    (log : List Payload) (root : Str) (events : List (ArchiveEvent Data))
    (haligned : Aligned C J log (ArchiveState.initial root) events) :
    (∀ p ∈ (runArchive C J log (ArchiveState.initial root) events).stored,
      ∃ store : Store Data, p.2 = J.marshal (snapshotEnvelope C J store) ∧
        (snapshotEnvelope C J store).entries = (applyUpTo C log p.1).canonical ∧
        (snapshotEnvelope C J store).revision = (applyUpTo C log p.1).revision) ∧
    ((runArchive C J log (ArchiveState.initial root) events).restored = true →
      ∀ k, (runArchive C J log (ArchiveState.initial root) events).position = some k →
        (runArchive C J log (ArchiveState.initial root) events).machine.store.toContent =
          (applyUpTo C log k).toContent) := by
  have hinv := (archiveInv_initial C J log root).run haligned
  refine ⟨fun p hp => ?_, hinv.replay.restored_content⟩
  obtain ⟨store, hraw, hcontent⟩ := hinv.stored p hp
  exact ⟨store, hraw, congrArg Content.canonical hcontent, congrArg Content.revision hcontent⟩

/-- The tree of a directory that holds no projection. -/
def emptyTree : Tree Str := FileTree.empty (linuxNames "/state")

/-- Entry 1, a snapshot, a crash, a start from it, entry 2. -/
def alignedEvents : List (ArchiveEvent Str) :=
  [.start emptyTree 0 MapRange.sorted, .deliver, .snapshot,
   .start emptyTree 0 MapRange.sorted, .deliver]

/-- A snapshot, and a start from it. -/
theorem snapshot_at_own_index_restart :
    Aligned plainCodec plainJson deviceLog (ArchiveState.initial "/state") alignedEvents ∧
    let s := runArchive plainCodec plainJson deviceLog (ArchiveState.initial "/state") alignedEvents
    s.stored.map Prod.fst = [1] ∧ s.position = some 2 ∧
      s.machine.store.toContent = (applyUpTo plainCodec deviceLog 2).toContent := by
  have haligned : Aligned plainCodec plainJson deviceLog (ArchiveState.initial "/state")
      alignedEvents := by
    refine ⟨?_, trivial⟩
    decide +kernel
  refine ⟨haligned, by decide +kernel, by decide +kernel, ?_⟩
  refine (snapshot_at_own_index plainCodec plainJson deviceLog "/state" alignedEvents haligned).2
    (by decide +kernel) 2 (by decide +kernel)

/-- Entries 1 and 2, a crash, entry 1, a snapshot; a start from it, entry 2. -/
def aheadEvents : List (ArchiveEvent Str) :=
  [.start emptyTree 0 MapRange.sorted, .deliver, .deliver,
   .start emptyTree 0 MapRange.sorted, .deliver, .snapshot,
   .start emptyTree 0 MapRange.sorted, .deliver]

/-- **A snapshot that is ahead of its label**: labelled 1, with revision 2; the process that starts
    from it ends with revision 3. -/
theorem snapshot_ahead_of_label :
    let s := runArchive plainCodec plainJson deviceLog (ArchiveState.initial "/state") aheadEvents
    s.stored.map (fun p => (p.1, p.2.map Envelope.revision)) = [(1, [2])] ∧
      (applyUpTo plainCodec deviceLog 1).revision = 1 ∧
      s.position = some 2 ∧ s.machine.store.revision = 3 ∧
      (applyUpTo plainCodec deviceLog 2).revision = 2 := by
  decide +kernel

end Bpc.Controlplane
