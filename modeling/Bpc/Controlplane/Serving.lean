/-
  SERVED REVISIONS — `StrongRead`, `WaitApplied` and `Submit` over the life of a data directory
  (node.go).

  A call first compares with the floor of its process and reports a revision LATER; a restore in
  between is served at once (`restore_serves_older`).  If no restore goes below a reported revision
  that the floor does not cover (`KeepsServed`), a later call never reports less
  (`served_revision_monotone`).
-/
import Bpc.Controlplane.Replay

namespace Bpc.Controlplane

open SlashPath Relation

variable {Payload Data B : Type}

/-! ## Calls -/

/-- One data directory, its current process, and the history of reports. -/
structure ServeState (Data : Type) where
  machine : Machine Data
  /-- `Node.revisionFloor` of the current process. -/
  floor : UInt64
  /-- Every revision reported so far, over all processes. -/
  reports : List UInt64
  /-- Calls that have begun, each with the reports made before it. -/
  begun : List (List UInt64)
  /-- Calls that have passed `checkRevisionFloor` and not reported yet. -/
  passed : List (List UInt64)

/-- A new data directory before its first start. -/
def ServeState.initial (root : Str) : ServeState Data where
  machine := Machine.fresh root
  floor := 0
  reports := []
  begun := []
  passed := []

/-- `Node.checkRevisionFloor`. -/
def checkRevisionFloor (s : ServeState Data) : Bool := !decide (s.machine.store.revision < s.floor)

/-- `SnapshotClusterID`: the cluster record must have an id. -/
def snapshotClusterID (C : Codec Payload Data) (J : SnapshotJson Data B) (raw : List B) :
    Except Str Str := do
  let envelope ← checkEnvelope C J (← J.unmarshal raw)
  match envelope.entries["cluster/cluster.json".toList]? with
  | none => .error "canonical snapshot does not contain cluster metadata"
  | some data =>
    let clusterID := trimSpace (← J.unmarshalClusterID data)
    if clusterID = [] then .error "canonical snapshot cluster_id is missing" else .ok clusterID

/-- A call that has passed its check reports revision `r`. -/
inductive Reports (C : Codec Payload Data) (s : ServeState Data) (call : List UInt64) :
    UInt64 → ServeState Data → Prop
  /-- `StrongRead` and `WaitApplied` end: the reconciliation succeeds. -/
  | read (range : MapRange Str Data) (tree : Tree Data) (hcall : call ∈ s.passed)
      (hreconcile : reconcileProjection range s.machine.store.canonical s.machine.tree =
        (tree, none)) :
      Reports C s call s.machine.store.revision
        { s with
            machine := { s.machine with tree := tree }
            reports := s.machine.store.revision :: s.reports
            passed := s.passed.erase call }
  /-- `Submit` ends: its own entry is applied. -/
  | submit (index : Nat) (payload : Payload) (hcall : call ∈ s.passed)
      (hok : (apply C s.machine index payload).2.ok = true) :
      Reports C s call (apply C s.machine index payload).2.revision
        { s with
            machine := (apply C s.machine index payload).1
            reports := (apply C s.machine index payload).2.revision :: s.reports
            passed := s.passed.erase call }

/-- One step; `allowed` limits what may be restored when. -/
inductive ServeStep (C : Codec Payload Data) (J : SnapshotJson Data B)
    (allowed : ServeState Data → UInt64 → Prop) : ServeState Data → ServeState Data → Prop
  /-- A process starts; the calls of the one before are gone. -/
  | start {s : ServeState Data} (hasSnapshots : Bool) (store : Store Data) (tree : Tree Data)
      (hprepare : prepareReplay s.machine.store hasSnapshots = .ok store) :
      ServeStep C J allowed s
        { s with
            machine := { s.machine with store := store, tree := tree }
            floor := store.revisionFloor
            begun := []
            passed := [] }
  | apply {s : ServeState Data} (index : Nat) (payload : Payload) :
      ServeStep C J allowed s { s with machine := (Controlplane.apply C s.machine index payload).1 }
  /-- `Restore` by Raft, whatever its result. -/
  | restore {s : ServeState Data} (range : MapRange Str Data) (raw : List B)
      (hallowed : ∀ envelope, decodeSnapshot C J raw = .ok envelope → allowed s envelope.revision) :
      ServeStep C J allowed s
        { s with machine := (Controlplane.restore C J range s.machine raw).1 }
  /-- `RestoreSnapshot`: the snapshot must name its cluster. -/
  | restoreSnapshot {s : ServeState Data} (range : MapRange Str Data) (raw : List B)
      (clusterID : Str) (hcluster : snapshotClusterID C J raw = .ok clusterID)
      (hallowed : ∀ envelope, decodeSnapshot C J raw = .ok envelope → allowed s envelope.revision) :
      ServeStep C J allowed s
        { s with machine := (Controlplane.restore C J range s.machine raw).1 }
  | call {s : ServeState Data} :
      ServeStep C J allowed s { s with begun := s.reports :: s.begun }
  | check {s : ServeState Data} (call : List UInt64) (hcall : call ∈ s.begun)
      (hfloor : checkRevisionFloor s = true) :
      ServeStep C J allowed s { s with begun := s.begun.erase call, passed := call :: s.passed }
  | report {s s' : ServeState Data} (call : List UInt64) (r : UInt64)
      (h : Reports C s call r s') : ServeStep C J allowed s s'

/-- A restore to revision `v` keeps what has been served. -/
def KeepsServed (s : ServeState Data) (v : UInt64) : Prop :=
  (∀ q ∈ s.reports, q ≤ v ∨ q ≤ s.floor) ∧ ∀ call ∈ s.passed, ∀ q ∈ call, q ≤ v

theorem apply_revision {C : Codec Payload Data} {m : Machine Data} {index : Nat}
    {payload : Payload} (h : (apply C m index payload).2.ok = true) :
    (apply C m index payload).2.revision = (apply C m index payload).1.store.revision := by
  rw [apply_store]
  revert h
  show (finishApply m _ (applyLog C m.store index payload).2).2.ok = true →
    (finishApply m _ (applyLog C m.store index payload).2).2.revision = _
  cases (applyLog C m.store index payload).2 with
  | rejected e =>
    intro h
    cases h
  | conflicted e => exact fun _ => rfl
  | replayed => exact fun _ => rfl
  | committed ops =>
    intro _
    show (committedResult _ (projectOperations m.root m.tree ops).2).revision = _
    cases (projectOperations m.root m.tree ops).2 <;> rfl

theorem floor_applyLog (C : Codec Payload Data) (store : Store Data) (index : Nat)
    (payload : Payload) :
    (applyLog C store index payload).1.revisionFloor = store.revisionFloor := by
  rcases applyLog_cases C store index payload with h | ⟨e, h, -⟩ | ⟨ops, store', h, hc⟩
  · rw [h]
  · rw [h]
  · rw [h]
    exact hc.floor

theorem restore_store_cases (C : Codec Payload Data) (J : SnapshotJson Data B)
    (range : MapRange Str Data) (m : Machine Data) (raw : List B) :
    (restore C J range m raw).1.store = m.store ∨
    ∃ envelope, decodeSnapshot C J raw = .ok envelope ∧
      (restore C J range m raw).1.store = restoredStore envelope m.store := by
  unfold restore
  cases hdec : decodeSnapshot C J raw with
  | error e => exact Or.inl rfl
  | ok envelope =>
    simp only
    cases htx : restoreTx C range envelope m.store with
    | error e => exact Or.inl rfl
    | ok store => exact Or.inr ⟨envelope, rfl, restoreTx_eq htx⟩

/-! ## The invariant -/

/-- What was reported is covered by the floor or reached again, and seen by every call that passed
    its check. -/
structure ServeInv (s : ServeState Data) : Prop where
  floor_stored : s.floor ≤ s.machine.store.revisionFloor
  covered : ∀ q ∈ s.reports, q ≤ s.floor ∨ q ≤ s.machine.store.revision
  begun : ∀ call ∈ s.begun, ∀ q ∈ call, q ∈ s.reports
  passed : ∀ call ∈ s.passed, ∀ q ∈ call, q ≤ s.machine.store.revision

theorem serveInv_initial (root : Str) : ServeInv (ServeState.initial root : ServeState Data) where
  floor_stored := UInt64.le_refl 0
  covered := by
    intro q hq
    cases hq
  begun := by
    intro call hcall
    cases hcall
  passed := by
    intro call hcall
    cases hcall

section Invariant

variable {C : Codec Payload Data} {J : SnapshotJson Data B} {s s' : ServeState Data}

theorem ServeInv.forward (h : ServeInv s) (m : Machine Data)
    (hrevision : s.machine.store.revision ≤ m.store.revision)
    (hfloor : m.store.revisionFloor = s.machine.store.revisionFloor) :
    ServeInv { s with machine := m } where
  floor_stored := by
    show s.floor ≤ m.store.revisionFloor
    rw [hfloor]
    exact h.floor_stored
  covered := by
    intro q hq
    rcases h.covered q hq with hq' | hq'
    · exact Or.inl hq'
    · exact Or.inr (UInt64.le_trans hq' hrevision)
  begun := h.begun
  passed := fun call hcall q hq => UInt64.le_trans (h.passed call hcall q hq) hrevision

theorem ServeInv.reported (h : ServeInv s) (call : List UInt64) :
    ServeInv { s with
      reports := s.machine.store.revision :: s.reports, passed := s.passed.erase call } where
  floor_stored := h.floor_stored
  covered := by
    intro q hq
    rcases List.mem_cons.mp hq with rfl | hq
    · exact Or.inr (UInt64.le_refl _)
    · exact h.covered q hq
  begun := fun c hc q hq => List.mem_cons_of_mem _ (h.begun c hc q hq)
  passed := fun c hc => h.passed c (List.mem_of_mem_erase hc)

theorem ServeInv.applied (h : ServeInv s) (index : Nat) (payload : Payload) :
    ServeInv { s with machine := (apply C s.machine index payload).1 } := by
  apply h.forward
  · rw [apply_store]
    exact revision_le_applyLog C s.machine.store index payload
  · rw [apply_store]
    exact floor_applyLog C s.machine.store index payload

theorem ServeInv.report {call : List UInt64} {r : UInt64} (h : ServeInv s)
    (hr : Reports C s call r s') : ServeInv s' := by
  cases hr with
  | read range tree hcall hreconcile =>
    exact (h.forward { s.machine with tree := tree } (UInt64.le_refl _) rfl).reported call
  | submit index payload hcall hok =>
    have happlied := (h.applied (C := C) index payload).reported call
    rw [apply_revision hok]
    exact happlied

theorem ServeInv.restored (h : ServeInv s) (range : MapRange Str Data) (raw : List B)
    (hallowed : ∀ envelope, decodeSnapshot C J raw = .ok envelope →
      KeepsServed s envelope.revision) :
    ServeInv { s with machine := (restore C J range s.machine raw).1 } := by
  rcases restore_store_cases C J range s.machine raw with hsame | ⟨envelope, hdec, hstore⟩
  · apply h.forward
    · rw [hsame]
      exact UInt64.le_refl _
    · rw [hsame]
  · obtain ⟨hreports, hpassed⟩ := hallowed envelope hdec
    have hrev : (restore C J range s.machine raw).1.store.revision = envelope.revision := by
      rw [hstore]
      rfl
    constructor
    · show s.floor ≤ (restore C J range s.machine raw).1.store.revisionFloor
      rw [hstore]
      exact h.floor_stored
    · intro q hq
      show q ≤ s.floor ∨ q ≤ (restore C J range s.machine raw).1.store.revision
      rw [hrev]
      exact (hreports q hq).symm
    · exact h.begun
    · intro call hcall q hq
      show q ≤ (restore C J range s.machine raw).1.store.revision
      rw [hrev]
      exact hpassed call hcall q hq

theorem ServeInv.step (h : ServeInv s) (hstep : ServeStep C J KeepsServed s s') :
    ServeInv s' := by
  cases hstep with
  | start hasSnapshots store tree hprepare =>
    obtain ⟨hcontent, -, hfloor⟩ := prepareReplay_eq hprepare
    constructor
    · exact UInt64.le_refl _
    · intro q hq
      refine Or.inl ?_
      show q ≤ store.revisionFloor
      rw [hfloor]
      rcases h.covered q hq with hq' | hq'
      · exact UInt64.le_trans (UInt64.le_trans hq' h.floor_stored) (le_max64_left _ _)
      · exact UInt64.le_trans hq' (le_max64_right _ _)
    · intro call hcall
      cases hcall
    · intro call hcall
      cases hcall
  | apply index payload => exact h.applied index payload
  | restore range raw hallowed => exact h.restored range raw hallowed
  | restoreSnapshot range raw clusterID hcluster hallowed => exact h.restored range raw hallowed
  | call =>
    refine ⟨h.floor_stored, h.covered, fun c hc q hq => ?_, h.passed⟩
    rcases List.mem_cons.mp hc with rfl | hc
    · exact hq
    · exact h.begun c hc q hq
  | check call hcall hfloor =>
    have hle : s.floor ≤ s.machine.store.revision := by
      simpa [checkRevisionFloor] using hfloor
    refine ⟨h.floor_stored, h.covered, fun c hc => h.begun c (List.mem_of_mem_erase hc), ?_⟩
    intro c hc q hq
    rcases List.mem_cons.mp hc with rfl | hc
    · rcases h.covered q (h.begun c hcall q hq) with hq' | hq'
      · exact UInt64.le_trans hq' hle
      · exact hq'
    · exact h.passed c hc q hq
  | report call r hr => exact h.report hr

end Invariant

theorem serveInv_of_run {C : Codec Payload Data} {J : SnapshotJson Data B} {root : Str}
    {s : ServeState Data}
    (h : ReflTransGen (ServeStep C J KeepsServed) (ServeState.initial root) s) : ServeInv s := by
  induction h with
  | refl => exact serveInv_initial root
  | tail _ hstep ih => exact ih.step hstep

/-- **The served revision never goes back**, as long as every restore keeps what has been served: a
    call reports at least every revision that was reported before it began, over all processes. -/
theorem served_revision_monotone (C : Codec Payload Data) (J : SnapshotJson Data B) (root : Str)
    {s s' : ServeState Data} {call : List UInt64} {r : UInt64}
    (hrun : ReflTransGen (ServeStep C J KeepsServed) (ServeState.initial root) s)
    (hreport : Reports C s call r s') : ∀ q ∈ call, q ≤ r := by
  have hinv := serveInv_of_run hrun
  intro q hq
  cases hreport with
  | read range tree hcall hreconcile => exact hinv.passed call hcall q hq
  | submit index payload hcall hok =>
    rw [apply_revision hok, apply_store]
    exact UInt64.le_trans (hinv.passed call hcall q hq)
      (revision_le_applyLog C s.machine.store index payload)

/-! ## Closed instances -/

/-- The state after a start of a directory that has a snapshot file. -/
def ServeState.started (s : ServeState Data) : ServeState Data :=
  { s with
      machine := s.machine.started
      floor := s.machine.started.store.revisionFloor
      begun := []
      passed := [] }

/-- A read with nothing in between. -/
def ServeState.readOnce (s : ServeState Data) : ServeState Data :=
  { s with
      machine :=
        { s.machine with
            tree := (reconcileProjection MapRange.sorted s.machine.store.canonical
              s.machine.tree).1 }
      reports := s.machine.store.revision :: s.reports }

section Concrete

variable {C : Codec Payload Data} {J : SnapshotJson Data B}
  {allowed : ServeState Data → UInt64 → Prop} {s : ServeState Data}

theorem serveStep_started : ServeStep C J allowed s s.started :=
  ServeStep.start true _ s.machine.tree (prepareReplay_of_snapshots s.machine.store)

/-- After a start every restore that the floor covers is allowed. -/
theorem keepsServed_started (h : ∀ q ∈ s.reports, q ≤ s.started.floor) (v : UInt64) :
    KeepsServed s.started v := by
  refine ⟨fun q hq => Or.inr (h q hq), fun call hcall => ?_⟩
  cases hcall

theorem serveRun_checked {s₀ : ServeState Data} (h : ReflTransGen (ServeStep C J allowed) s₀ s)
    (hfloor : checkRevisionFloor s = true) :
    ReflTransGen (ServeStep C J allowed) s₀ { s with passed := s.reports :: s.passed } := by
  have hcall := h.tail ServeStep.call
  have hcheck := hcall.tail (ServeStep.check s.reports (List.mem_cons_self ..) hfloor)
  rwa [List.erase_cons_head] at hcheck

theorem reports_readOnce
    (hreconcile : (reconcileProjection MapRange.sorted s.machine.store.canonical
      s.machine.tree).2 = none) :
    Reports C { s with passed := s.reports :: s.passed } s.reports s.machine.store.revision
      s.readOnce := by
  have hread := Reports.read (C := C) (s := { s with passed := s.reports :: s.passed })
    MapRange.sorted _ (List.mem_cons_self ..) (Prod.ext rfl hreconcile)
  rwa [List.erase_cons_head] at hread

theorem serveRun_readOnce {s₀ : ServeState Data} (h : ReflTransGen (ServeStep C J allowed) s₀ s)
    (hfloor : checkRevisionFloor s = true)
    (hreconcile : (reconcileProjection MapRange.sorted s.machine.store.canonical
      s.machine.tree).2 = none) :
    ReflTransGen (ServeStep C J allowed) s₀ s.readOnce :=
  (serveRun_checked h hfloor).tail (.report _ _ (reports_readOnce hreconcile))

end Concrete

/-- The cluster record and a Device record. -/
def clusterLog : List (Mutation Str) :=
  [putCommand "cluster/cluster.json" "bpc-1", putCommand "control/devices/a.json" "2"]

/-- The snapshot of the state after the first entry. -/
def clusterSnapshot : List (Envelope Str) :=
  plainJson.marshal (snapshotEnvelope plainCodec plainJson (applyUpTo plainCodec clusterLog 1))

/-- An entry of the log is applied. -/
def ServeState.deliver (s : ServeState Str) (index : Nat) (payload : Mutation Str) :
    ServeState Str :=
  { s with machine := (apply plainCodec s.machine index payload).1 }

/-- The snapshot is restored. -/
def ServeState.restoring (s : ServeState Str) : ServeState Str :=
  { s with machine := (restore plainCodec plainJson MapRange.sorted s.machine clusterSnapshot).1 }

theorem serveStep_deliver {allowed : ServeState Str → UInt64 → Prop} {s : ServeState Str}
    (index : Nat) (payload : Mutation Str) :
    ServeStep plainCodec plainJson allowed s (s.deliver index payload) :=
  .apply index payload

theorem serveStep_restoring {allowed : ServeState Str → UInt64 → Prop} {s : ServeState Str}
    (h : ∀ envelope, decodeSnapshot plainCodec plainJson clusterSnapshot = .ok envelope →
      allowed s envelope.revision) :
    ServeStep plainCodec plainJson allowed s s.restoring :=
  .restore MapRange.sorted clusterSnapshot h

/-- A started Controller has applied both entries and served a read. -/
def servedTwo : ServeState Str :=
  (((ServeState.initial "/state").started.deliver 1
    (putCommand "cluster/cluster.json" "bpc-1")).deliver 2
    (putCommand "control/devices/a.json" "2")).readOnce

theorem servedTwo_reachable (allowed : ServeState Str → UInt64 → Prop) :
    ReflTransGen (ServeStep plainCodec plainJson allowed) (ServeState.initial "/state")
      servedTwo := by
  have h1 : ReflTransGen (ServeStep plainCodec plainJson allowed)
      (ServeState.initial "/state") _ := .single serveStep_started
  have h2 := h1.tail (serveStep_deliver 1 (putCommand "cluster/cluster.json" "bpc-1"))
  have h3 := h2.tail (serveStep_deliver 2 (putCommand "control/devices/a.json" "2"))
  exact serveRun_readOnce h3 (by decide +kernel) (by decide +kernel)

/-- A second process restores revision 1 and gets the second entry again. -/
def servedAgain : ServeState Str :=
  servedTwo.started.restoring.deliver 2 (putCommand "control/devices/a.json" "2")

theorem servedAgain_reachable :
    ReflTransGen (ServeStep plainCodec plainJson KeepsServed) (ServeState.initial "/state")
      servedAgain := by
  have hstart := (servedTwo_reachable KeepsServed).tail serveStep_started
  have hreports : servedTwo.reports = [2] := by decide +kernel
  have hfloor : servedTwo.started.floor = 2 := by decide +kernel
  have hkeeps := keepsServed_started (s := servedTwo) (by simp [hreports, hfloor])
  have hrestore := hstart.tail (serveStep_restoring fun envelope _ => hkeeps envelope.revision)
  exact hrestore.tail (serveStep_deliver 2 (putCommand "control/devices/a.json" "2"))

/-- No call passes until the entry is back; then revision 2 is reported again. -/
theorem served_revision_monotone_restarted :
    servedTwo.started.restoring.machine.store.revision = 1 ∧
    checkRevisionFloor servedTwo.started.restoring = false ∧
    servedAgain.reports = [2] ∧ 2 ≤ servedAgain.machine.store.revision := by
  have hreports : servedAgain.reports = [2] := by decide +kernel
  refine ⟨by decide +kernel, by decide +kernel, hreports, ?_⟩
  exact served_revision_monotone plainCodec plainJson "/state"
    (serveRun_checked servedAgain_reachable (by decide +kernel))
    (reports_readOnce (by decide +kernel)) 2 (by rw [hreports]; exact List.mem_cons_self ..)

/-- **A restore in a running process is served at once**: revision 2 was reported, a snapshot of
    revision 1 is restored, and the next read reports revision 1. -/
theorem restore_serves_older :
    snapshotClusterID plainCodec plainJson clusterSnapshot = .ok "bpc-1".toList ∧
    ReflTransGen (ServeStep plainCodec plainJson fun _ _ => True) (ServeState.initial "/state")
      { servedTwo.restoring with
          passed := servedTwo.restoring.reports :: servedTwo.restoring.passed } ∧
    Reports plainCodec
      { servedTwo.restoring with
          passed := servedTwo.restoring.reports :: servedTwo.restoring.passed }
      servedTwo.restoring.reports servedTwo.restoring.machine.store.revision
      servedTwo.restoring.readOnce ∧
    servedTwo.restoring.reports = [2] ∧ servedTwo.restoring.machine.store.revision = 1 := by
  have hcluster : snapshotClusterID plainCodec plainJson clusterSnapshot = .ok "bpc-1".toList := by
    decide +kernel
  have hrestored : ReflTransGen (ServeStep plainCodec plainJson fun _ _ => True)
      (ServeState.initial "/state") servedTwo.restoring :=
    (servedTwo_reachable _).tail
      (.restoreSnapshot MapRange.sorted clusterSnapshot _ hcluster fun _ _ => trivial)
  exact ⟨hcluster, serveRun_checked hrestored (by decide +kernel),
    reports_readOnce (by decide +kernel), by decide +kernel, by decide +kernel⟩

end Bpc.Controlplane
