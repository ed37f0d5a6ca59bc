/-
  RESTART — what the projected files show while Raft rebuilds the state machine.

  The floor keeps requests away, but the FILES are read by others.  A restored snapshot puts back
  what was deleted since (`restart_exposes_revoked`).  If the snapshot and the entries after it
  agree with the durable state (`SnapshotAgrees`), no step touches a replicated file
  (`startup_shows_durable`).
-/
import Bpc.Controlplane.Replay

namespace Bpc.Controlplane

open SlashPath

variable {Payload Data B : Type}

/-! ## The moments of a restart -/

/-- A restart from the snapshot at `s`, with the entries up to `k` delivered. -/
inductive StartupAt (C : Codec Payload Data) (J : SnapshotJson Data B) (log : List Payload)
    (n s : Nat) (start : Machine Data) : Machine Data → Nat → Prop
  | restored (range : MapRange Str Data) (raw : List B) (m : Machine Data)
      (hsnapshot : SnapshotAt C J log s raw)
      (hrestore : restore C J range start raw = (m, none)) : StartupAt C J log n s start m s
  | delivered (m : Machine Data) (k : Nat) (payload : Payload)
      (h : StartupAt C J log n s start m k) (hk : k < n) (hentry : log[k]? = some payload) :
      StartupAt C J log n s start (apply C m (k + 1) payload).1 (k + 1)

/-- A tree that is on disk at some moment of the restart. -/
inductive StartupMoment (C : Codec Payload Data) (J : SnapshotJson Data B) (log : List Payload)
    (n s : Nat) (start : Machine Data) : Tree Data → Prop
  | started : StartupMoment C J log n s start start.tree
  /-- `done` entries of the snapshot have been written. -/
  | writing (range : MapRange Str Data) (raw : List B) (envelope : Envelope Data) (done : Nat)
      (hsnapshot : SnapshotAt C J log s raw) (hdecode : decodeSnapshot C J raw = .ok envelope) :
      StartupMoment C J log n s start
        (start.tree.writeAll ((projectEntries range envelope.entries).take done)).1
  /-- All entries are written and `done` stale paths removed. -/
  | removing (range : MapRange Str Data) (raw : List B) (envelope : Envelope Data)
      (existing : Bucket Data) (done : Nat) (hsnapshot : SnapshotAt C J log s raw)
      (hdecode : decodeSnapshot C J raw = .ok envelope)
      (hscan : scanReplicatedProjection
        (start.tree.writeAll (projectEntries range envelope.entries)).1 = .ok existing) :
      StartupMoment C J log n s start
        ((start.tree.writeAll (projectEntries range envelope.entries)).1.discardAll
          ((stalePaths range envelope.entries existing).take done)).1
  | between (m : Machine Data) (k : Nat) (h : StartupAt C J log n s start m k) :
      StartupMoment C J log n s start m.tree
  /-- `done` operations of a re-delivered entry have been projected. -/
  | projecting (m : Machine Data) (k : Nat) (payload : Payload) (ops : List (Operation Data))
      (done : Nat) (h : StartupAt C J log n s start m k) (hk : k < n)
      (hentry : log[k]? = some payload)
      (hcommitted : (applyLog C m.store (k + 1) payload).2 = .committed ops) :
      StartupMoment C J log n s start (projectOperations m.root m.tree (ops.take done)).1

/-- The files at the replicated paths are the entries of a canonical map. -/
def Shows (canonical : Bucket Data) (tree : Tree Data) : Prop :=
  ∀ key, isReplicated key = true → ∀ d,
    tree.get (keyParts key) = some (.file d) ↔ canonical[key]? = some d

/-- An operation that puts what the map has, or deletes what it has not. -/
def AgreesWith (canonical : Bucket Data) (op : Operation Data) : Prop :=
  match op.op with
  | .put => canonical[op.path]? = some op.data
  | .delete => canonical[op.path]? = none
  | .unsupported _ => True

/-- The snapshot, and everything committed since, agree with entry `n`. -/
structure SnapshotAgrees (C : Codec Payload Data) (log : List Payload) (n s : Nat) : Prop where
  map : (applyUpTo C log s).canonical = (applyUpTo C log n).canonical
  operations : ∀ k payload ops, s ≤ k → k < n → log[k]? = some payload →
    (applyLog C (applyUpTo C log k) (k + 1) payload).2 = .committed ops →
    ∀ op ∈ ops, AgreesWith (applyUpTo C log n).canonical op

/-! ## Steps that touch no replicated file -/

section Shows

variable {canonical : Bucket Data} {tree : Tree Data}

/-- Writing what is there touches no file, also when it fails. -/
theorem Shows.written {key : Str} {d : Data} (h : Shows canonical tree)
    (hrep : isReplicated key = true) (hkey : canonical[key]? = some d) :
    Shows canonical (tree.writeFile (keyParts key) d).1 := by
  have hfile : tree.get (keyParts key) = some (.file d) := (h key hrep d).mpr hkey
  intro key' hrep' d'
  rw [← h key' hrep' d']
  rcases FileTree.writeFile_cases tree (keyParts key) d (keyParts key') with
    ⟨hsame, hget⟩ | hget | ⟨-, hget, hnofile⟩
  · rw [hget, hsame, hfile]
  · rw [hget]
  · rw [hget]
    refine iff_of_false (fun hdir => by cases hdir) (FileTree.isFile_eq_false.mp hnofile d')

theorem Shows.discarded {p : List Str} (h : Shows canonical tree)
    (hp : ∀ key, isReplicated key = true → keyParts key = p → canonical[key]? = none) :
    Shows canonical (tree.discard p).1 := by
  intro key hrep d
  rcases FileTree.discard_cases tree p (keyParts key) with ⟨hsame, hget⟩ | hget
  · rw [hget, hp key hrep hsame]
    simp
  · rw [hget]
    exact h key hrep d

theorem key_of_reported {c key : Str} {d : Data} (hc : c ∈ scanCandidates)
    (hscan : ScannedAt tree c key d) {key' : Str} (hrep : isReplicated key' = true)
    (hpath : keyParts key' = projectionPath key) : key' = key := by
  rcases hscan with ⟨-, rfl⟩ | ⟨-, f, -, -, hnorm⟩
  · have hjoin : join (projectionPath key) = key' := by rw [← hpath, join_keyParts]
    rw [← hjoin]
    exact candidate_of_replicated key hc (by rw [hjoin]; exact hrep)
  · rw [projectionPath_of_normalized hnorm] at hpath
    exact keyParts_injective hpath

theorem Shows.writing (h : Shows canonical tree) (hkeys : NormalizedKeys canonical)
    (range : MapRange Str Data) (es : List (List Str × Data))
    (hes : ∀ e ∈ es, e ∈ projectEntries range canonical) :
      Shows canonical (tree.writeAll es).1 := by
  refine runSteps_keeps (fun e he s hs => ?_) h
  obtain ⟨key, hkey, hpath⟩ := mem_projectEntries.mp (show (e.1, e.2) ∈ _ from hes e he)
  obtain ⟨path, hnorm⟩ := hkeys key (by rw [hkey]; simp)
  rw [← hpath, projectionPath_of_normalized hnorm]
  exact hs.written (normalize_cases hnorm).2 hkey

theorem Shows.removing {existing : Bucket Data} {scanned : Tree Data} (h : Shows canonical tree)
    (hscan : scanReplicatedProjection scanned = .ok existing) (range : MapRange Str Data)
    (ps : List (List Str)) (hps : ∀ p ∈ ps, p ∈ stalePaths range canonical existing) :
    Shows canonical (tree.discardAll ps).1 := by
  refine runSteps_keeps (fun p hp s hs => ?_) h
  obtain ⟨key, hfound, hnone, hpath⟩ := mem_stalePaths.mp (hps p hp)
  obtain ⟨d, hd⟩ := Option.ne_none_iff_exists'.mp hfound
  obtain ⟨c, hc, hscanned⟩ := scanned_of_get hscan hd
  refine hs.discarded fun key' hrep hkey' => ?_
  rw [key_of_reported hc hscanned hrep (hkey'.trans hpath.symm)]
  exact hnone

theorem Shows.reconciled (h : Shows canonical tree) (hkeys : NormalizedKeys canonical)
    (range : MapRange Str Data) : Shows canonical (reconcileProjection range canonical tree).1 := by
  have hwritten := h.writing hkeys range _ fun e he => he
  unfold reconcileProjection
  simp only
  split
  · exact hwritten
  · split
    · exact hwritten
    · next hscan => exact hwritten.removing hscan range _ fun p hp => hp

theorem Shows.projected {root : Str} {ops : List (Operation Data)} (h : Shows canonical tree)
    (hnorm : ∀ op ∈ ops, ∃ path, normalizeReplicatedPath path = .ok op.path)
    (hagree : ∀ op ∈ ops, AgreesWith canonical op) :
    Shows canonical (projectOperations root tree ops).1 := by
  refine runSteps_keeps (fun op hop s hs => ?_) h
  obtain ⟨path, hpath⟩ := hnorm op hop
  have hop' := hagree op hop
  unfold AgreesWith at hop'
  refine projectOperation_keeps hs (fun hput => ?_) fun hdelete => ?_
  · rw [projectionPath_of_normalized hpath]
    rw [hput] at hop'
    exact hs.written (normalize_cases hpath).2 hop'
  · rw [projectionPath_of_normalized hpath]
    rw [hdelete] at hop'
    refine hs.discarded fun key _ hkey => ?_
    rw [keyParts_injective hkey]
    exact hop'

end Shows

/-! ## The whole restart -/

theorem normalizedKeys_of_applyUpTo (C : Codec Payload Data) (log : List Payload) (n : Nat) :
    NormalizedKeys (applyUpTo C log n).canonical := by
  induction n with
  | zero => exact normalizedKeys_empty
  | succ n ih =>
    rw [applyUpTo]
    cases log[n]? with
    | none => exact ih
    | some payload =>
      exact applyLog_keeps (fun _ _ _ _ hdec hc h => h.commits hdec hc) (n + 1) ih

theorem normalized_of_committed {C : Codec Payload Data} {store : Store Data} {index : Nat}
    {payload : Payload} {ops : List (Operation Data)}
    (h : (applyLog C store index payload).2 = .committed ops) :
    ∀ op ∈ ops, ∃ path, normalizeReplicatedPath path = .ok op.path := by
  obtain ⟨command, hdec⟩ := decoded_of_committed h
  exact normalized_of_decodeCommand hdec

section Restart

variable {C : Codec Payload Data} {J : SnapshotJson Data B} {log : List Payload} {n s : Nat}
  {start : Machine Data}

/-- The content of entry `k`, files that show entry `n`. -/
structure RestartInv (C : Codec Payload Data) (log : List Payload) (n s : Nat) (m : Machine Data)
    (k : Nat) : Prop where
  from_snapshot : s ≤ k
  content : m.store.toContent = (applyUpTo C log k).toContent
  applied : m.store.appliedIndex ≤ k
  shows : Shows (applyUpTo C log n).canonical m.tree

theorem RestartInv.outcome {m : Machine Data} {k : Nat} (h : RestartInv C log n s m k)
    (payload : Payload) :
    (applyLog C m.store (k + 1) payload).2 =
      (applyLog C (applyUpTo C log k) (k + 1) payload).2 := by
  have hmark := appliedIndex_applyUpTo_le C log k
  have happlied := h.applied
  exact (applyLog_agree C payload h.content (by omega) (by omega)).1

theorem restartInv_of_startupAt (hagree : SnapshotAgrees C log n s)
    (hshows : Shows (applyUpTo C log n).canonical start.tree) {m : Machine Data} {k : Nat}
    (h : StartupAt C J log n s start m k) : RestartInv C log n s m k := by
  induction h with
  | restored range raw m hsnapshot hrestore =>
    obtain ⟨-, envelope, hdec, hentries, hrevision⟩ := hsnapshot
    obtain ⟨envelope', hdec', hstore, htree, -⟩ := restore_ok hrestore
    rw [hdec] at hdec'
    cases hdec'
    constructor
    · exact Nat.le_refl s
    · rw [hstore]
      show Content.mk envelope.entries envelope.revision = _
      rw [hentries, hrevision]
    · rw [hstore]
      exact Nat.zero_le s
    · rw [htree, hentries, hagree.map]
      exact hshows.reconciled (normalizedKeys_of_applyUpTo C log n) range
  | delivered m k payload _ hk hentry ih =>
    have hmark := appliedIndex_applyUpTo_le C log k
    have happlied := ih.applied
    have hfrom := ih.from_snapshot
    obtain ⟨-, hsame, -⟩ := applyLog_agree C (t := applyUpTo C log k) payload ih.content
      (by omega : m.store.appliedIndex < k + 1) (by omega)
    constructor
    · omega
    · rw [apply_store, hsame, applyUpTo_succ hentry]
    · rw [apply_store]
      rcases applyLog_mark C m.store payload (by omega : k + 1 ≠ 0) with h1 | h1
      · rw [h1]
        omega
      · omega
    · show Shows _ (finishApply m _ (applyLog C m.store (k + 1) payload).2).1.tree
      cases hout : (applyLog C m.store (k + 1) payload).2 with
      | rejected e => exact ih.shows
      | replayed => exact ih.shows
      | conflicted e => exact ih.shows
      | committed ops =>
        refine ih.shows.projected (normalized_of_committed hout) ?_
        rw [ih.outcome] at hout
        exact hagree.operations k payload ops hfrom hk hentry hout

end Restart

/-- **A restart from an agreeing snapshot shows only the durable state**: from `prepareReplay`
    until entry `n` is back, also inside a call, the replicated files are those of entry `n`. -/
theorem startup_shows_durable (C : Codec Payload Data) (J : SnapshotJson Data B)
    (log : List Payload) (n s : Nat) (durable : Machine Data) (hasSnapshots : Bool)
    (store : Store Data)
    (hcontent : durable.store.toContent = (applyUpTo C log n).toContent)
    (hshows : Shows durable.store.canonical durable.tree)
    (hprepare : prepareReplay durable.store hasSnapshots = .ok store)
    (hagree : SnapshotAgrees C log n s) {tree : Tree Data}
    (hmoment : StartupMoment C J log n s { durable with store := store } tree) :
    Shows store.canonical tree := by
  have hcanonical : durable.store.canonical = (applyUpTo C log n).canonical :=
    congrArg Content.canonical hcontent
  have hstore : store.canonical = (applyUpTo C log n).canonical :=
    (congrArg Content.canonical (prepareReplay_eq hprepare).1).trans hcanonical
  have hkeys := normalizedKeys_of_applyUpTo C log n
  rw [hcanonical] at hshows
  rw [hstore]
  have hstart : Shows (applyUpTo C log n).canonical { durable with store := store }.tree := hshows
  have hentries : ∀ {raw : List B} {envelope : Envelope Data}, SnapshotAt C J log s raw →
      decodeSnapshot C J raw = .ok envelope →
      envelope.entries = (applyUpTo C log n).canonical := by
    rintro raw envelope ⟨-, envelope', hdec', hentries, -⟩ hdec
    rw [hdec'] at hdec
    cases hdec
    rw [hentries, hagree.map]
  cases hmoment with
  | started => exact hshows
  | writing range raw envelope done hsnapshot hdecode =>
    rw [hentries hsnapshot hdecode]
    exact hshows.writing hkeys range _ fun e he => List.mem_of_mem_take he
  | removing range raw envelope existing done hsnapshot hdecode hscan =>
    rw [hentries hsnapshot hdecode] at hscan ⊢
    have hwritten := hshows.writing hkeys range _ fun e he => he
    exact hwritten.removing hscan range _ fun p hp => List.mem_of_mem_take hp
  | between m k h => exact (restartInv_of_startupAt hagree hstart h).shows
  | projecting m k payload ops done h hk hentry hcommitted =>
    have hinv := restartInv_of_startupAt hagree hstart h
    have hops := normalized_of_committed hcommitted
    rw [hinv.outcome] at hcommitted
    have hagree' := hagree.operations k payload ops hinv.from_snapshot hk hentry hcommitted
    exact hinv.shows.projected (fun op hop => hops op (List.mem_of_mem_take hop))
      fun op hop => hagree' op (List.mem_of_mem_take hop)

/-! ## Closed instances -/

/-- A Controller joins and its membership record is rewritten unchanged. -/
def rejoinLog : List (Mutation Str) :=
  [putCommand "cluster/controllers/c2.json" "member",
   putCommand "cluster/controllers/c2.json" "member"]

/-- A new machine after two entries. -/
def afterTwo (first second : Mutation Str) : Machine Str :=
  (apply plainCodec (apply plainCodec (Machine.fresh "/state") 1 first).1 2 second).1

theorem afterTwo_store (first second : Mutation Str) :
    (afterTwo first second).store = applyUpTo plainCodec [first, second] 2 := by
  rw [afterTwo, apply_store, apply_store]
  rfl

/-- The snapshot of the state after one entry of a log. -/
def snapshotAtOne (log : List (Mutation Str)) : List (Envelope Str) :=
  plainJson.marshal (snapshotEnvelope plainCodec plainJson (applyUpTo plainCodec log 1))

/-- The machine after both entries of `rejoinLog`. -/
def rejoined : Machine Str :=
  afterTwo (putCommand "cluster/controllers/c2.json" "member")
    (putCommand "cluster/controllers/c2.json" "member")

theorem shows_rejoin : Shows rejoined.store.canonical rejoined.tree := by
  have hlist : rejoined.store.canonical.toList =
      [("cluster/controllers/c2.json".toList, "member".toList)] := by decide +kernel
  have hfiles : rejoined.tree.files =
      [(keyParts "cluster/controllers/c2.json", "member".toList)] := by decide +kernel
  intro key _ d
  rw [← FileTree.mem_files, hfiles, ← SortedMap.mem_toList, hlist, List.mem_singleton,
    List.mem_singleton, Prod.mk.injEq, Prod.mk.injEq, keyParts_injective.eq_iff]

/-- The snapshot after the first write shows the record throughout. -/
theorem startup_shows_durable_rejoin :
    ∃ store, prepareReplay rejoined.store true = .ok store ∧
      ∀ tree, StartupMoment plainCodec plainJson rejoinLog 2 1
        { rejoined with store := store } tree → Shows store.canonical tree := by
  refine ⟨_, prepareReplay_of_snapshots _, fun tree hmoment => ?_⟩
  refine startup_shows_durable plainCodec plainJson rejoinLog 2 1 _ true _
    (congrArg Store.toContent (afterTwo_store _ _)) shows_rejoin (prepareReplay_of_snapshots _)
    ⟨by decide +kernel, ?_⟩ hmoment
  intro k payload ops hle hlt hentry hcommitted
  obtain rfl : k = 1 := by omega
  cases hentry
  obtain ⟨command, hdec⟩ := decoded_of_committed hcommitted
  rw [decodeCommand_put _ (by decide +kernel)] at hdec
  cases hdec
  have hvalue : (applyUpTo plainCodec rejoinLog 2).canonical[
      "cluster/controllers/c2.json".toList]? = some "member".toList := by decide +kernel
  intro op hop
  obtain rfl := List.mem_singleton.mp hop
  exact hvalue

/-- A Controller joins and is removed. -/
def revokeLog : List (Mutation Str) :=
  [putCommand "cluster/controllers/c2.json" "member", deleteCommand "cluster/controllers/c2.json"]

/-- The machine after both entries of `revokeLog`. -/
def revokedMachine : Machine Str :=
  afterTwo (putCommand "cluster/controllers/c2.json" "member")
    (deleteCommand "cluster/controllers/c2.json")

/-- Right after `Restore` of the snapshot taken before the removal. -/
def restartedMachine : Machine Str × Option RestoreError :=
  restore plainCodec plainJson MapRange.sorted revokedMachine.started (snapshotAtOne revokeLog)

/-- **The removed Controller is a member again on disk**, while the revision is below the recorded
    one. -/
theorem restart_exposes_revoked :
    prepareReplay revokedMachine.store true = .ok revokedMachine.started.store ∧
    revokedMachine.store.canonical.toList = [] ∧ revokedMachine.tree.files = [] ∧
    restartedMachine.2 = none ∧ restartedMachine.1.store.revision = 1 ∧
    restartedMachine.1.store.revisionFloor = 2 ∧
    restartedMachine.1.tree.files =
      [(keyParts "cluster/controllers/c2.json", "member".toList)] :=
  ⟨prepareReplay_of_snapshots _, by decide +kernel⟩

end Bpc.Controlplane
