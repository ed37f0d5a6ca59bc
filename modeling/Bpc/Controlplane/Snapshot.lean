/-
  SNAPSHOTS — `Snapshot`, `ExportSnapshot` and `Restore` (fsm.go).

  Restoring a snapshot of a reachable state fails for three reasons, and `Restorable` is their
  absence: a key that does not normalise AGAIN, an envelope over the read limit of 128 MiB, a
  projection that the tree or the file system refuses.  The checksum and Bolt's limits never reject
  one.
-/
import Bpc.Controlplane.Representation

namespace Bpc.Controlplane

open SlashPath

variable {Payload Data B : Type}

/-! ## The envelope -/

/-- `snapshotEnvelope`. -/
structure Envelope (Data : Type) where
  version : Int
  schemaVersion : UInt64
  revision : UInt64
  entries : Bucket Data
  checksum : Str

/-- `encoding/json` at the envelope: decoding inverts encoding, and a proper prefix of an object is
    no object. -/
structure SnapshotJson (Data B : Type) where
  marshal : Envelope Data → List B
  unmarshal : List B → Except Str (Envelope Data)
  /-- The `cluster_id` of a cluster record. -/
  unmarshalClusterID : Data → Except Str Str
  sha256Text : Str → Str
  unmarshal_marshal : ∀ e, unmarshal (marshal e) = .ok e
  unmarshal_truncated : ∀ e n, n < (marshal e).length →
    ∃ error, unmarshal ((marshal e).take n) = .error error

/-- A number in decimal. -/
def decimal (n : UInt64) : Str := (Nat.repr n.toNat).toList

/-- The text `snapshotChecksum` feeds to SHA-256. -/
def snapshotText (C : Codec Payload Data) (schema revision : UInt64)
    (entries : Bucket Data) : Str :=
  "schema=" ++ decimal schema ++ "\nrevision=" ++ decimal revision ++ ['\n'] ++
    entries.toList.flatMap fun e => e.1 ++ [Char.ofNat 0] ++ C.sha256Hex e.2 ++ ['\n']

/-- `snapshotChecksum`. -/
def snapshotChecksum (C : Codec Payload Data) (J : SnapshotJson Data B) (schema revision : UInt64)
    (entries : Bucket Data) : Str :=
  J.sha256Text (snapshotText C schema revision entries)

/-- The envelope of a database. -/
def snapshotEnvelope (C : Codec Payload Data) (J : SnapshotJson Data B) (store : Store Data) :
    Envelope Data where
  version := 1
  schemaVersion := store.schema
  revision := store.revision
  entries := store.canonical
  checksum := snapshotChecksum C J store.schema store.revision store.canonical

/-- `checkSnapshotRevisionFloor`. -/
def checkSnapshotRevisionFloor (store : Store Data) : Except Str Unit :=
  if store.revision < store.revisionFloor then
    .error ("cannot snapshot canonical revision " ++ decimal store.revision ++
      " below preserved floor " ++ decimal store.revisionFloor)
  else .ok ()

/-- `ExportSnapshot`, and the bytes of `Snapshot`. -/
def exportSnapshot (C : Codec Payload Data) (J : SnapshotJson Data B) (store : Store Data) :
    Except Str (List B) :=
  match checkSnapshotRevisionFloor store with
  | .error e => .error e
  | .ok () => .ok (J.marshal (snapshotEnvelope C J store))

/-! ## Restoring -/

/-- The limit of the `io.LimitReader`. -/
def maxSnapshotBytes : Nat := 128 * 1024 * 1024

/-- The schema and the checksum of a decoded envelope. -/
def checkEnvelope (C : Codec Payload Data) (J : SnapshotJson Data B) (envelope : Envelope Data) :
    Except Str (Envelope Data) :=
  if envelope.version ≠ 1 ∨ controlSchemaVersion < envelope.schemaVersion then
    .error "incompatible canonical snapshot schema"
  else if snapshotChecksum C J envelope.schemaVersion envelope.revision envelope.entries ≠
      envelope.checksum then
    .error "canonical snapshot checksum mismatch"
  else .ok envelope

/-- The envelope that `Restore` reads. -/
def decodeSnapshot (C : Codec Payload Data) (J : SnapshotJson Data B) (raw : List B) :
    Except Str (Envelope Data) :=
  match J.unmarshal (raw.take maxSnapshotBytes) with
  | .error e => .error e
  | .ok envelope => checkEnvelope C J envelope

/-- The path check; the normalised path itself is not used. -/
def checkPaths : List (Str × Data) → Except Str Unit
  | [] => .ok ()
  | (path, _) :: rest =>
    match normalizeReplicatedPath path with
    | .error e => .error e
    | .ok _ => checkPaths rest

/-- The loop of `Restore` over the entries. -/
def putEntries (C : Codec Payload Data) : List (Str × Data) → Bucket Data → Except Str (Bucket Data)
  | [], bucket => .ok bucket
  | (path, data) :: rest, bucket =>
    match boltPut C bucket path data with
    | .error e => .error e
    | .ok next => putEntries C rest next

/-- The transaction of `Restore`. -/
def restoreTx (C : Codec Payload Data) (range : MapRange Str Data) (envelope : Envelope Data)
    (store : Store Data) : Except Str (Store Data) :=
  match checkPaths (range.list envelope.entries) with
  | .error e => .error e
  | .ok () =>
    match putEntries C envelope.entries.toList ∅ with
    | .error e => .error e
    | .ok canonical =>
      .ok
        { canonical
          revision := envelope.revision
          schema := envelope.schemaVersion
          appliedIndex := 0
          revisionFloor := store.revisionFloor }

/-- `Restore` fails before or in the transaction, or in the projection. -/
inductive RestoreError where
  | rejected (error : Str)
  | projection (error : FsError)
  deriving DecidableEq

/-- `Restore`. -/
def restore (C : Codec Payload Data) (J : SnapshotJson Data B) (range : MapRange Str Data)
    (m : Machine Data) (raw : List B) : Machine Data × Option RestoreError :=
  match decodeSnapshot C J raw with
  | .error e => (m, some (.rejected e))
  | .ok envelope =>
    match restoreTx C range envelope m.store with
    | .error e => (m, some (.rejected e))
    | .ok store =>
      let reconciled := reconcileProjection range store.canonical m.tree
      ({ m with store, tree := reconciled.1 }, reconciled.2.map .projection)

/-! ## The transaction -/

theorem checkPaths_ok_iff : ∀ {entries : List (Str × Data)},
    checkPaths entries = .ok () ↔
      ∀ e ∈ entries, ∃ key, normalizeReplicatedPath e.1 = .ok key
  | [] => by simp [checkPaths]
  | (path, data) :: rest => by
    rw [checkPaths, List.forall_mem_cons, ← checkPaths_ok_iff]
    cases normalizeReplicatedPath path with
    | error e => simp
    | ok key => simp

/-- Bolt accepts the key and the value. -/
def Bounded (C : Codec Payload Data) (key : Str) (data : Data) : Prop :=
  utf8Len key ≤ maxKeySize ∧ C.dataLen data ≤ maxValueSize

variable {C : Codec Payload Data}

theorem boltPut_ok_iff {bucket : Bucket Data} {key : Str} {data : Data} :
    (∃ next, boltPut C bucket key data = .ok next) ↔ Bounded C key data := by
  unfold boltPut Bounded
  by_cases hk : maxKeySize < utf8Len key
  · rw [if_pos hk]
    constructor
    · rintro ⟨next, h⟩
      cases h
    · rintro ⟨h, -⟩
      omega
  · by_cases hv : maxValueSize < C.dataLen data
    · rw [if_neg hk, if_pos hv]
      constructor
      · rintro ⟨next, h⟩
        cases h
      · rintro ⟨-, h⟩
        omega
    · rw [if_neg hk, if_neg hv]
      exact ⟨fun _ => ⟨by omega, by omega⟩, fun _ => ⟨_, rfl⟩⟩

theorem putEntries_eq : ∀ {entries : List (Str × Data)}
    {bucket : Bucket Data}, (∀ e ∈ entries, Bounded C e.1 e.2) →
      putEntries C entries bucket = .ok (SortedMap.insertPairs bucket entries)
  | [], _, _ => rfl
  | (path, data) :: rest, bucket, h => by
    obtain ⟨next, hput⟩ := boltPut_ok_iff.mpr (h _ (List.mem_cons_self ..))
    rw [putEntries, hput]
    have hnext : next = bucket.insert path data := boltPut_eq hput
    simp only [hnext]
    exact putEntries_eq fun e he => h e (List.mem_cons_of_mem _ he)

theorem eq_of_putEntries : ∀ {entries : List (Str × Data)}
    {bucket next : Bucket Data}, putEntries C entries bucket = .ok next →
      next = SortedMap.insertPairs bucket entries
  | [], _, _, h => by
    cases h
    rfl
  | (path, data) :: rest, bucket, next, h => by
    rw [putEntries] at h
    cases hput : boltPut C bucket path data with
    | error e => rw [hput] at h; cases h
    | ok mid =>
      rw [hput] at h
      have hmid : mid = bucket.insert path data := boltPut_eq hput
      rw [eq_of_putEntries h, hmid]
      rfl

/-- The database after a `Restore`. -/
def restoredStore (envelope : Envelope Data) (store : Store Data) : Store Data where
  canonical := envelope.entries
  revision := envelope.revision
  schema := envelope.schemaVersion
  appliedIndex := 0
  revisionFloor := store.revisionFloor

variable {range : MapRange Str Data}

theorem restoreTx_eq {envelope : Envelope Data} {store store' : Store Data}
    (h : restoreTx C range envelope store = .ok store') :
    store' = restoredStore envelope store := by
  unfold restoreTx at h
  split at h
  · cases h
  · split at h
    · cases h
    · next canonical hput =>
      cases h
      rw [restoredStore, eq_of_putEntries hput, SortedMap.insertPairs_toList]

/-- **What a successful `Restore` did.** -/
theorem restore_ok {J : SnapshotJson Data B} {m m' : Machine Data} {raw : List B}
    (h : restore C J range m raw = (m', none)) :
    ∃ envelope, decodeSnapshot C J raw = .ok envelope ∧
      m'.store = restoredStore envelope m.store ∧
      m'.tree = (reconcileProjection range envelope.entries m.tree).1 ∧ m'.root = m.root := by
  unfold restore at h
  cases hdec : decodeSnapshot C J raw with
  | error e => rw [hdec] at h; cases h
  | ok envelope =>
    simp only [hdec] at h
    cases htx : restoreTx C range envelope m.store with
    | error e => rw [htx] at h; cases h
    | ok store =>
      simp only [htx, Prod.mk.injEq, Option.map_eq_none_iff] at h
      obtain ⟨rfl, -⟩ := h
      have hstore := restoreTx_eq htx
      refine ⟨envelope, rfl, hstore, ?_, rfl⟩
      rw [hstore]
      rfl

/-! ## What is true of every reachable database -/

theorem normalized_of_normalizeOps : ∀ {ops normalized : List (Operation Data)},
    normalizeOps ops = .ok normalized →
      ∀ op ∈ normalized, ∃ path, normalizeReplicatedPath path = .ok op.path
  | [], normalized, h => by
    cases h
    simp
  | op :: ops, normalized, h => by
    rw [normalizeOps] at h
    cases hpath : normalizeReplicatedPath op.path with
    | error e => simp only [hpath] at h; cases h
    | ok path =>
      cases hrest : normalizeOps ops with
      | error e =>
        simp only [hpath, hrest] at h
        split at h <;> cases h
      | ok rest =>
        simp only [hpath, hrest] at h
        split at h
        · cases h
        · cases h
          intro o ho
          rcases List.mem_cons.mp ho with rfl | ho
          · exact ⟨op.path, hpath⟩
          · exact normalized_of_normalizeOps hrest o ho

theorem normalized_of_decodeCommand {payload : Payload} {command : Mutation Data}
    {ops : List (Operation Data)} (h : decodeCommand C payload = .ok (command, ops)) :
    ∀ op ∈ ops, ∃ path, normalizeReplicatedPath path = .ok op.path := by
  unfold decodeCommand at h
  split at h
  · cases h
  · split at h
    · cases h
    · split at h
      · cases h
      · next hnorm =>
        cases h
        exact normalized_of_normalizeOps hnorm

theorem NormalizedKeys.commits {content content' : Content Data} {command : Mutation Data}
    {ops : List (Operation Data)} {payload : Payload}
    (hdec : decodeCommand C payload = .ok (command, ops))
    (hc : Commits C content command ops content') (hkeys : NormalizedKeys content.canonical) :
    NormalizedKeys content'.canonical := by
  intro key hkey
  obtain ⟨v, hv⟩ := Option.ne_none_iff_exists'.mp hkey
  rw [hc.canonical] at hv
  rcases key_of_applyOps hv with hold | ⟨op, hop, -, hpath, -⟩
  · exact hkeys key (by rw [hold]; simp)
  · exact hpath ▸ normalized_of_decodeCommand hdec op hop

theorem normalizedKeys_empty : NormalizedKeys (Store.empty : Store Data).canonical :=
  fun key hkey => absurd (SortedMap.get_empty key) hkey

theorem normalizedKeys_of_applyAll (C : Codec Payload Data) (logs : List (Nat × Payload)) :
    NormalizedKeys (applyAll C Store.empty logs).canonical :=
  applyAll_induction (fun _ _ _ _ _ hdec hc h => h.commits hdec hc) logs normalizedKeys_empty

/-- All entries are within Bolt's limits. -/
def BoundedEntries (C : Codec Payload Data) (bucket : Bucket Data) : Prop :=
  ∀ (key : Str) (v : Data), bucket[key]? = some v → Bounded C key v

theorem BoundedEntries.commitOps :
    ∀ {ops : List (Operation Data)} {bucket bucket' : Bucket Data}, BoundedEntries C bucket →
      commitOps C ops bucket = .ok bucket' → BoundedEntries C bucket'
  | [], bucket, bucket', h, hc => by
    cases hc
    exact h
  | op :: ops, bucket, bucket', h, hc => by
    rw [Controlplane.commitOps] at hc
    cases hop : op.op with
    | put =>
      simp only [hop] at hc
      cases hput : boltPut C bucket op.path op.data with
      | error e => simp only [hput] at hc; cases hc
      | ok next =>
        simp only [hput] at hc
        have hbound := boltPut_ok_iff.mp ⟨next, hput⟩
        have hnext : next = bucket.insert op.path op.data := boltPut_eq hput
        have hbounded : BoundedEntries C next := by
          intro key v hv
          rw [hnext, SortedMap.get_insert] at hv
          split at hv
          · next hkey =>
            cases hv
            rwa [← hkey]
          · exact h key v hv
        exact BoundedEntries.commitOps hbounded hc
    | delete =>
      simp only [hop] at hc
      refine BoundedEntries.commitOps (fun key v hv => ?_) hc
      rw [SortedMap.get_erase] at hv
      split at hv
      · cases hv
      · exact h key v hv
    | unsupported text =>
      simp only [hop] at hc
      exact BoundedEntries.commitOps h hc

theorem boundedEntries_of_applyAll (C : Codec Payload Data) (logs : List (Nat × Payload)) :
    BoundedEntries C (applyAll C Store.empty logs).canonical := by
  refine applyAll_induction (fun content command ops content' payload _ hc h => ?_) logs
    fun key v hv => ?_
  · exact BoundedEntries.commitOps h hc.written
  · rw [show Store.empty.canonical[key]? = none from SortedMap.get_empty key] at hv
    cases hv

theorem schema_floor_of_applyAll (C : Codec Payload Data) : ∀ (logs : List (Nat × Payload))
    {store : Store Data}, store.schema ≤ controlSchemaVersion ∧ store.revisionFloor = 0 →
      (applyAll C store logs).schema ≤ controlSchemaVersion ∧
        (applyAll C store logs).revisionFloor = 0
  | [], _, h => h
  | log :: logs, store, h => by
    show (applyAll C (applyLog C store log.1 log.2).1 logs).schema ≤ _ ∧ _
    apply schema_floor_of_applyAll C logs
    rcases applyLog_cases C store log.1 log.2 with hs | ⟨e, hs, -⟩ | ⟨ops, store', hs, hc⟩
    · rwa [hs]
    · rwa [hs]
    · rw [hs]
      exact ⟨UInt64.le_of_eq hc.schema, by rw [hc.floor]; exact h.2⟩

/-! ## The round trip -/

/-- What a snapshot of `store` needs to be restored on `m`. -/
structure Restorable (C : Codec Payload Data) (J : SnapshotJson Data B) (store : Store Data)
    (m : Machine Data) : Prop where
  /-- Every stored key passes the normaliser a second time. -/
  renormalizes : ∀ key, store.canonical[key]? ≠ none →
    ∃ path, normalizeReplicatedPath key = .ok path
  /-- The envelope fits the read limit. -/
  fits : (J.marshal (snapshotEnvelope C J store)).length ≤ maxSnapshotBytes
  /-- The projection can be reconciled over the tree that is there. -/
  projects : Reconcilable store.canonical m.tree

section RoundTrip

variable {C : Codec Payload Data} {J : SnapshotJson Data B} {store : Store Data}

theorem exportSnapshot_eq (hfloor : store.revisionFloor = 0) :
    exportSnapshot C J store = .ok (J.marshal (snapshotEnvelope C J store)) := by
  have hle : ¬ store.revision < store.revisionFloor := by
    rw [hfloor]
    exact UInt64.not_lt.mpr UInt64.zero_le
  unfold exportSnapshot checkSnapshotRevisionFloor
  rw [if_neg hle]

theorem decodeSnapshot_marshal (hschema : store.schema ≤ controlSchemaVersion) :
    (∃ envelope, decodeSnapshot C J (J.marshal (snapshotEnvelope C J store)) = .ok envelope) ↔
      (J.marshal (snapshotEnvelope C J store)).length ≤ maxSnapshotBytes := by
  constructor
  · rintro ⟨envelope, h⟩
    by_contra hlong
    have hlen : maxSnapshotBytes < (J.marshal (snapshotEnvelope C J store)).length := by omega
    obtain ⟨e, he⟩ := J.unmarshal_truncated _ _ hlen
    unfold decodeSnapshot at h
    rw [he] at h
    cases h
  · intro hfits
    refine ⟨snapshotEnvelope C J store, ?_⟩
    unfold decodeSnapshot
    rw [List.take_of_length_le hfits, J.unmarshal_marshal]
    have hversion : ¬ ((snapshotEnvelope C J store).version ≠ 1 ∨
        controlSchemaVersion < (snapshotEnvelope C J store).schemaVersion) := by
      rintro (h | h)
      · exact h rfl
      · exact UInt64.not_lt.mpr hschema h
    show checkEnvelope C J (snapshotEnvelope C J store) = _
    rw [checkEnvelope, if_neg hversion]
    exact if_neg fun h => h rfl

theorem checkEnvelope_eq {envelope checked : Envelope Data}
    (h : checkEnvelope C J envelope = .ok checked) : checked = envelope := by
  unfold checkEnvelope at h
  split at h
  · cases h
  · split at h
    · cases h
    · cases h
      rfl

theorem decodeSnapshot_marshal_eq {envelope : Envelope Data}
    (h : decodeSnapshot C J (J.marshal (snapshotEnvelope C J store)) = .ok envelope) :
    envelope = snapshotEnvelope C J store := by
  unfold decodeSnapshot at h
  by_cases hfits : (J.marshal (snapshotEnvelope C J store)).length ≤ maxSnapshotBytes
  · rw [List.take_of_length_le hfits, J.unmarshal_marshal] at h
    exact checkEnvelope_eq h
  · have hlen : maxSnapshotBytes < (J.marshal (snapshotEnvelope C J store)).length := by omega
    obtain ⟨e, he⟩ := J.unmarshal_truncated _ _ hlen
    rw [he] at h
    cases h

theorem restoreTx_ok_iff {target : Store Data} (hbounded : BoundedEntries C store.canonical) :
    (∃ store', restoreTx C range (snapshotEnvelope C J store) target = .ok store') ↔
      ∀ key, store.canonical[key]? ≠ none → ∃ path, normalizeReplicatedPath key = .ok path := by
  have hput : putEntries C (snapshotEnvelope C J store).entries.toList ∅ = _ :=
    putEntries_eq fun e he => hbounded e.1 e.2 (SortedMap.mem_toList.mp he)
  have hpaths : checkPaths (range.list (snapshotEnvelope C J store).entries) = .ok () ↔
      ∀ key, store.canonical[key]? ≠ none → ∃ path, normalizeReplicatedPath key = .ok path := by
    rw [checkPaths_ok_iff]
    constructor
    · intro h key hkey
      obtain ⟨v, hv⟩ := Option.ne_none_iff_exists'.mp hkey
      exact h (key, v) (MapRange.mem_list.mpr hv)
    · rintro h ⟨key, v⟩ he
      exact h key (by rw [show store.canonical[key]? = some v from MapRange.mem_list.mp he]; simp)
  rw [← hpaths]
  unfold restoreTx
  rw [hput]
  cases checkPaths (range.list (snapshotEnvelope C J store).entries) with
  | error e => simp
  | ok u => simp

theorem restore_marshal_iff (m : Machine Data) (hkeys : NormalizedKeys store.canonical)
    (hbounded : BoundedEntries C store.canonical) (hschema : store.schema ≤ controlSchemaVersion) :
    (∀ range, (restore C J range m (J.marshal (snapshotEnvelope C J store))).2 = none) ↔
      Restorable C J store m := by
  have hdecode : ∀ envelope,
      decodeSnapshot C J (J.marshal (snapshotEnvelope C J store)) = .ok envelope →
      envelope = snapshotEnvelope C J store := fun envelope => decodeSnapshot_marshal_eq
  constructor
  · intro h
    -- what success in one order says, for every order
    have hinv : ∀ range, (∃ envelope, decodeSnapshot C J (J.marshal (snapshotEnvelope C J store)) =
          .ok envelope) ∧
        (∃ store', restoreTx C range (snapshotEnvelope C J store) m.store = .ok store') ∧
        (reconcileProjection range store.canonical m.tree).2 = none := by
      intro range
      have hr := h range
      unfold restore at hr
      cases hdec : decodeSnapshot C J (J.marshal (snapshotEnvelope C J store)) with
      | error e => rw [hdec] at hr; cases hr
      | ok envelope =>
        obtain rfl := hdecode envelope hdec
        simp only [hdec] at hr
        cases htx : restoreTx C range (snapshotEnvelope C J store) m.store with
        | error e => rw [htx] at hr; cases hr
        | ok store' =>
          simp only [htx, Option.map_eq_none_iff] at hr
          rw [restoreTx_eq htx] at hr
          exact ⟨⟨_, rfl⟩, ⟨store', rfl⟩, hr⟩
    exact
      { renormalizes := (restoreTx_ok_iff hbounded).mp (hinv MapRange.sorted).2.1
        fits := (decodeSnapshot_marshal hschema).mp (hinv MapRange.sorted).1
        projects := (reconcile_ok_iff hkeys).mp fun range => (hinv range).2.2 }
  · intro h range
    obtain ⟨envelope, hdec⟩ := (decodeSnapshot_marshal hschema).mpr h.fits
    obtain rfl := hdecode envelope hdec
    have hcommits : ∃ store', restoreTx C range (snapshotEnvelope C J store) m.store = .ok store' :=
      (restoreTx_ok_iff hbounded).mpr h.renormalizes
    obtain ⟨store', htx⟩ := hcommits
    unfold restore
    simp only [hdec, htx, Option.map_eq_none_iff]
    rw [restoreTx_eq htx]
    exact (reconcile_ok_iff hkeys).mpr h.projects range

end RoundTrip

/-- **Snapshots round-trip exactly for restorable states**: accepted in every order, with the same
    map and revision, iff the state is `Restorable` on that machine. -/
theorem snapshot_restores_iff (C : Codec Payload Data) (J : SnapshotJson Data B)
    (logs : List (Nat × Payload)) (m : Machine Data) :
    (∃ raw, exportSnapshot C J (applyAll C Store.empty logs) = .ok raw ∧
      ∀ range, (restore C J range m raw).2 = none ∧
        (restore C J range m raw).1.store.canonical = (applyAll C Store.empty logs).canonical ∧
        (restore C J range m raw).1.store.revision = (applyAll C Store.empty logs).revision) ↔
      Restorable C J (applyAll C Store.empty logs) m := by
  have hkeys := normalizedKeys_of_applyAll C logs
  have hbounded := boundedEntries_of_applyAll C logs
  have hstart : (Store.empty : Store Data).schema ≤ controlSchemaVersion ∧
      (Store.empty : Store Data).revisionFloor = 0 := ⟨UInt64.zero_le, rfl⟩
  obtain ⟨hschema, hfloor⟩ := schema_floor_of_applyAll C logs hstart
  rw [← restore_marshal_iff m hkeys hbounded hschema, exportSnapshot_eq hfloor]
  constructor
  · rintro ⟨raw, hraw, h⟩ range
    cases hraw
    exact (h range).1
  · intro h
    refine ⟨_, rfl, fun range => ⟨h range, ?_⟩⟩
    obtain ⟨envelope, hdec, hstore, -, -⟩ := restore_ok (Prod.ext rfl (h range))
    rw [hstore, decodeSnapshot_marshal_eq hdec]
    exact ⟨rfl, rfl⟩

/-- One byte per envelope. -/
def envelopeJson (clusterID : Data → Str) : SnapshotJson Data (Envelope Data) where
  marshal envelope := [envelope]
  unmarshal
    | [envelope] => .ok envelope
    | _ => .error "unexpected end of JSON input"
  unmarshalClusterID data := .ok (clusterID data)
  sha256Text text := text
  unmarshal_marshal _ := rfl
  unmarshal_truncated := by
    intro e n hn
    obtain rfl : n = 0 := by
      have hlen : [e].length = 1 := rfl
      omega
    exact ⟨_, rfl⟩

/-- Records are texts, and the text of a cluster record is its id. -/
def plainJson : SnapshotJson Str (Envelope Str) := envelopeJson id

/-- A Device and a Node are put, and the Device is replaced. -/
def deviceLogs : List (Nat × Mutation Str) :=
  [(1, putCommand "control/devices/a.json" "1"), (2, putCommand "control/nodes/n.json" "2"),
   (3, putCommand "control/devices/a.json" "3")]

/-- A machine that has projected another Device. -/
def otherMachine : Machine Str :=
  runEvents plainCodec (Machine.fresh "/other") [.apply 1 (putCommand "control/devices/b.json" "4")]

/-- The paths of both. -/
def devicePaths : List Str :=
  ["control/devices/a.json", "control/nodes/n.json", "control/devices/b.json"]

/-- Two entries round-trip to a machine with a record of its own. -/
theorem snapshot_of_device_restores :
    (applyAll plainCodec Store.empty deviceLogs).canonical.toList.length = 2 ∧
    otherMachine.tree.files.length = 1 ∧
    ∃ raw, exportSnapshot plainCodec plainJson (applyAll plainCodec Store.empty deviceLogs) =
        .ok raw ∧
      ∀ range, (restore plainCodec plainJson range otherMachine raw).2 = none ∧
        (restore plainCodec plainJson range otherMachine raw).1.store.canonical =
          (applyAll plainCodec Store.empty deviceLogs).canonical ∧
        (restore plainCodec plainJson range otherMachine raw).1.store.revision =
          (applyAll plainCodec Store.empty deviceLogs).revision := by
  refine ⟨by decide +kernel, by decide +kernel, ?_⟩
  apply (snapshot_restores_iff plainCodec plainJson deviceLogs otherMachine).mpr
  have hlist : ∀ e ∈ (applyAll plainCodec Store.empty deviceLogs).canonical.toList,
      e.1 ∈ devicePaths := by decide +kernel
  have hkeys : ∀ key, (applyAll plainCodec Store.empty deviceLogs).canonical[key]? ≠ none →
      key ∈ devicePaths := by
    intro key hkey
    obtain ⟨v, hv⟩ := Option.ne_none_iff_exists'.mp hkey
    exact hlist (key, v) (SortedMap.mem_toList.mpr hv)
  have hpaths : Representable (linuxNames "/other") devicePaths :=
    ⟨by decide +kernel, by decide +kernel, by decide +kernel, by decide +kernel⟩
  have hstart : Shaped (linuxNames "/other") devicePaths (Machine.fresh "/other" : Machine Str) :=
    ⟨treeShape_empty .., fun key hkey => absurd (SortedMap.get_empty key) hkey⟩
  have hother : Shaped (linuxNames "/other") devicePaths otherMachine :=
    hstart.run hpaths (by decide +kernel)
  exact
    { renormalizes := fun key hkey => ⟨key, hpaths.stable key (hkeys key hkey)⟩
      fits := by
        show 1 ≤ maxSnapshotBytes
        decide
      projects := reconcilable_of_shape hpaths hother.tree hkeys }

/-- A blank name: the slash after it is cleaned away. -/
def blankLogs : List (Nat × Mutation Str) := [(1, putCommand "control/devices/ /" "1")]

/-- **A stored key that `Restore` refuses.** -/
theorem snapshot_of_blank_refused :
    (applyAll plainCodec Store.empty blankLogs).canonical.toList =
      [("control/devices/ ".toList, "1".toList)] ∧
    (restore plainCodec plainJson MapRange.sorted (Machine.fresh "/other")
      (plainJson.marshal (snapshotEnvelope plainCodec plainJson
        (applyAll plainCodec Store.empty blankLogs)))).2 =
      some (.rejected "path is not replicated canonical state: control/devices") := by
  decide +kernel

end Bpc.Controlplane
