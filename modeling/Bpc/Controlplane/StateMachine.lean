/-
  THE STATE MACHINE — `StateMachine.Apply` up to the end of its transaction, and `prepareReplay`.

  An entry at or below the watermark changes nothing; otherwise the watermark moves, also on a
  CONFLICT, and an error rolls everything back.  `execute` does not look at the watermark.  All
  results go through `execute_cases` and `applyLog_cases`.
-/
import Bpc.Controlplane.RouteOwnership

namespace Bpc.Controlplane

open SlashPath

variable {Payload Data : Type}

/-! ## The durable state -/

/-- What the log determines: the canonical bucket and the revision. -/
structure Content (Data : Type) where
  canonical : Bucket Data
  revision : UInt64

/-- The Bolt database, without the Raft log and the Raft stable store. -/
structure Store (Data : Type) extends Content Data where
  schema : UInt64
  appliedIndex : Nat
  revisionFloor : UInt64

/-- A database with freshly created buckets. -/
def Store.empty : Store Data where
  canonical := ∅
  revision := 0
  schema := 0
  appliedIndex := 0
  revisionFloor := 0

/-! ## Decoding a command -/

/-- `CommandVersion`. -/
def commandVersion : Int := 1

/-- `ControlSchemaVersion`. -/
def controlSchemaVersion : UInt64 := 1

/-- The kind of a reconciliation. -/
def reconcileKind : Str := "ReconcileRevision"

/-- The checks on the command as a whole. -/
def checkHeader (command : Mutation Data) : Except Str Unit :=
  if command.version ≠ commandVersion ∨ command.id = [] ∨ command.kind = [] then
    .error "unsupported or incomplete mutation"
  else if command.kind = reconcileKind then
    if command.revisionMinimum = 0 ∨ command.operations.length ≠ 0 then
      .error "invalid revision reconciliation"
    else .ok ()
  else if command.revisionMinimum ≠ 0 then
    .error "revision minimum requires administrative reconciliation"
  else .ok ()

/-- The loop that normalises the paths. -/
def normalizeOps : List (Operation Data) → Except Str (List (Operation Data))
  | [] => .ok []
  | op :: ops =>
    match normalizeReplicatedPath op.path with
    | .error e => .error e
    | .ok path =>
      match op.op with
      | .unsupported text => .error ("unsupported operation: " ++ text)
      | _ =>
        match normalizeOps ops with
        | .error e => .error e
        | .ok rest => .ok ({ op with path := path } :: rest)

/-- Everything `Apply` checks before it opens the transaction. -/
def decodeCommand (C : Codec Payload Data) (payload : Payload) :
    Except Str (Mutation Data × List (Operation Data)) :=
  match C.unmarshalMutation payload with
  | .error e => .error ("invalid mutation encoding: " ++ e)
  | .ok command =>
    match checkHeader command with
    | .error e => .error e
    | .ok () =>
      match normalizeOps command.operations with
      | .error e => .error e
      | .ok ops => .ok (command, ops)

/-! ## The transaction -/

/-- The revision after a command. -/
def nextRevision (command : Mutation Data) (revision : UInt64) : Except Str UInt64 :=
  if command.kind = reconcileKind then
    .ok (if revision < command.revisionMinimum then command.revisionMinimum else revision)
  else if revision = UInt64.ofNat (2 ^ 64 - 1) then .error "canonical revision exhausted"
  else .ok (revision + 1)

/-- How the transaction ends. -/
inductive Execution (Data : Type) where
  | failed (error : Str)
  | conflict (error : Str)
  | committed (content : Content Data)

/-- The first conflict: preconditions, then the route validator. -/
def firstConflict (C : Codec Payload Data) (canonical : Bucket Data)
    (ops : List (Operation Data)) : Option Str :=
  (ops.findSome? (precondition C canonical)).or (validateRouteOwnershipInvariant C canonical ops)

/-- The transaction on the replicated content. -/
def execute (C : Codec Payload Data) (content : Content Data) (command : Mutation Data)
    (ops : List (Operation Data)) : Execution Data :=
  match firstConflict C content.canonical ops with
  | some error => .conflict error
  | none =>
    match nextRevision command content.revision with
    | .error e => .failed e
    | .ok revision =>
      match commitOps C ops content.canonical with
      | .error e => .failed e
      | .ok canonical => .committed { canonical, revision }

/-- How an entry ends. -/
inductive Outcome (Data : Type) where
  | rejected (error : Str)
  | replayed
  | conflicted (error : Str)
  | committed (ops : List (Operation Data))

/-- The watermark after an entry. -/
def watermark (store : Store Data) (index : Nat) : Nat :=
  if index = 0 then store.appliedIndex else index

/-- The Bolt transaction of `Apply`. -/
def applyCommand (C : Codec Payload Data) (store : Store Data) (index : Nat)
    (command : Mutation Data) (ops : List (Operation Data)) : Store Data × Outcome Data :=
  if index ≠ 0 ∧ index ≤ store.appliedIndex then (store, .replayed)
  else
    match execute C store.toContent command ops with
    | .failed e => (store, .rejected e)
    | .conflict e => ({ store with appliedIndex := watermark store index }, .conflicted e)
    | .committed content =>
      ({ content with
          schema := controlSchemaVersion
          appliedIndex := watermark store index
          revisionFloor := store.revisionFloor }, .committed ops)

/-- `Apply`, up to the end of the transaction. -/
def applyLog (C : Codec Payload Data) (store : Store Data) (index : Nat) (payload : Payload) :
    Store Data × Outcome Data :=
  match decodeCommand C payload with
  | .error e => (store, .rejected e)
  | .ok (command, ops) => applyCommand C store index command ops

/-- The text of `ErrLegacyReplayUnsafe`. -/
def errLegacyReplayUnsafe : Str :=
  "legacy canonical state has no applied index and no Raft snapshot; " ++
    "automatic replay is unsafe; " ++
    "preserve the DB and use a verified migration checkpoint"

/-- `prepareReplay` records the revision floor. -/
def prepareReplay (store : Store Data) (hasSnapshots : Bool) : Except Str (Store Data) :=
  if store.appliedIndex = 0 ∧ (store.revision ≠ 0 ∨ store.canonical.isEmpty = false) ∧
      hasSnapshots = false then
    .error errLegacyReplayUnsafe
  else .ok { store with revisionFloor := max store.revisionFloor store.revision }

/-! ## Closed instances -/

/-- Payloads are commands, values are texts with themselves as digest. -/
def plainCodec : Codec (Mutation Str) Str where
  unmarshalMutation command := .ok command
  unmarshalRoute _ := none
  unmarshalNode _ := none
  sha256Hex text := text
  dataLen text := utf8Len text

/-- One put. -/
def putCommand (path data : Str) : Mutation Str where
  version := commandVersion
  id := "m"
  kind := "Put"
  operations := [⟨.put, path, data, false, false, []⟩]
  revisionMinimum := 0

theorem decodeCommand_put {path : Str} (data : Str) (h : StablePath path) :
    decodeCommand plainCodec (putCommand path data) =
      .ok (putCommand path data, (putCommand path data).operations) := by
  have hheader : checkHeader (putCommand path data) = .ok () := rfl
  have hops : normalizeOps (putCommand path data).operations =
      .ok (putCommand path data).operations := by
    show normalizeOps [⟨.put, path, data, false, false, []⟩] = _
    rw [normalizeOps, show normalizeReplicatedPath path = .ok path from h]
    rfl
  have hdecode : plainCodec.unmarshalMutation (putCommand path data) = .ok (putCommand path data) :=
    rfl
  unfold decodeCommand
  simp only [hdecode, hheader, hops]

/-- One delete. -/
def deleteCommand (path : Str) : Mutation Str where
  version := commandVersion
  id := "m"
  kind := "Delete"
  operations := [⟨.delete, path, [], false, false, []⟩]
  revisionMinimum := 0

/-! ## Revisions -/

theorem max64_eq (a b : UInt64) : max a b = if a ≤ b then b else a := rfl

theorem le_max64_left (a b : UInt64) : a ≤ max a b := by
  rw [max64_eq]
  split
  · assumption
  · exact UInt64.le_refl a

theorem le_max64_right (a b : UInt64) : b ≤ max a b := by
  rw [max64_eq]
  split
  · exact UInt64.le_refl b
  · next h => exact UInt64.le_of_lt (UInt64.not_le.mp h)

variable {command : Mutation Data} {revision next : UInt64}

theorem nextRevision_reconcile (h : nextRevision command revision = .ok next)
    (hkind : command.kind = reconcileKind) : next = max revision command.revisionMinimum := by
  unfold nextRevision at h
  rw [if_pos hkind] at h
  rw [← Except.ok.inj h, max64_eq]
  split
  · next hlt => rw [if_pos (UInt64.le_of_lt hlt)]
  · next hge =>
    split
    · next hle => exact UInt64.le_antisymm hle (UInt64.not_lt.mp hge)
    · rfl

theorem nextRevision_succ (h : nextRevision command revision = .ok next)
    (hkind : command.kind ≠ reconcileKind) : next.toNat = revision.toNat + 1 := by
  unfold nextRevision at h
  rw [if_neg hkind] at h
  split at h
  · cases h
  · next hmax =>
    cases h
    -- below the largest value the addition does not wrap
    have hlt := revision.toNat_lt
    have hne : revision.toNat ≠ 2 ^ 64 - 1 := fun heq =>
      hmax (UInt64.toNat_inj.mp (by rw [heq]; rfl))
    rw [UInt64.toNat_add]
    show (revision.toNat + 1) % 2 ^ 64 = revision.toNat + 1
    omega

theorem nextRevision_ge (h : nextRevision command revision = .ok next) : revision ≤ next := by
  by_cases hkind : command.kind = reconcileKind
  · rw [nextRevision_reconcile h hkind]
    exact le_max64_left _ _
  · have hsucc := nextRevision_succ h hkind
    rw [UInt64.le_iff_toNat_le]
    omega

/-! ## Inversion -/

/-- What a committed transaction did. -/
structure Commits (C : Codec Payload Data) (content : Content Data) (command : Mutation Data)
    (ops : List (Operation Data)) (content' : Content Data) : Prop where
  preconditions : ∀ op ∈ ops, precondition C content.canonical op = none
  routes : validateRouteOwnershipInvariant C content.canonical ops = none
  written : commitOps C ops content.canonical = .ok content'.canonical
  revision : nextRevision command content.revision = .ok content'.revision

variable {C : Codec Payload Data}

theorem Commits.canonical {content content' : Content Data} {ops : List (Operation Data)}
    (h : Commits C content command ops content') :
    content'.canonical = applyOps content.canonical ops :=
  commitOps_eq C h.written

theorem execute_cases (C : Codec Payload Data) (content : Content Data) (command : Mutation Data)
    (ops : List (Operation Data)) :
    (∃ e, execute C content command ops = .failed e) ∨
    (∃ e, execute C content command ops = .conflict e) ∨
    (∃ content', execute C content command ops = .committed content' ∧
      Commits C content command ops content') := by
  unfold execute
  cases hconf : firstConflict C content.canonical ops with
  | some e => exact Or.inr (Or.inl ⟨e, rfl⟩)
  | none =>
    obtain ⟨hpre, hroute⟩ := Option.or_eq_none_iff.mp hconf
    cases hrev : nextRevision command content.revision with
    | error e => exact Or.inl ⟨e, rfl⟩
    | ok revision =>
      cases hops : commitOps C ops content.canonical with
      | error e => exact Or.inl ⟨e, rfl⟩
      | ok canonical =>
        refine Or.inr (Or.inr ⟨_, rfl, ?_⟩)
        exact
          { preconditions := List.findSome?_eq_none_iff.mp hpre
            routes := hroute
            written := hops
            revision := hrev }

/-- An entry that committed. -/
structure Committed (C : Codec Payload Data) (store : Store Data) (index : Nat) (payload : Payload)
    (ops : List (Operation Data)) (store' : Store Data) : Prop where
  decoded : ∃ command, decodeCommand C payload = .ok (command, ops) ∧
    Commits C store.toContent command ops store'.toContent
  fresh : index = 0 ∨ store.appliedIndex < index
  schema : store'.schema = controlSchemaVersion
  applied : store'.appliedIndex = watermark store index
  floor : store'.revisionFloor = store.revisionFloor

theorem applyLog_cases (C : Codec Payload Data) (store : Store Data) (index : Nat)
    (payload : Payload) :
    ((applyLog C store index payload).1 = store) ∨
    (∃ e, applyLog C store index payload =
        ({ store with appliedIndex := watermark store index }, .conflicted e) ∧
      (index = 0 ∨ store.appliedIndex < index)) ∨
    (∃ ops store', applyLog C store index payload = (store', .committed ops) ∧
      Committed C store index payload ops store') := by
  unfold applyLog
  cases hdec : decodeCommand C payload with
  | error e => exact Or.inl rfl
  | ok decoded =>
    obtain ⟨command, ops⟩ := decoded
    show (applyCommand C store index command ops).1 = store ∨ _
    unfold applyCommand
    by_cases hreplay : index ≠ 0 ∧ index ≤ store.appliedIndex
    · rw [if_pos hreplay]
      exact Or.inl rfl
    · have hfresh : index = 0 ∨ store.appliedIndex < index := by omega
      simp only [if_neg hreplay]
      rcases execute_cases C store.toContent command ops with ⟨e, he⟩ | ⟨e, he⟩ | ⟨content, he, hc⟩
      · rw [he]
        exact Or.inl rfl
      · simp only [he]
        exact Or.inr (Or.inl ⟨e, rfl, hfresh⟩)
      · simp only [he]
        refine Or.inr (Or.inr ⟨ops, _, rfl, ?_⟩)
        exact
          { decoded := ⟨command, hdec, hc⟩
            fresh := hfresh
            schema := rfl
            applied := rfl
            floor := rfl }

variable {store : Store Data}

theorem decoded_of_committed {index : Nat} {payload : Payload} {ops : List (Operation Data)}
    (h : (applyLog C store index payload).2 = .committed ops) :
    ∃ command, decodeCommand C payload = .ok (command, ops) := by
  unfold applyLog at h
  cases hdec : decodeCommand C payload with
  | error e => rw [hdec] at h; cases h
  | ok decoded =>
    obtain ⟨command, ops'⟩ := decoded
    simp only [hdec] at h
    unfold applyCommand at h
    split at h
    · cases h
    · split at h
      · cases h
      · cases h
      · cases h
        exact ⟨command, rfl⟩

theorem revision_le_applyLog (C : Codec Payload Data) (store : Store Data) (index : Nat)
    (payload : Payload) : store.revision ≤ (applyLog C store index payload).1.revision := by
  rcases applyLog_cases C store index payload with h | ⟨e, h, -⟩ | ⟨ops, store', h, hc⟩
  · rw [h]
    exact UInt64.le_refl _
  · rw [h]
    exact UInt64.le_refl _
  · rw [h]
    obtain ⟨command, -, hcommits⟩ := hc.decoded
    exact nextRevision_ge hcommits.revision

/-! ## Runs of `Apply` -/

/-- A sequence of `Apply` calls, each with an index and a payload. -/
def applyAll (C : Codec Payload Data) (store : Store Data) (logs : List (Nat × Payload)) :
    Store Data :=
  logs.foldl (fun s log => (applyLog C s log.1 log.2).1) store

variable {P : Bucket Data → Prop}

/-- **Step rule**: what a commit keeps of the canonical bucket. -/
theorem applyLog_keeps {payload : Payload}
    (hstep : ∀ content command ops content',
      decodeCommand C payload = .ok (command, ops) → Commits C content command ops content' →
      P content.canonical → P content'.canonical) (index : Nat) (h : P store.canonical) :
    P (applyLog C store index payload).1.canonical := by
  rcases applyLog_cases C store index payload with hs | ⟨e, hs, -⟩ | ⟨ops, store', hs, hc⟩
  · rwa [hs]
  · rwa [hs]
  · rw [hs]
    obtain ⟨command, hdec, hcommits⟩ := hc.decoded
    exact hstep _ command ops _ hdec hcommits h

/-- **Run rule**: what every mutation keeps holds after the log. -/
theorem applyAll_keeps :
    ∀ {logs : List (Nat × Payload)},
      (∀ log ∈ logs, ∀ content command ops content',
        decodeCommand C log.2 = .ok (command, ops) → Commits C content command ops content' →
        P content.canonical → P content'.canonical) →
      ∀ {store : Store Data}, P store.canonical → P (applyAll C store logs).canonical
  | [], _, _, h => h
  | log :: logs, hstep, store, h => by
    show P (applyAll C (applyLog C store log.1 log.2).1 logs).canonical
    refine applyAll_keeps (fun l hl => hstep l (List.mem_cons_of_mem _ hl)) ?_
    exact applyLog_keeps (hstep log List.mem_cons_self) log.1 h

theorem applyAll_induction
    (hstep : ∀ content command ops content' payload,
      decodeCommand C payload = .ok (command, ops) → Commits C content command ops content' →
      P content.canonical → P content'.canonical) (logs : List (Nat × Payload))
    (h : P store.canonical) : P (applyAll C store logs).canonical :=
  applyAll_keeps (fun log _ content command ops content' =>
    hstep content command ops content' log.2) h

/-- **Route ownership is an invariant of the replicated state**, whatever the mutations do to
    routes and Nodes. -/
theorem routeOwnership_of_applyAll (C : Codec Payload Data) (logs : List (Nat × Payload)) :
    RouteOwnershipInvariant C (applyAll C Store.empty logs).canonical := by
  refine applyAll_induction (fun content command ops content' payload _ hc _ => ?_) logs
    (routeOwnershipInvariant_empty C)
  rw [hc.canonical]
  exact validate_sound hc.routes

end Bpc.Controlplane
