/-
  CONDITIONAL WRITES — what a precondition is worth in a replicated log (fsm.go).

  1. **One winner** — of all entries that require the same of a path, that it is ABSENT or holds
     the bytes of a digest, at most one commits (`one_contender_commits`).
  2. **Revisions name the content** — with one revision nothing has changed
     (`canonical_of_revision_eq`).
-/
import Bpc.Controlplane.Results

namespace Bpc.Controlplane

open SlashPath

variable {Payload Data : Type} {C : Codec Payload Data}

/-! ## Contenders -/

/-- What the contenders for a path want to find there. -/
inductive Expectation where
  | absent
  | digest (sha256 : Str)

/-- What the path holds is as expected. -/
def Expectation.Met (C : Codec Payload Data) : Expectation → Option Data → Prop
  | .absent, value => value = none
  | .digest x, value => ∃ v, value = some v ∧ C.sha256Hex v = x

/-- A put that requires the expected value and leaves another one. -/
def Contends (C : Codec Payload Data) (op : Operation Data) : Expectation → Prop
  | .absent => op.op = .put ∧ op.ifAbsent = true
  | .digest x => op.op = .put ∧ op.expectedSHA256 ≠ [] ∧ toLower op.expectedSHA256 = x ∧
      C.sha256Hex op.data ≠ x

variable {e : Expectation} {op : Operation Data}

theorem Contends.put (h : Contends C op e) : op.op = .put := by
  cases e with
  | absent => exact h.1
  | digest x => exact h.1

theorem Contends.met {canonical : Bucket Data} (h : Contends C op e)
    (hpre : precondition C canonical op = none) : e.Met C canonical[op.path]? := by
  cases e with
  | absent => exact absent_of_precondition hpre h.2
  | digest x =>
    obtain ⟨-, hsome, hlower, -⟩ := h
    obtain ⟨v, hv, hsha⟩ := digest_of_precondition hpre hsome
    exact ⟨v, hv, hsha.trans hlower⟩

theorem Contends.not_met (h : Contends C op e) : ¬ e.Met C (some op.data) := by
  cases e with
  | absent => exact fun hnone => by cases hnone
  | digest x =>
    rintro ⟨v, hv, hsha⟩
    cases hv
    exact h.2.2.2 hsha

/-- Every operation of the payload on the path is a contender. -/
def AllContend (C : Codec Payload Data) (e : Expectation) (p : Str) (payload : Payload) : Prop :=
  ∀ command ops, decodeCommand C payload = .ok (command, ops) →
    ∀ op ∈ ops, op.path = p → Contends C op e

/-! ## Winners -/

/-- The entry committed an operation on the path. -/
def Outcome.touches (p : Str) : Outcome Data → Bool
  | .committed ops => ops.any fun op => op.path == p
  | _ => false

/-- The entries of a log that commit an operation on the path. -/
def winners (C : Codec Payload Data) (p : Str) :
    Store Data → List (Nat × Payload) → List (Nat × Payload)
  | _, [] => []
  | store, log :: logs =>
    let result := applyLog C store log.1 log.2
    if result.2.touches p then log :: winners C p result.1 logs else winners C p result.1 logs

/-- The value is what the entry puts at the path. -/
def Holder (C : Codec Payload Data) (p : Str) (payload : Payload) (value : Option Data) : Prop :=
  ∃ command ops op, decodeCommand C payload = .ok (command, ops) ∧ op ∈ ops ∧ op.path = p ∧
    value = some op.data

variable {p : Str} {store : Store Data}

theorem commits_of_outcome {index : Nat} {payload : Payload} {ops : List (Operation Data)}
    (h : (applyLog C store index payload).2 = .committed ops) :
    ∃ command, decodeCommand C payload = .ok (command, ops) ∧
      Commits C store.toContent command ops (applyLog C store index payload).1.toContent := by
  obtain ⟨command, hdec⟩ := decoded_of_committed h
  refine ⟨command, hdec, ?_⟩
  have happly : applyLog C store index payload = applyCommand C store index command ops := by
    unfold applyLog
    rw [hdec]
  rw [happly] at h ⊢
  unfold applyCommand at h ⊢
  split at h
  · cases h
  · next hfresh =>
    rw [if_neg hfresh]
    rcases execute_cases C store.toContent command ops with ⟨e, he⟩ | ⟨e, he⟩ | ⟨content, he, hc⟩
    · simp only [he] at h
      cases h
    · simp only [he] at h
      cases h
    · simp only [he]
      exact hc

theorem get_applyOps_of_touched :
    ∀ {ops : List (Operation Data)} (bucket : Bucket Data),
      (∀ op ∈ ops, op.path = p → op.op = .put) → (∃ op ∈ ops, op.path = p) →
        ∃ op ∈ ops, op.path = p ∧ (applyOps bucket ops)[p]? = some op.data
  | [], _, _, h => by
    obtain ⟨op, hop, -⟩ := h
    cases hop
  | op :: ops, bucket, hputs, h => by
    have hrest : ∀ o ∈ ops, o.path = p → o.op = .put := fun o ho =>
      hputs o (List.mem_cons_of_mem _ ho)
    show ∃ o ∈ op :: ops, o.path = p ∧ (applyOps (applyOp bucket op) ops)[p]? = some o.data
    by_cases hlater : ∃ o ∈ ops, o.path = p
    · obtain ⟨o, ho, hpath, hdata⟩ := get_applyOps_of_touched (applyOp bucket op) hrest hlater
      exact ⟨o, List.mem_cons_of_mem _ ho, hpath, hdata⟩
    · -- the first operation is the only one on the path
      obtain ⟨o, ho, hpath⟩ := h
      obtain rfl | ho := List.mem_cons.mp ho
      · refine ⟨o, List.mem_cons_self, hpath, ?_⟩
        rw [get_applyOps_of_forall_ne fun o' ho' hp => hlater ⟨o', ho', hp⟩]
        unfold applyOp
        rw [hputs o List.mem_cons_self hpath]
        simp only [SortedMap.get_insert, if_pos hpath]
      · exact absurd ⟨o, ho, hpath⟩ hlater

theorem get_applyLog_of_not_touches {index : Nat} {payload : Payload}
    (h : (applyLog C store index payload).2.touches p = false) :
    (applyLog C store index payload).1.canonical[p]? = store.canonical[p]? := by
  rcases applyLog_cases C store index payload with hs | ⟨e, hs, -⟩ | ⟨ops, store', hs, hc⟩
  · rw [hs]
  · rw [hs]
  · rw [hs] at h ⊢
    obtain ⟨command, -, hcommits⟩ := hc.decoded
    show store'.canonical[p]? = _
    rw [hcommits.canonical]
    refine get_applyOps_of_forall_ne fun op hop hpath => ?_
    have hany : ops.any (fun op => op.path == p) = true :=
      List.any_eq_true.mpr ⟨op, hop, beq_iff_eq.mpr hpath⟩
    exact absurd (hany.symm.trans h) Bool.true_eq_false.mp

/-- **Step**: a contender that commits leaves its own data. -/
theorem contender_step {index : Nat} {payload : Payload} (hall : AllContend C e p payload)
    (h : (applyLog C store index payload).2.touches p = true) :
    e.Met C store.canonical[p]? ∧ ¬ e.Met C (applyLog C store index payload).1.canonical[p]? ∧
      Holder C p payload (applyLog C store index payload).1.canonical[p]? := by
  cases hout : (applyLog C store index payload).2 with
  | rejected _ => rw [hout] at h; cases h
  | replayed => rw [hout] at h; cases h
  | conflicted _ => rw [hout] at h; cases h
  | committed ops =>
    rw [hout] at h
    obtain ⟨command, hdec, hcommits⟩ := commits_of_outcome hout
    obtain ⟨op, hop, hpath⟩ := List.any_eq_true.mp h
    have hpath : op.path = p := beq_iff_eq.mp hpath
    have hcontends := hall command ops hdec
    have hmet : e.Met C store.canonical[p]? :=
      hpath ▸ (hcontends op hop hpath).met (hcommits.preconditions op hop)
    rw [hcommits.canonical]
    obtain ⟨o, ho, hopath, hdata⟩ := get_applyOps_of_touched store.canonical
      (fun o ho hp => (hcontends o ho hp).put) ⟨op, hop, hpath⟩
    rw [hdata]
    exact ⟨hmet, (hcontends o ho hopath).not_met, command, ops, o, hdec, ho, hopath, rfl⟩

/-! ## One winner -/

theorem no_winner : ∀ {logs : List (Nat × Payload)} {store : Store Data},
    (∀ log ∈ logs, AllContend C e p log.2) → ¬ e.Met C store.canonical[p]? →
      winners C p store logs = [] ∧ (applyAll C store logs).canonical[p]? = store.canonical[p]?
  | [], _, _, _ => ⟨rfl, rfl⟩
  | log :: logs, store, hall, hnot => by
    have hmiss : (applyLog C store log.1 log.2).2.touches p = false := by
      rw [← Bool.not_eq_true]
      exact fun h => hnot (contender_step (hall log List.mem_cons_self) h).1
    have hkept := get_applyLog_of_not_touches hmiss
    obtain ⟨hnone, hvalue⟩ := no_winner (fun l hl => hall l (List.mem_cons_of_mem _ hl))
      (hkept.symm ▸ hnot : ¬ e.Met C (applyLog C store log.1 log.2).1.canonical[p]?)
    refine ⟨?_, hvalue.trans hkept⟩
    simp only [winners, hmiss, Bool.false_eq_true, if_false]
    exact hnone

/-- **Of contenders for one path, at most one commits.**  No entry gets through and the path is as
    before, or exactly one does and the path holds its data to the end of the log. -/
theorem one_contender_commits (C : Codec Payload Data) (e : Expectation) (p : Str) :
    ∀ (logs : List (Nat × Payload)) (store : Store Data),
      (∀ log ∈ logs, AllContend C e p log.2) →
        (winners C p store logs = [] ∧
          (applyAll C store logs).canonical[p]? = store.canonical[p]?) ∨
        ∃ log ∈ logs, winners C p store logs = [log] ∧
          Holder C p log.2 (applyAll C store logs).canonical[p]?
  | [], _, _ => Or.inl ⟨rfl, rfl⟩
  | log :: logs, store, hall => by
    have hrest : ∀ l ∈ logs, AllContend C e p l.2 := fun l hl => hall l (List.mem_cons_of_mem _ hl)
    cases htouch : (applyLog C store log.1 log.2).2.touches p with
    | true =>
      -- the first winner changes the path, so nobody after it finds what they expect
      obtain ⟨-, hnot, hholder⟩ := contender_step (hall log List.mem_cons_self) htouch
      obtain ⟨hnone, hvalue⟩ := no_winner hrest hnot
      refine Or.inr ⟨log, List.mem_cons_self, ?_, ?_⟩
      · simp only [winners, htouch, if_true]
        rw [hnone]
      · show Holder C p log.2 (applyAll C (applyLog C store log.1 log.2).1 logs).canonical[p]?
        rw [hvalue]
        exact hholder
    | false =>
      have hkept := get_applyLog_of_not_touches htouch
      have hwinners : winners C p store (log :: logs) =
          winners C p (applyLog C store log.1 log.2).1 logs := by
        simp only [winners, htouch, Bool.false_eq_true, if_false]
      rw [hwinners]
      show (_ ∧ (applyAll C (applyLog C store log.1 log.2).1 logs).canonical[p]? = _) ∨
        ∃ l ∈ log :: logs, _ ∧
          Holder C p l.2 (applyAll C (applyLog C store log.1 log.2).1 logs).canonical[p]?
      rcases one_contender_commits C e p logs (applyLog C store log.1 log.2).1 hrest with
        ⟨hnone, hvalue⟩ | ⟨l, hl, hone, hholder⟩
      · exact Or.inl ⟨hnone, hvalue.trans hkept⟩
      · exact Or.inr ⟨l, List.mem_cons_of_mem _ hl, hone, hholder⟩

/-- A put that requires the path to be absent. -/
def claimCommand (path data : Str) : Mutation Str :=
  { putCommand path data with operations := [⟨.put, path, data, true, false, []⟩] }

theorem allContend_claimCommand {path : Str} (data : Str) (h : StablePath path) :
    AllContend plainCodec .absent path (claimCommand path data) := by
  intro command ops hdec op hop _
  have hops : normalizeOps (claimCommand path data).operations =
      .ok (claimCommand path data).operations := by
    show normalizeOps [⟨.put, path, data, true, false, []⟩] = _
    rw [normalizeOps, show normalizeReplicatedPath path = .ok path from h]
    rfl
  have hdecode : decodeCommand plainCodec (claimCommand path data) =
      .ok (claimCommand path data, (claimCommand path data).operations) := by
    have hheader : checkHeader (claimCommand path data) = .ok () := rfl
    unfold decodeCommand
    simp only [show plainCodec.unmarshalMutation (claimCommand path data) =
      .ok (claimCommand path data) from rfl, hheader, hops]
  rw [hdecode] at hdec
  obtain ⟨-, rfl⟩ := Prod.mk.inj (Except.ok.inj hdec)
  obtain rfl := List.mem_singleton.mp hop
  exact ⟨rfl, rfl⟩

/-- Three Controllers claim one address: the first entry wins. -/
theorem one_contender_commits_claim :
    let p : Str := "control/devices/a"
    let logs := [(1, claimCommand p "x"), (2, claimCommand p "y"), (3, claimCommand p "x")]
    let store : Store Str := Store.empty
    (winners plainCodec p store logs).map (·.1) = [1] ∧
      ((winners plainCodec p store logs = [] ∧
          (applyAll plainCodec store logs).canonical[p]? = store.canonical[p]?) ∨
        ∃ log ∈ logs, winners plainCodec p store logs = [log] ∧
          Holder plainCodec p log.2 (applyAll plainCodec store logs).canonical[p]?) := by
  have hstable : StablePath "control/devices/a" := by decide +kernel
  refine ⟨by decide +kernel, one_contender_commits plainCodec .absent _ _ _ ?_⟩
  intro log hlog
  simp only [List.mem_cons, List.not_mem_nil, or_false] at hlog
  rcases hlog with rfl | rfl | rfl
  · exact allContend_claimCommand "x" hstable
  · exact allContend_claimCommand "y" hstable
  · exact allContend_claimCommand "x" hstable

/-! ## Revisions name the content -/

/-- **Step**: an entry that keeps the revision keeps the content. -/
theorem canonical_of_applyLog_revision {index : Nat} {payload : Payload}
    (h : (applyLog C store index payload).1.revision = store.revision) :
    (applyLog C store index payload).1.canonical = store.canonical := by
  rcases applyLog_cases C store index payload with hs | ⟨e, hs, -⟩ | ⟨ops, store', hs, hc⟩
  · rw [hs]
  · rw [hs]
  · rw [hs] at h ⊢
    obtain ⟨command, hdec, hcommits⟩ := hc.decoded
    have hexecuted := executed_of_commits hdec hcommits
    by_cases hkind : command.kind = reconcileKind
    · exact (hexecuted.reconciled hkind).2
    · have hsucc : store'.revision.toNat = store.revision.toNat + 1 := hexecuted.revision hkind
      have hsame : store'.revision = store.revision := h
      rw [hsame] at hsucc
      omega

theorem revision_le_applyAll (C : Codec Payload Data) :
    ∀ (logs : List (Nat × Payload)) (store : Store Data),
      store.revision ≤ (applyAll C store logs).revision
  | [], _ => UInt64.le_refl _
  | log :: logs, store => UInt64.le_trans (revision_le_applyLog C store log.1 log.2)
      (revision_le_applyAll C logs (applyLog C store log.1 log.2).1)

/-- **A revision names one content.**  If it has not moved, no path has changed. -/
theorem canonical_of_revision_eq (C : Codec Payload Data) :
    ∀ (logs : List (Nat × Payload)) (store : Store Data),
      (applyAll C store logs).revision = store.revision →
        (applyAll C store logs).canonical = store.canonical
  | [], _, _ => rfl
  | log :: logs, store, h => by
    -- the revision only grows, so it stood still at the first entry and over the rest
    have hhere := revision_le_applyLog C store log.1 log.2
    have hlater := revision_le_applyAll C logs (applyLog C store log.1 log.2).1
    have htotal : (applyAll C (applyLog C store log.1 log.2).1 logs).revision = store.revision := h
    have hfirst : (applyLog C store log.1 log.2).1.revision = store.revision :=
      UInt64.le_antisymm (htotal ▸ hlater) hhere
    show (applyAll C (applyLog C store log.1 log.2).1 logs).canonical = store.canonical
    rw [canonical_of_revision_eq C logs _ (htotal.trans hfirst.symm)]
    exact canonical_of_applyLog_revision hfirst

/-- A replayed entry and a lost claim leave the content. -/
theorem canonical_of_revision_eq_replay :
    let payload := claimCommand "control/devices/a" "x"
    let store := (applyLog plainCodec Store.empty 1 payload).1
    let logs := [(1, payload), (2, payload)]
    store.revision = 1 ∧ (applyAll plainCodec store logs).appliedIndex = 2 ∧
      (applyAll plainCodec store logs).canonical = store.canonical :=
  ⟨by decide +kernel, by decide +kernel,
    canonical_of_revision_eq plainCodec _ _ (by decide +kernel)⟩

end Bpc.Controlplane
