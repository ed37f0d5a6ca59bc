/-
  LAGGING READS — what an old listing still tells.

  A Controller reads its OWN files, which follow the commits later, one operation at a time.
  1. **Families** — a record keeps its family, and a new one has the family of one that was live.
  2. **Older files** — a record that is shown is committed, with the same bytes or revoked by now
     (`Behind`).  Only what is NOT shown is unknown.
-/
import Bpc.Deploy.Rotation

namespace Bpc.Deploy.Refreshing

open SlashPath Controlplane Interaction

variable {Data : Type} (P : Runtime Data)

/-! ## Families -/

/-- The record is of the family and not revoked. -/
def LiveAt (family : Str) (content : Content Data) (y : Str) : Prop :=
  Live P (fun r => familyOf P r = family) (content.canonical[recordKey .refresh y]?)

section

variable {P} {w w' : World Data} {o : LocalOracle} {past : History Data} {x family : Str}

theorem liveAt_iff {content : Content Data} : LiveAt P family content x ↔
    ∃ r, recordAt P content .refresh x = some r ∧ familyOf P r = family ∧ notRevoked r = true := by
  unfold LiveAt Live recordAt
  simp only [decide_eq_true_eq]

theorem familyOf_insert (r : Record) {key : Str} (value : Json) (h : key ≠ "family_id") :
    familyOf P (r.insert key value) = familyOf P r := by
  unfold familyOf Runtime.strField Record.get
  rw [SortedMap.get_insert_of_ne _ _ h]

theorem familyOf_rotated (r : Record) (t : Int) :
    familyOf P (rotatedRecord r t) = familyOf P r := by
  unfold rotatedRecord
  rw [familyOf_insert _ _ (by decide), familyOf_insert _ _ (by decide)]

theorem familyOf_successor (userId deviceId family : Str) (t : Int) :
    familyOf P (successorRecord userId deviceId family t) = family := by
  have hget : (successorRecord userId deviceId family t)["family_id".toList]? =
      some (.str family) := by
    unfold successorRecord
    rfl
  unfold familyOf Runtime.strField Record.get
  rw [hget]
  rfl

/-- Every refresh record belongs to a family. -/
def Families (P : Runtime Data) (content : Content Data) : Prop :=
  ∀ x r, '/' ∉ x → recordAt P content .refresh x = some r → familyOf P r ≠ []

/-- What a call has read of a record still tells its family. -/
def Known (P : Runtime Data) (content : Content Data) (past : History Data) : Prop :=
  ∀ x r, '/' ∉ x → ReadRecord P past .refresh x r →
    ∃ now, recordAt P content .refresh x = some now ∧ familyOf P now = familyOf P r

variable {r : Req Data} {a : Ans r} (hdigest : Distinguishes P w.content past)
  (hfamilies : Families P w.content) (hknown : Known P w.content past)
  (hmust : (refreshRules P).must past r) (h : performLocal P w o r = some (a, w'))
include hdigest hfamilies hknown hmust h

/-- **How the family of a record can change**: it gets one for the first time, from a record that
    was live until then. -/
theorem family_of_perform (hx : '/' ∉ x) {rec : Record}
    (hrec : recordAt P w'.content .refresh x = some rec) :
    (∃ now, recordAt P w.content .refresh x = some now ∧ familyOf P now = familyOf P rec ∧
      (notRevoked rec = true → notRevoked now = true)) ∨
    (recordAt P w.content .refresh x = none ∧
      ∃ ops x₀ r₀, r = .mutate "RotateRefreshCredential" ops ∧ '/' ∉ x₀ ∧
        ReadRecord P past .refresh x₀ r₀ ∧ familyOf P r₀ = familyOf P rec ∧
        LiveAt P (familyOf P rec) w.content x₀) := by
  rcases refresh_of_perform hdigest hmust h hx with hsame | ⟨kind, ops, data, rfl, hstep, hdata⟩
  · exact .inl ⟨rec, (congrArg (recordOf P) hsame).symm.trans hrec, rfl, id⟩
  · cases hstep with
    | @revoked r₁ t hread ht =>
      obtain ⟨now, hnow, hfamily⟩ := hknown x r₁ hx hread
      have hrec' : r₁.insert "revoked_at" (.int t) = rec := by
        rw [recordAt, hdata, recordOf_dumps] at hrec
        exact Option.some.inj hrec
      subst hrec'
      refine .inl ⟨now, hnow, ?_, fun hlive => ?_⟩
      · rw [familyOf_insert _ _ (by decide), hfamily]
      · rw [notRevoked_insert r₁ ht] at hlive
        cases hlive
    | @rotated r₁ original t hkind hfile hrecord hlive ht =>
      have hrec' : rotatedRecord r₁ t = rec := by
        rw [recordAt, hdata, recordOf_dumps] at hrec
        exact Option.some.inj hrec
      subst hrec'
      refine .inl ⟨r₁, (congrArg (recordOf P) hfile).trans hrecord, ?_, fun _ => hlive⟩
      exact (familyOf_rotated r₁ t).symm
    | @created x₀ userId deviceId family r₁ original t hkind habsent hx₀ hread hfile hrecord hlive
        hfamily =>
      have hrec' : successorRecord userId deviceId family t = rec := by
        rw [recordAt, hdata, recordOf_dumps] at hrec
        exact Option.some.inj hrec
      subst hrec'
      have hrecord₀ : recordAt P w.content .refresh x₀ = some r₁ :=
        (congrArg (recordOf P) hfile).trans hrecord
      rw [familyOf_successor, hfamily (hfamilies x₀ r₁ hx₀ hrecord₀)]
      refine .inr ⟨congrArg (recordOf P) habsent, ops, x₀, r₁, by rw [hkind], hx₀, hread, rfl, ?_⟩
      exact liveAt_iff.mpr ⟨r₁, hrecord₀, rfl, hlive⟩

theorem live_of_perform (hx : '/' ∉ x) (hlive : LiveAt P family w'.content x) :
    LiveAt P family w.content x ∨
    ∃ ops x₀ r₀, r = .mutate "RotateRefreshCredential" ops ∧ '/' ∉ x₀ ∧
      ReadRecord P past .refresh x₀ r₀ ∧ familyOf P r₀ = family ∧
      LiveAt P family w.content x₀ := by
  obtain ⟨rec, hrec, rfl, hunset⟩ := liveAt_iff.mp hlive
  rcases family_of_perform hdigest hfamilies hknown hmust h hx hrec with
    ⟨now, hnow, hfamily, hback⟩ | ⟨_, hcreated⟩
  · exact .inl (liveAt_iff.mpr ⟨now, hnow, hfamily, hback hunset⟩)
  · exact .inr hcreated

/-- **A family without a live record never gets one.** -/
theorem dead_of_perform
    (hdead : ∀ y, '/' ∉ y → ¬ LiveAt P family w.content y) :
    ∀ y, '/' ∉ y → ¬ LiveAt P family w'.content y := by
  intro y hy hlive
  rcases live_of_perform hdigest hfamilies hknown hmust h hy hlive with
    hbefore | ⟨_, x₀, _, _, hx₀, _, _, hlive₀⟩
  · exact hdead y hy hbefore
  · exact hdead x₀ hx₀ hlive₀

theorem families_of_perform : Families P w'.content := by
  intro x rec hx hrec
  rcases family_of_perform hdigest hfamilies hknown hmust h hx hrec with
    ⟨now, hnow, hfamily, _⟩ | ⟨_, _, x₀, r₀, _, hx₀, _, _, hlive⟩
  · rw [← hfamily]
    exact hfamilies x now hx hnow
  · obtain ⟨now, hnow, hfamily, _⟩ := liveAt_iff.mp hlive
    rw [← hfamily]
    exact hfamilies x₀ now hx₀ hnow

theorem known_of_perform {past' : History Data} (hother : Known P w.content past') :
    Known P w'.content past' := by
  intro x rec hx hread
  obtain ⟨now, hnow, hfamily⟩ := hother x rec hx hread
  -- the record is still there: no call deletes one
  have hsome : ∃ rec', recordAt P w'.content .refresh x = some rec' := by
    rcases refresh_of_perform hdigest hmust h hx with hsame | ⟨_, _, data, _, hstep, hdata⟩
    · exact ⟨now, (congrArg (recordOf P) hsame).trans hnow⟩
    · cases hstep <;> exact ⟨_, (congrArg (recordOf P) hdata).trans (recordOf_dumps P _)⟩
  obtain ⟨rec', hrec'⟩ := hsome
  refine ⟨rec', hrec', ?_⟩
  rcases family_of_perform hdigest hfamilies hknown hmust h hx hrec' with
    ⟨now', hnow', hfamily', _⟩ | ⟨hnone, _⟩
  · obtain rfl := Option.some.inj (hnow.symm.trans hnow')
    exact hfamily'.symm.trans hfamily
  · cases hnone.symm.trans hnow

end

/-! ## Older files -/

/-- Every refresh file that is shown is committed, with the same bytes or revoked by now. -/
def Older (shown : Bucket Data) (content : Content Data) : Prop :=
  ∀ x, '/' ∉ x → ∀ data, shown[recordKey .refresh x]? = some data →
    content.canonical[recordKey .refresh x]? = some data ∨
    ∃ r now, recordOf P (some data) = some r ∧ recordAt P content .refresh x = some now ∧
      familyOf P now = familyOf P r ∧ notRevoked now = false

/-- What any Controller shows is older than the committed state. -/
def Behind (w : World Data) : Prop := ∀ lag, Older P (w.projection lag) w.content

theorem behind_of_log {P : Runtime Data} {w : World Data} (hlog : w.log = []) : Behind P w := by
  intro lag x _ data hdata
  refine .inl ?_
  cases lag with
  | none => exact hdata
  | some lag => simpa [World.projection, hlog] using hdata

section

variable {P} {shown : Bucket Data} {content content' : Content Data} {x family : Str}

theorem Older.trans (h : Older P shown content) (h' : Older P content.canonical content') :
    Older P shown content' := by
  intro x hx data hdata
  obtain hsame | ⟨r, now, hr, hnow, hfamily, hrevoked⟩ := h x hx data hdata
  · exact h' x hx data hsame
  · cases hfile : content.canonical[recordKey .refresh x]? with
    | none =>
      rw [recordAt, hfile] at hnow
      cases hnow
    | some data' =>
      rw [recordAt, hfile] at hnow
      obtain hsame | ⟨r', now', hr', hnow', hfamily', hrevoked'⟩ := h' x hx data' hfile
      · exact .inr ⟨r, now, hr, (congrArg (recordOf P) hsame).trans hnow, hfamily, hrevoked⟩
      · obtain rfl := Option.some.inj (hnow.symm.trans hr')
        exact .inr ⟨r, now', hr, hnow', hfamily'.trans hfamily, hrevoked'⟩

/-- A record that is shown tells the family of the committed one. -/
theorem Older.known (h : Older P shown content) (hx : '/' ∉ x) {r : Record}
    (hr : recordOf P (shown[recordKey .refresh x]?) = some r) :
    ∃ now, recordAt P content .refresh x = some now ∧ familyOf P now = familyOf P r := by
  cases hfile : shown[recordKey .refresh x]? with
  | none =>
    rw [hfile] at hr
    cases hr
  | some data =>
    rw [hfile] at hr
    obtain hsame | ⟨r', now, hr', hnow, hfamily, _⟩ := h x hx data hfile
    · exact ⟨r, (congrArg (recordOf P) hsame).trans hr, rfl⟩
    · obtain rfl := Option.some.inj (hr.symm.trans hr')
      exact ⟨now, hnow, hfamily⟩

/-- A live record is live in every older state that shows it. -/
theorem Older.live (h : Older P shown content) (hx : '/' ∉ x)
    (hshown : shown[recordKey .refresh x]? ≠ none) (hlive : LiveAt P family content x) :
    Live P (fun r => familyOf P r = family) (shown[recordKey .refresh x]?) := by
  obtain ⟨data, hdata⟩ := Option.ne_none_iff_exists'.mp hshown
  obtain hsame | ⟨_, now, _, hnow, _, hrevoked⟩ := h x hx data hdata
  · rw [hdata, ← hsame]
    exact hlive
  · obtain ⟨now', hnow', _, hunset⟩ := liveAt_iff.mp hlive
    obtain rfl := Option.some.inj (hnow.symm.trans hnow')
    cases hrevoked.symm.trans hunset

variable {w w' : World Data} {o : LocalOracle} {past : History Data}

theorem projection_congr (hcontent : w'.content = w.content) (hlog : w'.log = w.log)
    (lag : Option (Nat × Nat)) : w'.projection lag = w.projection lag := by
  unfold World.projection
  rw [hcontent, hlog]

theorem projection_of_entry {newer done : Nat} {entry : Entry Data}
    (hentry : w.log[newer]? = some entry) :
    w.projection (some (newer, done)) =
      applyOps entry.before.canonical (entry.operations.take done) := by
  simp only [World.projection, hentry]

/-- The operations of one mutation are on different files. -/
theorem nodup_of_refreshWrite {kind : Str} {ops : List (Operation Data)} {command : Mutation Data}
    (hdigest : Distinguishes P content past) (hwrite : RefreshWrite P past kind ops)
    (hcommits : Commits P.codec content command ops content') :
    (ops.map Operation.path).Nodup := by
  cases hwrite with
  | access _ => exact List.nodup_singleton _
  | revoke _ _ _ => exact List.nodup_singleton _
  | @rotate x a y userId deviceId family r original t hx ha hy hread _ _ _ _ =>
    have hold := file_of_replaceOp hdigest hread (hcommits.preconditions _ List.mem_cons_self)
    have hnew := hcommits.preconditions _
      (List.mem_cons_of_mem _ (List.mem_cons_of_mem _ List.mem_cons_self))
    rw [recordPath_plain _ hy] at hnew
    have habsent : content.canonical[recordKey .refresh y]? = none :=
      absent_of_precondition hnew rfl
    have hxy : recordKey .refresh x ≠ recordKey .refresh y := by
      intro heq
      rw [heq, habsent] at hold
      cases hold
    have hxa : recordKey .refresh x ≠ recordKey .identityAccess a :=
      fun heq => by cases (recordKey_inj hx ha heq).1
    have hay : recordKey .identityAccess a ≠ recordKey .refresh y :=
      fun heq => by cases (recordKey_inj ha hy heq).1
    unfold rotation
    rw [recordPath_plain _ ha, recordPath_plain _ hy]
    simp [replaceOp, createOp, hxy, hxa, hay]

variable {r : Req Data} {a : Ans r} (hdigest : Distinguishes P w.content past)
  (hknown : Known P w.content past) (hmust : (refreshRules P).must past r)
  (h : performLocal P w o r = some (a, w'))
include hdigest hknown hmust h

/-- **One step makes the state older**: a record stays or is revoked. -/
theorem older_of_perform : Older P w.content.canonical w'.content := by
  intro x hx data hdata
  have hrecord : ∀ {r' : Record}, recordAt P w.content .refresh x = some r' →
      recordOf P (some data) = some r' := fun hr => (congrArg (recordOf P) hdata).symm.trans hr
  obtain hsame | ⟨_, _, data', rfl, hstep, hdata'⟩ := refresh_of_perform hdigest hmust h hx
  · exact .inl (hsame.trans hdata)
  have hnew : ∀ {r' : Record}, data' = P.dumps r' → recordAt P w'.content .refresh x = some r' := by
    rintro r' rfl
    exact (congrArg (recordOf P) hdata').trans (recordOf_dumps P r')
  cases hstep with
  | @revoked r₁ t hread ht =>
    obtain ⟨now, hnow, hfamily⟩ := hknown x r₁ hx hread
    refine .inr ⟨now, _, hrecord hnow, hnew rfl, ?_, notRevoked_insert r₁ ht⟩
    rw [familyOf_insert _ _ (by decide), hfamily]
  | @rotated r₁ _ t _ hfile hr₁ _ ht =>
    exact .inr ⟨r₁, _, hrecord ((congrArg (recordOf P) hfile).trans hr₁), hnew rfl,
      familyOf_rotated r₁ t, notRevoked_rotated r₁ ht⟩
  | created _ habsent _ _ _ _ _ _ => cases habsent.symm.trans hdata

/-- **The Controllers stay behind**, in the middle of a mutation too. -/
theorem behind_of_perform (hbehind : Behind P w) : Behind P w' := by
  have holder := older_of_perform hdigest hknown hmust h
  obtain ⟨hcontent, hlog⟩ | ⟨kind, ops, command, rfl, hwrite, hcommits, hlog⟩ :=
    commit_of_perform hmust h
  · intro lag
    rw [projection_congr hcontent hlog, hcontent]
    exact hbehind lag
  have hnodup := nodup_of_refreshWrite hdigest hwrite hcommits
  have hnewest : Older P w'.content.canonical w'.content := fun _ _ _ hdata => .inl hdata
  intro lag
  cases lag with
  | none => exact hnewest
  | some lag =>
    obtain ⟨newer, done⟩ := lag
    cases newer with
    | zero =>
      rw [projection_of_entry (by rw [hlog]; rfl)]
      -- each file is as before the mutation, or as after it
      intro x hx data hdata
      obtain hbefore | hafter := get_applyOps_take hnodup w.content.canonical
        (recordKey .refresh x) done
      · exact holder x hx data (hbefore.symm.trans hdata)
      · rw [hafter, ← hcommits.canonical] at hdata
        exact .inl hdata
    | succ newer =>
      cases hentry : w.log[newer]? with
      | none =>
        have hbeyond : w'.projection (some (newer + 1, done)) = w'.content.canonical := by
          simp only [World.projection, hlog, List.getElem?_cons_succ, hentry]
        rw [hbeyond]
        exact hnewest
      | some entry =>
        rw [projection_of_entry (by rw [hlog]; exact hentry)]
        have hbefore := hbehind (some (newer, done))
        rw [projection_of_entry hentry] at hbefore
        exact hbefore.trans holder

theorem known_cons (hfamilies : Families P w.content) (hbehind : Behind P w) :
    Known P w'.content (⟨r, a⟩ :: past) := by
  intro x rec hx hread
  obtain hread | ⟨file, heq, hfile⟩ := readRecord_cons hread
  · exact known_of_perform hdigest hfamilies hknown hmust h hknown x rec hx hread
  · cases heq
    obtain ⟨rfl, rfl⟩ := performLocal_readFile (isReplicated_recordKey .refresh x) h
    exact (hbehind o.lag).known hx hfile

end

end Bpc.Deploy.Refreshing
