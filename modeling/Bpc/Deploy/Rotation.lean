/-
  ROTATION — a refresh credential rotates at most once (`rotates_at_most_once`).

  Two of three writers overwrite a record from a STALE read.  But what they put back is marked
  revoked, so the bytes that a rotation compares with never come back.  A call at time 0 marks
  nothing (`rotated_twice_at_zero`).
-/
import Bpc.Deploy.RefreshWrites
import Bpc.Deploy.PlainRuntime

namespace Bpc.Deploy.Refreshing

open SlashPath Controlplane Interaction

variable {Data : Type} (P : Runtime Data)

/-- Refresh calls over one state. -/
abbrev RefreshCalls (Data : Type) :=
  Pool (World Data) RefreshJob (Req Data) Ans PyError (List (Str × Json))

/-- No call's time is 0. -/
def Clocked (_ : RefreshCalls Data) : Move RefreshJob LocalOracle → Prop
  | .start job => job.now ≠ some 0
  | .advance _ o => o.time ≠ 0

instance (c : RefreshCalls Data) (m : Move RefreshJob LocalOracle) : Decidable (Clocked c m) :=
  match m with
  | .start job => inferInstanceAs (Decidable (job.now ≠ some 0))
  | .advance _ o => inferInstanceAs (Decidable (o.time ≠ 0))

/-- No time is 0, and no digests collide. -/
def Regular (c : RefreshCalls Data) (m : Move RefreshJob LocalOracle) : Prop :=
  Clocked c m ∧ NoCollision P c m

/-! ## One write -/

/-- What a committed mutation can put into the file of a refresh record. -/
inductive RefreshStep (past : History Data) (kind : Str) (before : Bucket Data) (x : Str) :
    Data → Prop where
  | revoked {r : Record} {t : Int} (hread : ReadRecord P past .refresh x r) (ht : t ≠ 0) :
      RefreshStep past kind before x (P.dumps (r.insert "revoked_at" (.int t)))
  /-- The record is still the one that was read, and it is not revoked. -/
  | rotated {r : Record} {original : Data} {t : Int}
      (hkind : kind = "RotateRefreshCredential")
      (hfile : before[recordKey .refresh x]? = some original)
      (hrecord : recordOf P (some original) = some r) (hlive : notRevoked r = true) (ht : t ≠ 0) :
      RefreshStep past kind before x (P.dumps (rotatedRecord r t))
  /-- A new record, next to one of its family that was live. -/
  | created {x₀ userId deviceId family : Str} {r : Record} {original : Data} {t : Int}
      (hkind : kind = "RotateRefreshCredential")
      (habsent : before[recordKey .refresh x]? = none) (hx₀ : '/' ∉ x₀)
      (hread : ReadRecord P past .refresh x₀ r)
      (hfile : before[recordKey .refresh x₀]? = some original)
      (hrecord : recordOf P (some original) = some r) (hlive : notRevoked r = true)
      (hfamily : familyOf P r ≠ [] → family = familyOf P r) :
      RefreshStep past kind before x (P.dumps (successorRecord userId deviceId family t))

section

variable {P} {w w' : World Data} {o : LocalOracle} {past : History Data}

theorem commit_of_perform {r : Req Data} {a : Ans r} (hmust : (refreshRules P).must past r)
    (h : performLocal P w o r = some (a, w')) :
    (w'.content = w.content ∧ w'.log = w.log) ∨
    ∃ kind ops command, r = .mutate kind ops ∧ RefreshWrite P past kind ops ∧
      Commits P.codec w.content command ops w'.content ∧
      w'.log = ⟨w.content, kind, ops, w'.content⟩ :: w.log := by
  by_cases hr : ∀ kind ops, r ≠ .mutate kind ops
  · exact .inl (performLocal_other hr h)
  · simp only [not_forall, not_not] at hr
    obtain ⟨kind, ops, rfl⟩ := hr
    have hwrite : RefreshWrite P past kind ops := hmust
    have hpaths : ∀ op ∈ ops, OnRecord op := by
      cases hwrite with
      | access hname =>
        intro op hop
        rw [List.mem_singleton.mp hop]
        exact ⟨⟨_, _, rfl, hname⟩, .inr rfl⟩
      | revoke hx _ _ =>
        intro op hop
        rw [List.mem_singleton.mp hop]
        exact ⟨⟨_, _, rfl, hx⟩, .inl rfl⟩
      | rotate hx ha hy _ _ _ _ _ =>
        intro op hop
        exact ⟨rotation_paths hx ha hy op hop, .inl (rotation_put op hop)⟩
    have hperform : perform P w o.toOracle (.mutate kind ops) = some (a, w') := h
    obtain rfl | ⟨content, command, hcommits, rfl⟩ := perform_records hpaths hperform
    · exact .inl ⟨rfl, rfl⟩
    · exact .inr ⟨kind, ops, command, rfl, hwrite, hcommits, rfl⟩

theorem file_of_replaceOp {content : Content Data} (hdigest : Distinguishes P content past)
    {path : Str} {data original : Data} (hread : ⟨.readFile path, some original⟩ ∈ past)
    (h : precondition P.codec content.canonical
      (replaceOp path data (P.codec.sha256Hex original)) = none) :
    content.canonical[path]? = some original := by
  obtain ⟨v, hv, hsame⟩ := digest_of_precondition h (P.sha256Hex_ne original)
  rw [show toLower (replaceOp path data (P.codec.sha256Hex original)).expectedSHA256 =
    P.codec.sha256Hex original from P.sha256Hex_lower original] at hsame
  rw [← hdigest path v original hv hread hsame]
  exact hv

/-- **How one refresh record can change in one step.** -/
theorem refresh_of_perform (hdigest : Distinguishes P w.content past) {r : Req Data} {a : Ans r}
    (hmust : (refreshRules P).must past r) (h : performLocal P w o r = some (a, w')) {x : Str}
    (hx : '/' ∉ x) :
    w'.content.canonical[recordKey .refresh x]? = w.content.canonical[recordKey .refresh x]? ∨
    ∃ kind ops data, r = .mutate kind ops ∧ RefreshStep P past kind w.content.canonical x data ∧
      w'.content.canonical[recordKey .refresh x]? = some data := by
  obtain ⟨hsame, _⟩ | ⟨kind, ops, command, rfl, hwrite, hcommits, _⟩ := commit_of_perform hmust h
  · exact .inl (by rw [hsame])
  rw [hcommits.canonical]
  have hpre := hcommits.preconditions
  cases hwrite with
  | access hname =>
    left
    have hne : (deleteOp P (recordKey .identityAccess _)).path ≠ recordKey .refresh x :=
      fun heq => by cases (recordKey_inj hname hx heq).1
    exact SortedMap.get_erase_of_ne _ hne
  | @revoke x₁ r₁ t hx₁ hread ht =>
    have hputs : ∀ op ∈ [putOp (recordKey .refresh x₁) (P.dumps (r₁.insert "revoked_at" (.int t)))],
        op.path = recordKey .refresh x → op.op = .put := by
      intro op hop _
      rw [List.mem_singleton.mp hop]
      rfl
    obtain hsame | ⟨op, hop, hpath, hdata⟩ := get_applyOps_of_puts hputs
    · exact .inl hsame
    · rw [List.mem_singleton.mp hop] at hpath hdata
      obtain ⟨_, rfl⟩ := recordKey_inj hx₁ hx hpath
      exact .inr ⟨_, _, _, rfl, .revoked hread ht, hdata⟩
  | @rotate x₁ a₁ y userId deviceId family r₁ original t hx₁ ha hy hread hrecord hlive ht hfamily =>
    have hcurrent := file_of_replaceOp hdigest hread (hpre _ List.mem_cons_self)
    have hputs : ∀ op ∈ rotation P (recordKey .refresh x₁) original r₁ a₁ y userId
      deviceId family t,
        op.path = recordKey .refresh x → op.op = .put := fun op hop _ => rotation_put op hop
    obtain hsame | ⟨op, hop, hpath, hdata⟩ := get_applyOps_of_puts hputs
    · exact .inl hsame
    · refine .inr ⟨_, _, op.data, rfl, ?_, hdata⟩
      have hpre' := hpre op hop
      simp only [rotation, List.mem_cons, List.not_mem_nil, or_false] at hop
      rw [recordPath_plain _ ha, recordPath_plain _ hy] at hop
      obtain rfl | rfl | rfl := hop
      · obtain ⟨_, rfl⟩ := recordKey_inj hx₁ hx hpath
        exact .rotated rfl hcurrent hrecord hlive ht
      · cases (recordKey_inj ha hx hpath).1
      · obtain ⟨_, rfl⟩ := recordKey_inj hy hx hpath
        exact .created rfl (absent_of_precondition hpre' rfl) hx₁ ⟨_, hread, hrecord⟩ hcurrent
          hrecord hlive hfamily

theorem answer_of_clocked {r : Req Data} {a : Ans r} (htime : o.time ≠ 0)
    (h : performLocal P w o r = some (a, w')) : (refreshRules P).may r a := by
  cases r with
  | glob d =>
    intro name hname
    exact (mem_globNames.mp (((performLocal_glob h).1 name).mp hname)).2
  | time =>
    obtain ⟨rfl, _⟩ := Prod.mk.inj (Option.some.inj h)
    exact htime
  | _ => trivial

end

/-! ## Runs -/

/-- The refresh record is there and revoked. -/
def Revoked (content : Content Data) (x : Str) : Prop :=
  ∃ r, recordAt P content .refresh x = some r ∧ notRevoked r = false

/-- The entry rotates the record of the name. -/
def rotates (x : Str) (entry : Entry Data) : Bool :=
  entry.kind = "RotateRefreshCredential" &&
    entry.operations.any fun op => op.path = recordKey .refresh x && !op.ifAbsent

section

variable {P} {w w' : World Data} {o : LocalOracle} {past : History Data} {x : Str}

theorem revoked_of_file {content : Content Data} {r : Record}
    (hfile : content.canonical[recordKey .refresh x]? = some (P.dumps r))
    (hrevoked : notRevoked r = false) : Revoked P content x :=
  ⟨r, (congrArg (recordOf P) hfile).trans (recordOf_dumps P r), hrevoked⟩

/-- **A revoked record stays revoked**, whoever writes it. -/
theorem revoked_of_perform (hdigest : Distinguishes P w.content past) {r : Req Data} {a : Ans r}
    (hmust : (refreshRules P).must past r) (h : performLocal P w o r = some (a, w')) (hx : '/' ∉ x)
    (hrevoked : Revoked P w.content x) : Revoked P w'.content x := by
  obtain ⟨now, hnow, hset⟩ := hrevoked
  rcases refresh_of_perform hdigest hmust h hx with hsame | ⟨kind, ops, data, rfl, hstep, hdata⟩
  · exact ⟨now, (congrArg (recordOf P) hsame).trans hnow, hset⟩
  · cases hstep with
    | revoked hread ht => exact revoked_of_file hdata (notRevoked_insert _ ht)
    | rotated _ _ _ _ ht => exact revoked_of_file hdata (notRevoked_rotated _ ht)
    | created _ habsent _ _ _ _ _ _ =>
      have hnone : recordAt P w.content .refresh x = none := congrArg (recordOf P) habsent
      cases hnone.symm.trans hnow

theorem rotates_rotation {x₁ a y userId deviceId family : Str} {original : Data} {r : Record}
    {t : Int} {before after : Content Data} (hx₁ : '/' ∉ x₁) (hx : '/' ∉ x)
    (h : rotates x ⟨before, "RotateRefreshCredential",
      rotation P (recordKey .refresh x₁) original r a y userId deviceId family t, after⟩ = true) :
    x₁ = x := by
  obtain ⟨_, hany⟩ := Bool.and_eq_true _ _ ▸ h
  obtain ⟨op, hop, hkey⟩ := List.any_eq_true.mp hany
  obtain ⟨hpath, hreplace⟩ := Bool.and_eq_true _ _ ▸ hkey
  simp only [rotation, List.mem_cons, List.not_mem_nil, or_false] at hop
  rcases hop with rfl | rfl | rfl
  · exact (recordKey_inj hx₁ hx (of_decide_eq_true hpath)).2
  · cases hreplace
  · cases hreplace

/-- **A rotation is the end of a record that was not revoked.** -/
theorem rotated_of_perform (hdigest : Distinguishes P w.content past) {r : Req Data} {a : Ans r}
    (hmust : (refreshRules P).must past r) (h : performLocal P w o r = some (a, w'))
      (hx : '/' ∉ x) :
    w'.log = w.log ∨ ∃ entry, w'.log = entry :: w.log ∧
      (rotates x entry = true → ¬ Revoked P w.content x ∧ Revoked P w'.content x) := by
  rcases commit_of_perform hmust h with ⟨_, hlog⟩ | ⟨kind, ops, command, rfl, hwrite,
    hcommits, hlog⟩
  · exact .inl hlog
  refine .inr ⟨_, hlog, fun hrotates => ?_⟩
  cases hwrite with
  | @access kind name hname =>
    obtain ⟨_, hany⟩ := Bool.and_eq_true _ _ ▸ hrotates
    obtain ⟨op, hop, hkey⟩ := List.any_eq_true.mp hany
    obtain ⟨hpath, _⟩ := Bool.and_eq_true _ _ ▸ hkey
    rw [List.mem_singleton.mp hop] at hpath
    cases (recordKey_inj hname hx (of_decide_eq_true hpath)).1
  | revoke _ _ _ =>
    obtain ⟨hkind, _⟩ := Bool.and_eq_true _ _ ▸ hrotates
    have hne : "PutCanonicalRecord".toList ≠ "RotateRefreshCredential".toList := by decide
    exact absurd (of_decide_eq_true hkind) hne
  | @rotate x₁ a₁ y userId deviceId family r₁ original t hx₁ ha hy hread hrecord hlive ht hfamily =>
    obtain rfl := rotates_rotation hx₁ hx hrotates
    have hcurrent := file_of_replaceOp hdigest hread (hcommits.preconditions _ List.mem_cons_self)
    refine ⟨?_, ?_⟩
    · rintro ⟨now, hnow, hset⟩
      have hnow' : recordAt P w.content .refresh x₁ = some r₁ :=
        (congrArg (recordOf P) hcurrent).trans hrecord
      obtain rfl := Option.some.inj (hnow.symm.trans hnow')
      rw [hset] at hlive
      cases hlive
    · -- the other two operations of the rotation write elsewhere
      have hnew : w.content.canonical[recordKey .refresh y]? = none := by
        have hpre := hcommits.preconditions _
          (List.mem_cons_of_mem _ (List.mem_cons_of_mem _ List.mem_cons_self))
        rw [recordPath_plain _ hy] at hpre
        exact absent_of_precondition hpre rfl
      have hney : recordKey .refresh y ≠ recordKey .refresh x₁ := by
        intro heq
        rw [heq, hcurrent] at hnew
        cases hnew
      have hnea : recordKey .identityAccess a₁ ≠ recordKey .refresh x₁ :=
        fun heq => by cases (recordKey_inj ha hx₁ heq).1
      refine revoked_of_file ?_ (notRevoked_rotated r₁ ht)
      rw [hcommits.canonical]
      unfold rotation
      rw [recordPath_plain _ ha, recordPath_plain _ hy]
      show ((((w.content.canonical.insert (recordKey .refresh x₁) _).insert
        (recordKey .identityAccess a₁) _).insert (recordKey .refresh y) _))[_]? = _
      rw [SortedMap.get_insert_of_ne _ _ hney, SortedMap.get_insert_of_ne _ _ hnea,
        SortedMap.get_insert_self]
      rfl

end

/-- The log holds at most one rotation of a record, which is revoked since. -/
structure RotationInv (c : RefreshCalls Data) : Prop where
  obeys : Obeys (refreshRules P) (refreshPost P) c
  once : ∀ x, '/' ∉ x → (c.world.log.filter (rotates x)).length ≤ 1
  spent : ∀ x, '/' ∉ x → ∀ entry ∈ c.world.log, rotates x entry = true → Revoked P c.world.content x

section

variable {P} {c c' : RefreshCalls Data}

theorem obeys_clocked (h : Obeys (refreshRules P) (refreshPost P) c)
    {m : Move RefreshJob LocalOracle}
    (hm : Clocked c m) (hstep : c.step (refreshers P) m = some c') :
    Obeys (refreshRules P) (refreshPost P) c' := by
  refine Obeys.step h (fun job hjob => ?_) (fun i o r a w hadvance hperform => ?_) hstep
  · rw [hjob] at hm
    exact spec_refreshProgram hm
  · rw [hadvance] at hm
    exact answer_of_clocked hm hperform

theorem RotationInv.step (hinv : RotationInv P c) {m : Move RefreshJob LocalOracle}
    (hm : Regular P c m) (hstep : c.step (refreshers P) m = some c') : RotationInv P c' := by
  have hobeys := obeys_clocked hinv.obeys hm.1 hstep
  rcases step_cases hstep with ⟨job, _, rfl⟩ | ⟨i, o, job, r, k, past, a, w, rfl, ht, hperform, rfl⟩
  · exact ⟨hobeys, hinv.once, hinv.spent⟩
  have hmust := hinv.obeys.must ht
  have hdigest := hm.2 past r ⟨i, o, job, k, rfl, ht⟩
  refine ⟨hobeys, fun x hx => ?_, fun x hx entry hentry hrotates => ?_⟩
  · rcases rotated_of_perform hdigest hmust hperform hx with hlog | ⟨entry, hlog, hrotated⟩
    · show (w.log.filter (rotates x)).length ≤ 1
      rw [hlog]
      exact hinv.once x hx
    · show (w.log.filter (rotates x)).length ≤ 1
      rw [hlog, List.filter_cons]
      split
      · rename_i hrotates
        -- the record was not revoked, so no earlier entry rotates it
        have hnone : c.world.log.filter (rotates x) = [] := by
          rw [List.filter_eq_nil_iff]
          exact fun e he he' => (hrotated hrotates).1 (hinv.spent x hx e he he')
        rw [hnone]
        exact Nat.le_refl 1
      · exact hinv.once x hx
  · rcases rotated_of_perform hdigest hmust hperform hx with hlog | ⟨entry', hlog, hrotated⟩
    · exact revoked_of_perform hdigest hmust hperform hx
        (hinv.spent x hx entry (hlog ▸ hentry) hrotates)
    · change entry ∈ w.log at hentry
      rw [hlog] at hentry
      rcases List.mem_cons.mp hentry with rfl | hentry
      · exact (hrotated hrotates).2
      · exact revoked_of_perform hdigest hmust hperform hx (hinv.spent x hx entry hentry hrotates)

theorem RotationInv.reaches (hinv : RotationInv P c) (h : Reaches (refreshers P) (Regular P) c c') :
    RotationInv P c' := by
  induction h with
  | refl => exact hinv
  | tail _ hok hmove ih => exact ih.step hok hmove

theorem revoked_reaches (hinv : RotationInv P c) (h : Reaches (refreshers P) (Regular P) c c')
    {x : Str} (hx : '/' ∉ x) (hrevoked : Revoked P c.world.content x) :
    Revoked P c'.world.content x := by
  induction h with
  | refl => exact hrevoked
  | tail hbefore hok hmove ih =>
    have hobeys := (hinv.reaches hbefore).obeys
    rcases step_cases hmove with ⟨job, _, rfl⟩ | ⟨i, o, job, r, k, past, a, w, rfl, ht,
      hperform, rfl⟩
    · exact ih
    · have hdigest := hok.2 past r ⟨i, o, job, k, rfl, ht⟩
      exact revoked_of_perform hdigest (hobeys.must ht) hperform hx ih

theorem rotationInv_start {w : World Data} (hlog : w.log = []) :
    RotationInv P (⟨w, []⟩ : RefreshCalls Data) where
  obeys _ ht := by cases ht
  once x _ := by
    show (w.log.filter (rotates x)).length ≤ 1
    rw [hlog]
    exact Nat.zero_le 1
  spent x _ entry hentry := by
    change entry ∈ w.log at hentry
    rw [hlog] at hentry
    cases hentry

end

/-- **A refresh credential rotates at most once**: in every run in which no call's time is 0 and no
    digests collide, at most one mutation rotates the record of a name, and a revoked record stays
    revoked — whatever the Controllers have projected when they read. -/
theorem rotates_at_most_once {w : World Data} (hlog : w.log = []) {c c' : RefreshCalls Data}
    {x : Str} (hx : '/' ∉ x) (hbefore : Reaches (refreshers P) (Regular P) ⟨w, []⟩ c)
    (hafter : Reaches (refreshers P) (Regular P) c c') :
    (c.world.log.filter (rotates x)).length ≤ 1 ∧
      (Revoked P c.world.content x → Revoked P c'.world.content x) := by
  have hinv := (rotationInv_start hlog).reaches hbefore
  exact ⟨hinv.once x hx, revoked_reaches hinv hafter hx⟩

/-! ## Time 0 -/

namespace Reuse

open Plain

/-- The successor that the `n`-th call draws. -/
def successor (n : Nat) : Str := List.replicate 63 'c' ++ (Nat.toDigits 10 n)

/-- One Device of one User, with a refresh credential. -/
def start : RefreshCalls Loaded :=
  ⟨startWorld plainRuntime [user, device, refresh token .null] [], []⟩

/-- Call `i` gets as far as its rotation. -/
def rotating (i : Nat) (t : Int) : List (Move RefreshJob LocalOracle) :=
  .start (.refresh token [] (some t)) :: calls i 4 { time := t } ++
    [.advance i { time := t, text := List.replicate 63 'e' ++ (Nat.toDigits 10 i) },
     .advance i { time := t, text := successor i }, .advance i { time := t }]

/-- Call 1 finds the credential revoked, and revokes its successor. -/
def replaying (t : Int) : List (Move RefreshJob LocalOracle) :=
  .start (.refresh token [] (some t)) :: calls 1 2 { time := t } ++
    .advance 1 { time := t, names := [token ++ jsonSuffix, successor 0 ++ jsonSuffix] } ::
      calls 1 3 { time := t }

end Reuse

/-- Is the time not 0, and nothing nested in the committed values? -/
def isRegular (c : RefreshCalls Loaded) (m : Move RefreshJob LocalOracle) : Bool :=
  Clocked c m && flatFiles c.world.content

theorem regular_of_isRegular (c : RefreshCalls Loaded) (m : Move RefreshJob LocalOracle)
    (h : isRegular c m = true) : Regular plainRuntime c m := by
  obtain ⟨hclocked, hflat⟩ := Bool.and_eq_true _ _ ▸ h
  exact ⟨of_decide_eq_true hclocked, noCollision_of_flat hflat m⟩

open Reuse Plain in
/-- After a rotation at time 5 the credential is spent. -/
theorem rotates_at_most_once_replayed :
    ∃ c c', start.runIf (refreshers plainRuntime) isRegular (rotating 0 5) = some c ∧
      c.runIf (refreshers plainRuntime) isRegular (replaying 5) = some c' ∧
      (c.world.log.filter (rotates token)).length ≤ 1 ∧
      Revoked plainRuntime c'.world.content token := by
  have hsome : ((start.runIf (refreshers plainRuntime) isRegular
      (rotating 0 5)).bind fun c =>
        (c.runIf (refreshers plainRuntime) isRegular (replaying 5)).bind fun _ =>
          (recordAt plainRuntime c.world.content .refresh token).map notRevoked) =
      some false := by decide +kernel
  obtain ⟨c, hc, hsome⟩ := Option.bind_eq_some_iff.mp hsome
  obtain ⟨c', hc', hsome⟩ := Option.bind_eq_some_iff.mp hsome
  have hrevoked := Option.map_eq_some_iff.mp hsome
  have honce := rotates_at_most_once plainRuntime rfl (x := token) (by decide)
    (reaches_of_runIf regular_of_isRegular .refl hc)
      (reaches_of_runIf regular_of_isRegular .refl hc')
  exact ⟨c, c', hc, hc', honce.1, honce.2 hrevoked⟩

open Reuse Plain in
/-- **At time 0 the same credential rotates twice.** -/
theorem rotated_twice_at_zero :
    ((start.runIf (refreshers plainRuntime) (fun _ _ => true) (rotating 0 0 ++ rotating 1 0)).map
      fun c => (c.world.log.filter (rotates token)).length) = some 2 := by
  decide +kernel

end Bpc.Deploy.Refreshing
