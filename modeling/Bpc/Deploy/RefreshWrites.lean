/-
  WHAT THE REFRESH CALLS WRITE — the counterpart of `Deploy/Writes` for refresh credentials.

  1. **Writes** — a record is marked revoked, or rotated if the bytes that were read are still
     there.
  2. **Scans** — a call that ends with the replay error accounts for every file it listed
     (`Checked`), unless a failed write was SWALLOWED (`Faultless`).
-/
import Bpc.Deploy.Refresh
import Bpc.Deploy.Sessions

namespace Bpc.Deploy.Refreshing

open SlashPath Controlplane Interaction

variable {Data : Type} (P : Runtime Data)

/-! ## Writes -/

/-- What a refresh call may submit. -/
inductive RefreshWrite (past : History Data) : Str → List (Operation Data) → Prop where
  /-- An access record is deleted. -/
  | access {kind name : Str} (hname : '/' ∉ name) :
      RefreshWrite past kind [deleteOp P (recordKey .identityAccess name)]
  /-- A record as it was read, marked revoked. -/
  | revoke {x : Str} {r : Record} {t : Int} (hx : '/' ∉ x) (hread : ReadRecord P past .refresh x r)
      (ht : t ≠ 0) :
      RefreshWrite past "PutCanonicalRecord"
        [putOp (recordKey .refresh x) (P.dumps (r.insert "revoked_at" (.int t)))]
  /-- A record that was not revoked is replaced, with its successor. -/
  | rotate {x a y userId deviceId family : Str} {r : Record} {original : Data} {t : Int}
      (hx : '/' ∉ x) (ha : '/' ∉ a) (hy : '/' ∉ y)
      (hread : ⟨.readFile (recordKey .refresh x), some original⟩ ∈ past)
      (hrecord : recordOf P (some original) = some r) (hlive : notRevoked r = true) (ht : t ≠ 0)
      (hfamily : familyOf P r ≠ [] → family = familyOf P r) :
      RefreshWrite past "RotateRefreshCredential"
        (rotation P (recordKey .refresh x) original r a y userId deviceId family t)

/-- What an answer may be. -/
def RefreshAnswer : (r : Req Data) → Ans r → Prop
  | .glob _, names => ∀ name ∈ names, '/' ∉ name ∧ jsonSuffix <:+ name
  | .time, t => t ≠ 0
  | _, _ => True

/-- The rules of the refresh calls. -/
def refreshRules : Rules (Req Data) Ans where
  must past r :=
    match r with
    | .mutate kind operations => RefreshWrite P past kind operations
    | _ => True
  may := RefreshAnswer

theorem lenient_refreshRules : Lenient (refreshRules P) := by
  intro past r h
  cases r with
  | mutate kind operations => exact h.elim
  | _ => trivial

/-! ## Faults -/

/-- An answer without a fault: acknowledged, and not refused with the status of a replay. -/
def Acknowledged : (r : Req Data) → Ans r → Prop
  | .barrier, answer => ∃ revision, answer = .ok revision
  | .mutate kind _, answer => ∀ refusal, answer = .error refusal →
      kind ≠ "PutCanonicalRecord" ∧ refusal.status ≠ 401
  | _, _ => True

/-- No answer had a fault. -/
def Faultless (past : History Data) : Prop := ∀ e ∈ past, Acknowledged e.1 e.2

variable {past past' : History Data}

theorem Faultless.suffix (h : Faultless past') (hsuf : past <:+ past') : Faultless past :=
  fun e he => h e (hsuf.subset he)

/-- The outside functions raise no replay error of their own. -/
structure Ordinary : Prop where
  int : ∀ value e, P.int value = .error e → e ≠ replayDetected
  verifyProof : ∀ key signature message e, P.verifyProof key signature message = .error e →
    e ≠ replayDetected

/-- An exception that is not the replay error, or comes from a fault. -/
def Excused (past : History Data) (e : PyError) : Prop :=
  Ordinary P → e = replayDetected → ¬ Faultless past

variable {e : PyError}

theorem excused_of_ne (h : e ≠ replayDetected) : Excused P past e := fun _ heq => absurd heq h

theorem identity_ne_replayDetected {message : Str} {status : Nat}
    (h : message ≠ "refresh credential replay detected") :
    PyError.identity message status ≠ replayDetected :=
  fun heq => h (PyError.identity.inj heq).1

/-! ## Files -/

/-- The file holds a chosen record that is not revoked. -/
def Live (chosen : Record → Bool) (file : Option Data) : Prop :=
  ∃ r, recordOf P file = some r ∧ chosen r = true ∧ notRevoked r = true

theorem notRevoked_insert (r : Record) {t : Int} (ht : t ≠ 0) :
    notRevoked (r.insert "revoked_at" (.int t)) = false := by
  unfold notRevoked Record.get
  rw [SortedMap.get_insert_self]
  exact decide_eq_false ht

theorem notRevoked_rotated (r : Record) {t : Int} (ht : t ≠ 0) :
    notRevoked (rotatedRecord r t) = false := by
  unfold notRevoked rotatedRecord Record.get
  rw [SortedMap.get_insert_of_ne _ _ (by decide), SortedMap.get_insert_self]
  exact decide_eq_false ht

variable {chosen : Record → Bool} {r : Record}

theorem not_live_of_revoked (h : notRevoked r = false) : ¬ Live P chosen (some (P.dumps r)) := by
  rintro ⟨r', hr', _, hlive⟩
  rw [recordOf_dumps] at hr'
  obtain rfl := Option.some.inj hr'
  rw [h] at hlive
  cases hlive

/-- The record was read as harmless, or marked revoked. -/
def Checked (chosen : Record → Bool) (x : Str) (past past' : History Data) : Prop :=
  (∃ file, Since past past' ⟨.readFile (recordKey .refresh x), file⟩ ∧ ¬ Live P chosen file) ∨
  ∃ data revision, Since past past' ⟨.mutate "PutCanonicalRecord"
    [putOp (recordKey .refresh x) data], .ok revision⟩ ∧ ¬ Live P chosen (some data)

variable {x : Str}

theorem Checked.mono {P : Runtime Data} {past'' : History Data} (h : Checked P chosen x past past')
    (hsuf : past' <:+ past'') : Checked P chosen x past past'' := by
  obtain ⟨file, hsince, hdead⟩ | ⟨data, revision, hsince, hdead⟩ := h
  · exact .inl ⟨file, hsince.mono hsuf, hdead⟩
  · exact .inr ⟨data, revision, hsince.mono hsuf, hdead⟩

theorem Checked.weaken {P : Runtime Data} {past'' : History Data}
    (h : Checked P chosen x past' past'') (hsuf : past <:+ past') :
    Checked P chosen x past past'' := by
  obtain ⟨file, hsince, hdead⟩ | ⟨data, revision, hsince, hdead⟩ := h
  · exact .inl ⟨file, hsince.weaken hsuf, hdead⟩
  · exact .inr ⟨data, revision, hsince.weaken hsuf, hdead⟩

section

variable {P} {past : History Data} {t : Int}

/-! ## Building blocks -/

theorem yields_strongRead :
    Yields (refreshRules P) (fun past' _ => ¬ Faultless past') (strongRead : Handler Data Unit) past
      fun _ _ => True := by
  refine ⟨trivial, fun answer _ => ?_⟩
  cases answer with
  | ok revision => trivial
  | error e =>
    intro hfaultless
    obtain ⟨revision, hok⟩ := hfaultless _ List.mem_cons_self
    cases hok

variable {α : Type} {p : Handler Data α}

theorem yields_excused {φ : History Data → α → Prop}
    (h : Yields (refreshRules P) (fun past' _ => ¬ Faultless past') p past φ) :
    Yields (refreshRules P) (Excused P) p past φ := by
  refine Spec.mono h fun past' res _ hres => ?_
  cases res with
  | ok a => exact hres
  | error e => exact fun _ _ => hres

variable {now : Option Int}

theorem yields_timestampOf {excuse : History Data → PyError → Prop} (hnow : now ≠ some 0) :
    Yields (refreshRules P) excuse (timestampOf now) past fun _ t => t ≠ 0 := by
  cases now with
  | none => exact ⟨trivial, fun t ht => ht⟩
  | some t => exact fun h => hnow (congrArg some h)

variable {name : Str}

theorem yields_atomicJson {d : Dir} {value : Record} (hname : '/' ∉ name)
    (hmust : (refreshRules P).must past
      (.mutate "PutCanonicalRecord" [putOp (recordKey d name) (P.dumps value)])) :
    Yields (refreshRules P) (fun past' _ => ¬ Faultless past')
      (atomicJson P (recordPath d name) value) past fun past' _ =>
        ∃ revision, past' = ⟨.mutate "PutCanonicalRecord"
          [putOp (recordKey d name) (P.dumps value)], .ok revision⟩ :: past := by
  have hpaths : ∀ op ∈ [putOp (recordKey d name) (P.dumps value)],
      ∃ d' name', op.path = recordKey d' name' ∧ '/' ∉ name' := by
    intro op hop
    rw [List.mem_singleton.mp hop]
    exact ⟨d, name, rfl, hname⟩
  unfold atomicJson
  rw [recordPath_plain d hname, isReplicatedPath_record d hname]
  change Spec (refreshRules P) ((asIdentity (mutation _ _)).bind fun _ => Prog.ret ()) past _
  refine Spec.bind (Spec.handle ((spec_mutation hpaths hmust).mono fun past' res _ hres => ?_))
  cases res with
  | ok revision => exact ⟨revision, hres⟩
  | error e =>
    obtain ⟨refusal, rfl, rfl⟩ := hres
    intro hfaultless
    exact (hfaultless _ List.mem_cons_self refusal rfl).1 rfl

/-! ## Revoking one record -/

theorem yields_revokeCredential (chosen : Record → Bool) (ht : t ≠ 0) (hx : '/' ∉ x) :
    Yields (refreshRules P) (fun past' _ => ¬ Faultless past')
      (revokeCredential P chosen t (x ++ jsonSuffix)) past fun past' _ =>
        Checked P chosen x past past' := by
  have hpath : filePath .refresh (x ++ jsonSuffix) = recordKey .refresh x := rfl
  unfold revokeCredential
  rw [hpath]
  refine Spec.bind ((Spec.only (spec_orSkip_readJson _) (lenient_refreshRules P)).mono
    fun past' res _ hres => ?_)
  rw [clean_recordKey _ hx] at hres
  obtain ⟨_, file, _, rfl, rfl⟩ := hres
  have hsince := Since.newest ⟨.readFile (recordKey .refresh x), file⟩ (List.suffix_refl past)
  cases hr : recordOf P file with
  | none =>
    refine .inl ⟨file, hsince, ?_⟩
    rintro ⟨r, hr', _⟩
    cases hr.symm.trans hr'
  | some record =>
    dsimp only
    by_cases hchosen : (chosen record && notRevoked record) = true
    · -- the record is put back as it was read, marked
      have hwrite : RefreshWrite P (⟨.readFile (recordKey .refresh x), file⟩ :: past)
          "PutCanonicalRecord"
          [putOp (recordKey .refresh x) (P.dumps (record.insert "revoked_at" (.int t)))] :=
        .revoke hx ⟨file, List.mem_cons_self, hr⟩ ht
      have hput := yields_atomicJson hx hwrite
      rw [recordPath_plain .refresh hx] at hput
      rw [show (chosen record && (record.get "revoked_at" .null).isUnset) = true from hchosen,
        if_pos rfl]
      refine hput.mono fun past'' _ _ hack => ?_
      obtain ⟨revision, rfl⟩ := hack
      refine .inr ⟨_, revision, Since.newest _ (List.suffix_cons _ _), ?_⟩
      exact not_live_of_revoked P (notRevoked_insert record ht)
    · rw [show (chosen record && (record.get "revoked_at" .null).isUnset) = false from
        Bool.eq_false_iff.mpr hchosen, if_neg Bool.false_ne_true]
      refine .inl ⟨file, hsince, ?_⟩
      rintro ⟨r, hr', hc, hlive⟩
      obtain rfl := Option.some.inj (hr.symm.trans hr')
      exact hchosen (by rw [hc, hlive]; rfl)

theorem yields_scan (chosen : Record → Bool) (ht : t ≠ 0) {names : List Str}
    (hnames : ∀ name ∈ names, '/' ∉ name ∧ jsonSuffix <:+ name) :
    Yields (refreshRules P) (fun past' _ => ¬ Faultless past')
      (Prog.forEach (revokeCredential P chosen t) names) past fun past' _ =>
        ∀ x, x ++ jsonSuffix ∈ names → Checked P chosen x past past' := by
  refine (Yields.forEach (φ := fun name past' => ∀ x, name = x ++ jsonSuffix →
    Checked P chosen x past past') ?_ ?_).mono ?_
  · intro name past₁ past₂ hsuf h x hx
    exact (h x hx).mono hsuf
  · intro name hmem past' hsuf
    obtain ⟨hplain, x, rfl⟩ := hnames name hmem
    have hx : '/' ∉ x := fun h => hplain (List.mem_append_left _ h)
    refine (yields_revokeCredential chosen ht hx).mono fun past'' _ _ h y hy => ?_
    rw [← List.append_cancel_right hy]
    exact h.weaken hsuf
  · intro past' _ _ h x hx
    exact h _ hx x rfl

/-- A family has been listed and every listed file of it accounted for. -/
def Scanned (P : Runtime Data) (family : Str) (past past' : History Data) : Prop :=
  ∃ names, (⟨.glob .refresh, names⟩ :: past) <:+ past' ∧ ∀ x, x ++ jsonSuffix ∈ names →
    Checked P (fun r => familyOf P r = family) x (⟨.glob .refresh, names⟩ :: past) past'

theorem yields_revokeRefreshFamily (family : Str) (ht : t ≠ 0) :
    Yields (refreshRules P) (fun past' _ => ¬ Faultless past') (revokeRefreshFamily P family t) past
      fun past' _ => family ≠ [] → Scanned P family past past' := by
  unfold revokeRefreshFamily
  split
  · next hempty => exact fun hne => absurd hempty hne
  · refine ⟨trivial, fun names hnames => ?_⟩
    refine (yields_scan _ ht hnames).mono fun past' _ hsuf h _ => ?_
    exact ⟨names, hsuf, h⟩

/-! ## Rotation -/

/-- The record was read, and its family has been scanned since. -/
def Killed (P : Runtime Data) (index : Str) (past : History Data) : Prop :=
  ∃ r before, before <:+ past ∧ ReadRecord P before .refresh index r ∧
    (familyOf P r ≠ [] → Scanned P (familyOf P r) before past)

/-- What the end of a refresh call stands for. -/
def RefreshEnd (P : Runtime Data) (index : Str) (past : History Data) :
    Except PyError (List (Str × Json)) → Prop
  | .ok _ => True
  | .error e => Ordinary P → e = replayDetected → Faultless past → Killed P index past

variable {index : Str}

theorem refreshEnd_excused (h : Excused P past' e) : RefreshEnd P index past' (.error e) :=
  fun hordinary heq hfaultless => absurd hfaultless (h hordinary heq)

theorem spec_seq {f : α → Handler Data (List (Str × Json))} {φ : History Data → α → Prop}
    (h : Yields (refreshRules P) (Excused P) p past φ)
    (hf : ∀ past' a, past <:+ past' → φ past' a →
      Spec (refreshRules P) (f a) past' (RefreshEnd P index)) :
    Spec (refreshRules P) (p.bind f) past (RefreshEnd P index) :=
  h.andThen (fun _ _ he => refreshEnd_excused he) hf

variable {family : Str}

theorem spec_onConflict (ht : t ≠ 0) (hread : ReadRecord P past .refresh index r)
    (hfamily : familyOf P r ≠ [] → family = familyOf P r) :
    Spec (refreshRules P) (onConflict P family t) past fun past' res =>
      match res with
      | .ok _ => True
      | .error e => RefreshEnd P index past' (.error e) := by
  -- a fault inside is swallowed, and then the history is not faultless
  refine Spec.bind (Spec.mono (Q := fun past' res => ¬ Faultless past' ∨
    (∃ before, past <:+ before ∧ before <:+ past' ∧
      (family ≠ [] → Scanned P family before past') ∧ res = .ok ())) ?_ fun past' res hsuf
        hres => ?_)
  · refine Spec.handle (Spec.mono (Yields.seq yields_strongRead fun past₁ _ h₁ _ =>
      (yields_revokeRefreshFamily family ht).mono (ψ := fun past₂ _ => ∃ before,
        past <:+ before ∧ before <:+ past₂ ∧ (family ≠ [] → Scanned P family before past₂))
        fun past₂ _ h₂ h => ⟨past₁, h₁, h₂, h⟩) fun past' res _ hres => ?_)
    cases res with
    | ok a =>
      obtain ⟨before, h₁, h₂, h⟩ := hres
      exact .inr ⟨before, h₁, h₂, h, rfl⟩
    | error e =>
      cases e with
      | identity message status => exact .inl hres
      | _ => exact .inl hres
  · obtain hfault | ⟨before, h₁, h₂, hscan, rfl⟩ := hres
    · cases res with
      | ok a => exact fun _ _ hfaultless => absurd hfaultless hfault
      | error e => exact fun _ _ hfaultless => absurd hfaultless hfault
    · intro _ _ _
      refine ⟨r, before, h₂, hread.mono h₁, fun hne => ?_⟩
      rw [← hfamily hne]
      exact hscan (by rw [hfamily hne]; exact hne)

variable {userId deviceId : Str} {original : Data}

theorem rotation_paths {a y : Str} (hx : '/' ∉ x) (ha : '/' ∉ a) (hy : '/' ∉ y) :
    ∀ op ∈ rotation P (recordKey .refresh x) original r a y userId deviceId family t,
      ∃ d name, op.path = recordKey d name ∧ '/' ∉ name := by
  intro op hop
  unfold rotation at hop
  rw [recordPath_plain _ ha, recordPath_plain _ hy] at hop
  obtain rfl | hop := List.mem_cons.mp hop
  · exact ⟨_, x, rfl, hx⟩
  obtain rfl | hop := List.mem_cons.mp hop
  · exact ⟨_, a, rfl, ha⟩
  · rw [List.mem_singleton.mp hop]
    exact ⟨_, y, rfl, hy⟩

theorem rotation_put {path a y : Str} :
    ∀ op ∈ rotation P path original r a y userId deviceId family t, op.op = .put := by
  intro op hop
  simp only [rotation, List.mem_cons, List.not_mem_nil, or_false] at hop
  obtain rfl | rfl | rfl := hop <;> rfl

theorem yields_credentialIndex (token : Str) :
    Yields (refreshRules P) (Excused P) (credentialIndex P token) past fun past' index =>
      past' = past ∧ index = P.sha256Text token := by
  unfold credentialIndex
  split
  · exact ⟨rfl, rfl⟩
  · exact excused_of_ne P nofun

theorem spec_rotateRefresh (hindex : '/' ∉ index) (ht : t ≠ 0)
    (hread : ⟨.readFile (recordKey .refresh index), some original⟩ ∈ past)
    (hrecord : recordOf P (some original) = some r) (hlive : notRevoked r = true) :
    Spec (refreshRules P)
      (rotateRefresh P (recordKey .refresh index) original r userId deviceId t) past
      (RefreshEnd P index) := by
  have hfamily : Yields (refreshRules P) (Excused P)
      (if familyOf P r ≠ [] then Prog.ret (familyOf P r) else askRandom 16) past
      fun _ family => familyOf P r ≠ [] → family = familyOf P r := by
    split
    · exact fun _ => rfl
    · next hempty => exact ⟨trivial, fun _ _ hne => absurd hne hempty⟩
  refine spec_seq hfamily fun past₁ family h₁ hfam => ?_
  refine spec_seq (yields_ask trivial) fun past₂ access h₂ _ => ?_
  refine spec_seq (yields_ask trivial) fun past₃ new h₃ _ => ?_
  refine spec_seq (yields_credentialIndex access) fun past₄ a h₄ ha => ?_
  refine spec_seq (yields_credentialIndex new) fun past₅ y h₅ hy => ?_
  have hsuf : past <:+ past₅ := h₁.trans (h₂.trans (h₃.trans (h₄.trans h₅)))
  have ha' : '/' ∉ a := ha.2 ▸ not_slash_of_isHex (P.sha256Text_hex _)
  have hy' : '/' ∉ y := hy.2 ▸ not_slash_of_isHex (P.sha256Text_hex _)
  have hmust : RefreshWrite P past₅ "RotateRefreshCredential"
      (rotation P (recordKey .refresh index) original r a y userId deviceId family t) :=
    .rotate hindex ha' hy' (hsuf.subset hread) hrecord hlive ht hfam
  refine Spec.bind (Spec.handle (Spec.bind
    ((spec_mutation (rotation_paths hindex ha' hy') hmust).mono fun past₆ res h₆ hres => ?_)))
  cases res with
  | ok revision => trivial
  | error e =>
    obtain ⟨refusal, rfl, rfl⟩ := hres
    dsimp only
    split
    · -- the comparison is lost: from here on the call revokes the family
      have hread₅ : ReadRecord P past₅ .refresh index r :=
        ⟨some original, hsuf.subset hread, hrecord⟩
      refine (spec_onConflict ht (hread₅.mono h₆) hfam).mono fun past₇ res _ hres => ?_
      cases res with
      | ok u => trivial
      | error e => exact hres
    · refine refreshEnd_excused fun _ heq hfaultless => ?_
      obtain ⟨_, hstatus⟩ := PyError.identity.inj heq
      exact (hfaultless _ List.mem_cons_self refusal rfl).2 hstatus

/-! ## The refresh call -/

theorem yields_orRaise_readJson {path : Str} (h : e ≠ replayDetected) :
    Yields (refreshRules P) (Excused P) (orRaise (readJson P path) e) past fun _ _ => True := by
  refine Spec.handle ((Spec.only (spec_readJson path) (lenient_refreshRules P)).mono
    fun past' res _ hres => ?_)
  obtain ⟨_, file, _, _, hres⟩ := hres
  cases res with
  | ok r => trivial
  | error raised =>
    dsimp only
    rw [if_pos hres.2]
    exact excused_of_ne P h

theorem yields_loadUser (userId : Str) :
    Yields (refreshRules P) (Excused P) (loadUser P userId) past fun _ _ => True :=
  (yields_raiseIf (excused_of_ne P (identity_ne_replayDetected (by decide)))).seq fun _ _ _ _ =>
    yields_orRaise_readJson (identity_ne_replayDetected (by decide))

theorem yields_loadDevice (deviceId : Str) :
    Yields (refreshRules P) (Excused P) (loadDevice P deviceId) past fun _ _ => True :=
  Yields.seq (φ := fun _ _ => True)
    ((yields_raiseIf (excused_of_ne P (identity_ne_replayDetected (by decide)))).seq
      fun _ _ _ _ => trivial)
    fun _ _ _ _ => yields_orRaise_readJson (identity_ne_replayDetected (by decide))

theorem yields_readRefresh (hindex : '/' ∉ index) :
    Yields (refreshRules P) (Excused P) (readRefresh P (recordKey .refresh index)) past
      fun past' found => ⟨.readFile (recordKey .refresh index), some found.1⟩ ∈ past' ∧
        recordOf P (some found.1) = some found.2 := by
  have hinvalid : Excused P (⟨.readFile (recordKey .refresh index), none⟩ :: past)
      (.identity "invalid refresh credential" 401) :=
    excused_of_ne P (identity_ne_replayDetected (by decide))
  unfold readRefresh readBytes
  rw [clean_recordKey _ hindex]
  refine ⟨trivial, fun file _ => ?_⟩
  cases file with
  | none => exact hinvalid
  | some original =>
    dsimp only [Prog.bind]
    cases hloads : P.loads original with
    | object record => exact ⟨List.mem_cons_self, by simp only [recordOf, hloads]⟩
    | other => exact excused_of_ne P (identity_ne_replayDetected (by decide))
    | invalid => exact excused_of_ne P (identity_ne_replayDetected (by decide))

theorem spec_useRefresh {credential proof : Str} (hindex : '/' ∉ index) (ht : t ≠ 0)
    (hread : ⟨.readFile (recordKey .refresh index), some original⟩ ∈ past)
    (hrecord : recordOf P (some original) = some r) (hlive : notRevoked r = true) :
    Spec (refreshRules P) (useRefresh P credential proof (recordKey .refresh index) original r t)
      past (RefreshEnd P index) := by
  have hint : Yields (refreshRules P) (Excused P)
      (Prog.ofExcept (P.int (r.get "expires_at" (.int 0)))) past fun past' _ => past' = past :=
    yields_ofExcept fun e he hordinary heq => absurd heq (hordinary.int _ e he)
  refine spec_seq hint fun past₁ expiresAt _ hpast => ?_
  subst hpast
  split
  · -- an expired credential is marked revoked
    have hwrite : RefreshWrite P past₁ "PutCanonicalRecord"
        [putOp (recordKey .refresh index) (P.dumps (r.insert "revoked_at" (.int t)))] :=
      .revoke hindex ⟨some original, hread, hrecord⟩ ht
    have hput := yields_atomicJson hindex hwrite
    rw [recordPath_plain .refresh hindex] at hput
    exact spec_seq (yields_excused hput) fun _ _ _ _ =>
      refreshEnd_excused (excused_of_ne P (identity_ne_replayDetected (by decide)))
  · refine spec_seq (yields_loadUser _) fun past₂ user h₂ _ => ?_
    refine spec_seq (yields_raiseIf (excused_of_ne P (identity_ne_replayDetected (by decide))))
      fun past₃ _ h₃ _ => ?_
    refine spec_seq (yields_loadDevice _) fun past₄ device h₄ _ => ?_
    have hfield : Yields (refreshRules P) (Excused P) (field user "id") past₄ fun _ _ => True := by
      unfold field
      split
      · trivial
      · exact excused_of_ne P nofun
    refine spec_seq hfield fun past₅ id h₅ _ => ?_
    refine spec_seq (yields_raiseIf (excused_of_ne P (identity_ne_replayDetected (by decide))))
      fun past₆ _ h₆ _ => ?_
    refine spec_seq (yields_ofExcept fun e he hordinary heq =>
      absurd heq (hordinary.verifyProof _ _ _ e he)) fun past₇ _ h₇ _ => ?_
    refine spec_rotateRefresh hindex ht ?_ hrecord hlive
    exact (h₂.trans (h₃.trans (h₄.trans (h₅.trans (h₆.trans h₇))))).subset hread

/-- **The refresh call**: the replay error is raised only after a scan of the family, or a fault. -/
theorem spec_refreshDeviceSession (token proof : Str) (hnow : now ≠ some 0) :
    Spec (refreshRules P) (refreshDeviceSession P token proof now) past
      (RefreshEnd P (P.sha256Text (strip token))) := by
  refine spec_seq (yields_excused yields_strongRead) fun past₁ _ _ _ => ?_
  have htoken : Yields (refreshRules P) (Excused P)
      (validateOpaqueToken P token "refresh credential") past₁
      fun _ credential => credential = strip token :=
    (yields_raiseIf (excused_of_ne P (identity_ne_replayDetected (by decide)))).seq fun _ _ _ _ =>
      (yields_raiseIf (excused_of_ne P (identity_ne_replayDetected (by decide)))).seq
        fun _ _ _ _ => rfl
  refine spec_seq htoken fun past₂ credential _ hcredential => ?_
  subst hcredential
  refine spec_seq (yields_credentialIndex _) fun past₃ index _ hindex => ?_
  obtain ⟨_, rfl⟩ := hindex
  have hplain : '/' ∉ P.sha256Text (strip token) := not_slash_of_isHex (P.sha256Text_hex _)
  rw [recordPath_plain _ hplain]
  refine spec_seq (yields_readRefresh hplain) fun past₄ found _ hfound => ?_
  obtain ⟨original, record⟩ := found
  refine spec_seq (yields_timestampOf hnow) fun past₅ t h₅ ht => ?_
  have hread : ⟨.readFile (recordKey .refresh (P.sha256Text (strip token))),
    some original⟩ ∈ past₅ :=
    h₅.subset hfound.1
  by_cases hlive : notRevoked record = true
  · rw [hlive]
    exact spec_useRefresh hplain ht hread hfound.2 hlive
  · rw [Bool.eq_false_iff.mpr hlive]
    refine Yields.andThen (yields_revokeRefreshFamily (familyOf P record) ht)
      (fun past' e hfault _ _ hfaultless => absurd hfaultless hfault) fun past₆ _ h₆ hscan => ?_
    exact fun _ _ _ => ⟨record, past₅, h₆, ⟨some original, hread, hfound.2⟩, hscan⟩

/-! ## The other calls -/

theorem harmless_of_yields {excuse : History Data → PyError → Prop}
    (h : ∀ past, ∃ φ, Yields (refreshRules P) excuse p past φ) : Harmless (refreshRules P) p := by
  intro past
  obtain ⟨φ, hφ⟩ := h past
  refine Spec.mono hφ fun past' res _ _ => ?_
  cases res <;> trivial

theorem harmless_revokeRefreshFamily (family : Str) (ht : t ≠ 0) :
    Harmless (refreshRules P) (revokeRefreshFamily P family t) :=
  harmless_of_yields fun _ => ⟨_, yields_revokeRefreshFamily family ht⟩

theorem harmless_deleteAccess {kind : Str} (hname : '/' ∉ name) :
    Harmless (refreshRules P) (deleteCanonical P (recordKey .identityAccess name) kind) :=
  fun _ => returns_deleteCanonical hname (.access hname)

/-- A credential can be revoked at any time but 0. -/
theorem revokes_refresh : Revokes P (refreshRules P) (· ≠ 0) where
  lenient := lenient_refreshRules P
  lists _ _ hnames := hnames
  time _ ht := ht
  deletes _ _ hname := harmless_deleteAccess hname
  marks chosen t name ht hname := by
    obtain ⟨x, hx, rfl, _⟩ := filePath_eq .refresh hname.1 hname.2
    exact harmless_of_yields fun _ => ⟨_, yields_revokeCredential chosen ht hx⟩

theorem ne_zero_of_now (hnow : now ≠ some 0) : ∀ t, now = some t → t ≠ 0 :=
  fun _ heq hzero => hnow (hzero ▸ heq)

theorem harmless_logoutFamily (user device : Record) (token : Str) :
    Harmless (refreshRules P) (logoutFamily P user device token) := by
  refine (harmless_validateOpaqueToken _ _).bind fun credential => ?_
  refine harmless_indexed credential fun index _ => ?_
  have hrecord : Harmless (refreshRules P) (logoutRecord P index) := by
    refine (harmless_ask fun _ => trivial).bind fun found => ?_
    cases found with
    | none => exact harmless_ret _
    | some data =>
      dsimp only
      cases P.loads data <;> exact harmless_ret _
  refine hrecord.bind fun found => ?_
  cases found with
  | none => exact harmless_ret _
  | some record =>
    exact (harmless_field user _).bind fun _ => Harmless.ite (harmless_ret _) (harmless_ret _)

theorem harmless_logoutSession (accessToken : Str) (refreshToken : Option Str)
    (hnow : now ≠ some 0) :
    Harmless (refreshRules P) (logoutSession P accessToken refreshToken now) := by
  refine revokes_refresh.timed (ne_zero_of_now hnow) fun t ht => ?_
  refine (harmless_authorizeAccessCredentialAt (lenient_refreshRules P)
    (fun _ _ hname => harmless_deleteAccess hname) _ _ _ _).bind fun found => ?_
  obtain ⟨user, device, _⟩ := found
  refine harmless_indexed accessToken fun index hindex => ?_
  rw [recordPath_plain _ hindex]
  refine (harmless_deleteAccess hindex).bind fun _ => ?_
  cases device with
  | none => exact harmless_ret _
  | some device =>
    refine Harmless.bind ?_ fun family => ?_
    · cases refreshToken with
      | none => exact harmless_ret _
      | some token => exact Harmless.ite (harmless_logoutFamily user device token) (harmless_ret _)
    · cases family with
      | some family => exact harmless_revokeRefreshFamily family ht
      | none =>
        exact revokes_refresh.revokeDeviceCredentials _ fun _ heq => Option.some.inj heq ▸ ht

/-- What the end of a call stands for. -/
def refreshPost (P : Runtime Data) :
    RefreshJob → History Data → Except PyError (List (Str × Json)) → Prop
  | .refresh token _ _ => RefreshEnd P (P.sha256Text (strip token))
  | _ => fun _ _ => True

/-- **Every call is on its specification when it starts.** -/
theorem spec_refreshProgram {job : RefreshJob} (hnow : job.now ≠ some 0) :
    Spec (refreshRules P) (refreshProgram P job) [] (refreshPost P job) := by
  have hother : ∀ p : Handler Data Unit, Harmless (refreshRules P) p →
      Spec (refreshRules P) (p.bind fun _ => Prog.ret ([] : List (Str × Json))) []
        fun _ _ => True := by
    intro p hp
    exact Spec.mono ((hp.bind fun _ => harmless_ret _) []) fun _ _ _ _ => trivial
  cases job with
  | refresh token proof now => exact spec_refreshDeviceSession token proof hnow
  | logout accessToken refreshToken now =>
    exact hother _ (harmless_logoutSession accessToken refreshToken hnow)
  | revokeDevice deviceId now =>
    exact hother _ (revokes_refresh.revokeDeviceCredentials deviceId (ne_zero_of_now hnow))
  | revokeUser userId now =>
    exact hother _ (revokes_refresh.revokeUserAccess userId (ne_zero_of_now hnow))

end

end Bpc.Deploy.Refreshing
